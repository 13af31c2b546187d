import StringBricks.Brick.Order
import StringBricks.Brick.Widening
import StringBricks.Domain

/-!
# The domain of single bricks
-/

set_option autoImplicit false

namespace StringBricks

/-- Bricks as an abstract domain, with the widening limits `t`. -/
def Brick.domain (t : Thresholds) : Domain Brick where
  bottom := .bottom
  top := .top
  isBottom := isBottom
  isTop := isTop
  le := le
  join := join
  meet := meet
  widen := widen t

end StringBricks
