import StringBricks.BrickSeq.Lattice
import StringBricks.Domain

/-!
# The domain of sequences
-/

set_option autoImplicit false

namespace StringBricks

/-- Sequences as an abstract domain, with the widening limits `t`. -/
def BrickSeq.domain (t : Thresholds) : Domain BrickSeq where
  bottom := .bottom
  top := .top
  isBottom := isBottom
  isTop := isTop
  le := le
  join := join
  meet := meet
  widen := widen t

end StringBricks
