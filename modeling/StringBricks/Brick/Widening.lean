import StringBricks.Brick.Basic
import StringBricks.Thresholds

/-!
# Widening of bricks

Widening joins two bricks and gives up what grows too large: a set beyond the size limit becomes the
top brick, and a range that is unbounded or beyond the width limit becomes `(0, ∞)`.
-/

set_option autoImplicit false

namespace StringBricks

namespace Brick

/-- Both bricks together, cut off at the limits `t`. Of the bricks for no string, only those with an
empty range are left out. -/
def widen (t : Thresholds) (a b : Brick) : Except Fault Brick :=
  if a.hasEmptyRange then .ok b
  else if b.hasEmptyRange then .ok a
  else match a.content.join b.content with
    | .unknown => .ok top
    | .known members =>
      if t.setSize < members.size then .ok top
      else
        let lo := min a.lo b.lo
        let hi := max a.hi b.hi
        match hi.sub lo with
        | .error cause => .error (.illFormed cause)
        | .ok width =>
          if width.exceeds t.rangeWidth then .ok ⟨.known members, 0, .infinite⟩
          else .ok ⟨.known members, lo, hi⟩

end Brick

end StringBricks
