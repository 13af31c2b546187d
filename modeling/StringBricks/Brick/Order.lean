import StringBricks.Brick.Basic

/-!
# Order, join and meet of bricks

A brick is below another if its content is and its range lies within the other's. The join is the
least upper bound. The meet only approximates the common strings: it intersects the ranges and joins
two known sets.
-/

set_option autoImplicit false

namespace StringBricks

namespace Brick

/-- Whether `a` is below `b`. A brick for no string is below every brick. -/
def le (a b : Brick) : Bool :=
  a.isBottom || b.isTop ||
    (!b.isBottom && a.content.le b.content && b.lo ≤ a.lo && a.hi ≤ b.hi)

/-- Both contents over the hull of both ranges. A brick for no string adds nothing. -/
def join (a b : Brick) : Brick :=
  if a.isBottom then b
  else if b.isBottom then a
  else ⟨a.content.join b.content, min a.lo b.lo, max a.hi b.hi⟩

/-- An approximation of the strings that `a` and `b` share. -/
def meet (a b : Brick) : Brick :=
  if a.isBottom || b.isBottom then bottom
  else ⟨a.content.meet b.content, max a.lo b.lo, min a.hi b.hi⟩

end Brick

end StringBricks
