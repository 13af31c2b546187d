import StringBricks.Fault

/-!
# Abstract domains

The operations that an analysis needs of its abstract values: an order with extrema, a join, a meet
and a widening. Narrowing is the meet, and two values count as equal if each is below the other.
-/

set_option autoImplicit false

namespace StringBricks

/-- The operations of an abstract domain over the carrier `α`. -/
structure Domain (α : Type) where
  bottom : α
  top : α
  isBottom : α → Bool
  isTop : α → Bool
  le : α → α → Bool
  join : α → α → α
  /-- An approximation of what two values share. It need not be below either. -/
  meet : α → α → α
  /-- An upper bound of two values that keeps ascending chains short. -/
  widen : α → α → Except Fault α

namespace Domain

variable {α : Type}

/-- Refines an over-approximation by a second one. -/
def narrow (d : Domain α) (x y : α) : α := d.meet x y

/-- Whether two values are below each other. -/
def equiv (d : Domain α) (x y : α) : Bool := d.le x y && d.le y x

end Domain

end StringBricks
