import StringBricks.Brick.Order

/-!
# Assignments between lists of bricks

What alignment decides, said without any table: each brick on the left is assigned to a brick on the
right or to none, and the order is kept.
-/

set_option autoImplicit false

namespace StringBricks

/-- An assignment, in order, of the bricks on the left to the bricks on the right. -/
structure Assignment (left right : List Brick) where
  target : Fin left.length → Option (Fin right.length)
  inOrder : ∀ i j p q, i ≤ j → target i = some p → target j = some q → p ≤ q

/-- Whether every brick on the right is above what is assigned to it, and every brick that is left
over faces the filler. Only the brick for every string may be assigned more than one. -/
def Assignment.Fits {left right : List Brick} (a : Assignment left right) : Prop :=
  (∀ i, a.target i = none → left[i].le Brick.filler = true) ∧
  (∀ p, (∀ i, a.target i ≠ some p) → Brick.filler.le right[p] = true) ∧
  (∀ i p, a.target i = some p → (∀ j, a.target j = some p → j = i) →
    left[i].le right[p] = true) ∧
  (∀ i j p, i ≠ j → a.target i = some p → a.target j = some p → right[p].isTop = true)

end StringBricks
