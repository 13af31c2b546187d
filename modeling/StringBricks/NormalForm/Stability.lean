import StringBricks.BrickSeq.Basic

/-!
# Stable lists and weights

When the cycle of rules has nothing left to do, and how large the counts in a list may be for its
sums not to reach the cap.
-/

set_option autoImplicit false

namespace StringBricks

namespace NormalForm

/-- The list after `n` cycles. -/
def cycled (n : Nat) (l : List Brick) : List Brick := Nat.repeat cycle n l

/-- Whether the cycle leaves the list as it is. -/
def Stable (l : List Brick) : Prop := cycle l = l

instance (l : List Brick) : Decidable (Stable l) := inferInstanceAs (Decidable (cycle l = l))

/-- Whether the normal form is found in fewer than `rounds` changes. -/
def SettlesWithin (rounds : Nat) (l : List Brick) : Prop :=
  l.any Brick.isBottom = true ∨ ∃ n, n < rounds ∧ Stable (cycled n (dropFillers l))

/-- The largest count of a range that is finite, and the smallest one of any other. -/
def weight (b : Brick) : Nat :=
  match b.hi with
  | .finite n => n.toNat
  | .infinite => b.lo.toNat

/-- The weights of all bricks together. -/
def totalWeight (l : List Brick) : Nat := l.foldr (fun b total => weight b + total) 0

end NormalForm

/-- Whether the sequence is its own normal form. -/
def BrickSeq.IsNormal (x : BrickSeq) : Prop := normalized x.bricks = x

end StringBricks
