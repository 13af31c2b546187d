import StringBricks.Count

/-!
# Bounds

An upper bound on repetitions is a count or infinite. Bounds are totally ordered with the infinite
one on top. Adding never fails; subtracting fails when the result would be negative or when the
infinite bound is taken away.
-/

set_option autoImplicit false

namespace StringBricks

/-- A bound on the number of repetitions: a count, or none at all. -/
inductive Bound where
  | finite (n : Count)
  | infinite
deriving DecidableEq, Repr

/-- Why a difference of two bounds is undefined. -/
inductive BoundError where
  /-- The subtrahend is larger than the minuend. -/
  | negative (minuend subtrahend : Count)
  | infiniteSubtrahend
deriving DecidableEq, Repr

/-- The wording of an undefined difference. -/
def BoundError.message : BoundError → String
  | .negative m s => s!"cannot subtract {s.toNat} from {m.toNat}: result would be negative"
  | .infiniteSubtrahend => "cannot subtract an infinite index"

namespace Bound

instance : Coe Count Bound := ⟨finite⟩

instance (n : Nat) : OfNat Bound n := ⟨finite (Count.ofNat n)⟩

/-- Whether there is no bound. -/
def isInfinite : Bound → Bool
  | finite _ => false
  | infinite => true

/-- The count of a finite bound. -/
def finite? : Bound → Option Count
  | finite n => some n
  | infinite => none

/-- Every bound is at most the infinite one, and finite bounds compare as counts. -/
protected def le : Bound → Bound → Prop
  | _, infinite => True
  | infinite, finite _ => False
  | finite a, finite b => a ≤ b

instance : LE Bound := ⟨Bound.le⟩

instance : (a b : Bound) → Decidable (a ≤ b)
  | _, infinite => .isTrue (by simp [LE.le, Bound.le])
  | infinite, finite _ => .isFalse (by simp [LE.le, Bound.le])
  | finite a, finite b => inferInstanceAs (Decidable (a ≤ b))

instance : LT Bound := ⟨fun a b => ¬ b ≤ a⟩

instance (a b : Bound) : Decidable (a < b) := inferInstanceAs (Decidable (¬ b ≤ a))

instance : Min Bound := ⟨fun a b => if a ≤ b then a else b⟩
instance : Max Bound := ⟨fun a b => if a ≤ b then b else a⟩

/-- Sum of two bounds: the infinite one absorbs, finite ones saturate. -/
instance : Add Bound where
  add
    | finite a, finite b => finite (a + b)
    | _, _ => infinite

/-- Difference of two bounds. Taking a count from the infinite bound leaves it infinite. -/
def sub : Bound → Bound → Except BoundError Bound
  | _, infinite => .error .infiniteSubtrahend
  | infinite, finite _ => .ok infinite
  | finite a, finite b =>
    if b ≤ a then .ok (finite (Count.ofNat (a.toNat - b.toNat))) else .error (.negative a b)

/-- Whether the bound lies above the number `n`. -/
def exceeds : Bound → Nat → Bool
  | finite a, n => decide (n < a.toNat)
  | infinite, _ => true

/-- Decimal digits, or `∞`. -/
def text : Bound → String
  | finite n => toString n.toNat
  | infinite => "∞"

/-- Nothing exceeds no bound. -/
@[simp] theorem le_infinite (a : Bound) : a ≤ infinite := by
  cases a <;> exact trivial

/-- No count stands in for no bound. -/
@[simp] theorem not_infinite_le_finite (n : Count) : ¬ infinite ≤ finite n := id

/-- Finite bounds are compared as numbers. -/
@[simp] theorem finite_le_finite {a b : Count} : finite a ≤ finite b ↔ a.toNat ≤ b.toNat := Iff.rfl

end Bound

end StringBricks
