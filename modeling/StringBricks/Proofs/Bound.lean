import StringBricks.Bound
import Mathlib.Order.BoundedOrder.Lattice

/-!
# The order of counts and bounds

Counts are linearly ordered as numbers, and so are bounds, from zero to the infinite one. Minima and
maxima are those of the order.
-/

set_option autoImplicit false

namespace StringBricks

/-- Counts are ordered as numbers. -/
instance : LinearOrder Count where
  le_refl a := Nat.le_refl a.toNat
  le_trans _ _ _ := Nat.le_trans
  le_antisymm _ _ hab hba := Count.ext (Nat.le_antisymm hab hba)
  lt_iff_le_not_ge a b := lt_iff_le_not_ge (a := a.toNat) (b := b.toNat)
  le_total a b := Nat.le_total a.toNat b.toNat
  toDecidableLE := inferInstance
  min_def _ _ := rfl
  max_def _ _ := rfl

namespace Bound

/-- Only the infinite bound is at least infinite. -/
theorem infinite_le_iff {a : Bound} : infinite ≤ a ↔ a = infinite := by
  cases a with
  | infinite => simp
  | finite n => simp

/-- Any two bounds can be compared. -/
private theorem le_or_le (a b : Bound) : a ≤ b ∨ b ≤ a := by
  cases b with
  | infinite => exact .inl (le_infinite a)
  | finite n =>
    cases a with
    | infinite => exact .inr (le_infinite _)
    | finite m => exact le_total m n

/-- Bounds are ordered as counts, with the infinite one on top. -/
instance : LinearOrder Bound where
  le_refl a := (le_or_le a a).elim id id
  le_trans a b c hab hbc := by
    cases c with
    | infinite => exact le_infinite a
    | finite n =>
      cases b with
      | infinite => simp at hbc
      | finite m =>
        cases a with
        | infinite => simp at hab
        | finite k => exact Nat.le_trans hab hbc
  le_antisymm a b hab hba := by
    cases b with
    | infinite => exact infinite_le_iff.1 hba
    | finite n =>
      cases a with
      | infinite => exact (infinite_le_iff.1 hab).symm
      | finite m => exact congrArg finite (Count.ext (Nat.le_antisymm hab hba))
  lt_iff_le_not_ge a b := iff_and_self.2 (le_or_le a b).resolve_right
  le_total := le_or_le
  toDecidableLE := inferInstance
  min_def _ _ := rfl
  max_def _ _ := rfl

/-- No bound is above the infinite one. -/
instance : OrderTop Bound where
  top := infinite
  le_top := le_infinite

/-- No bound is below zero. -/
instance : OrderBot Bound where
  bot := 0
  bot_le a := by
    cases a with
    | infinite => exact le_infinite 0
    | finite n => exact Nat.zero_le n.toNat

/-- The bound zero is the least one. -/
theorem zero_le (a : Bound) : 0 ≤ a := bot_le

/-- Only zero is at most zero. -/
theorem le_zero_iff {a : Bound} : a ≤ 0 ↔ a = 0 := le_bot_iff

/-- The larger of two bounds is zero only if both are. -/
theorem max_eq_zero_iff {a b : Bound} : max a b = 0 ↔ a = 0 ∧ b = 0 := max_eq_bot

/-- The smaller of two bounds is zero if one of them is. -/
theorem min_eq_zero_iff {a b : Bound} : min a b = 0 ↔ a = 0 ∨ b = 0 := min_eq_bot

/-- Only the count zero is at most zero. -/
theorem finite_le_zero_iff {n : Count} : .finite n ≤ (0 : Bound) ↔ n = 0 := by
  rw [le_zero_iff]
  exact finite.injEq n 0 ▸ Iff.rfl

end Bound

end StringBricks
