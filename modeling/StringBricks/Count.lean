/-!
# Counts

How often a brick may be repeated is counted up to a fixed cap. A sum that would pass the cap stays
at the cap, so adding counts never fails and never wraps.
-/

set_option autoImplicit false

namespace StringBricks

/-- The largest count, 2⁶⁴ − 1. -/
def Count.cap : Nat := 18446744073709551615

/-- A number of repetitions, at most `Count.cap`. -/
@[ext] structure Count where
  toNat : Nat
  toNat_le_cap : toNat ≤ Count.cap
deriving DecidableEq, Repr

namespace Count

/-- The count nearest to `n`: `n` itself, or the cap if `n` is beyond it. -/
def ofNat (n : Nat) : Count := ⟨min n cap, Nat.min_le_right n cap⟩

/-- The count `n`, or `none` if `n` is beyond the cap. -/
def ofNat? (n : Nat) : Option Count :=
  if h : n ≤ cap then some ⟨n, h⟩ else none

instance (n : Nat) : OfNat Count n := ⟨ofNat n⟩

/-- Saturating sum: a total beyond the cap stays at the cap. -/
instance : Add Count := ⟨fun a b => ofNat (a.toNat + b.toNat)⟩

instance : LE Count := ⟨fun a b => a.toNat ≤ b.toNat⟩
instance : LT Count := ⟨fun a b => a.toNat < b.toNat⟩

instance (a b : Count) : Decidable (a ≤ b) := inferInstanceAs (Decidable (a.toNat ≤ b.toNat))
instance (a b : Count) : Decidable (a < b) := inferInstanceAs (Decidable (a.toNat < b.toNat))

instance : Min Count := ⟨fun a b => if a ≤ b then a else b⟩
instance : Max Count := ⟨fun a b => if a ≤ b then b else a⟩

/-- A number that is too large becomes the cap. -/
@[simp] theorem toNat_ofNat (n : Nat) : (ofNat n).toNat = min n cap := rfl

/-- Zero is not cut off. -/
@[simp] theorem toNat_zero : (0 : Count).toNat = 0 := rfl

/-- One is not cut off. -/
@[simp] theorem toNat_one : (1 : Count).toNat = 1 := rfl

/-- A sum is cut off at the cap. -/
theorem toNat_add (a b : Count) : (a + b).toNat = min (a.toNat + b.toNat) cap := rfl

/-- Counts are compared as numbers. -/
theorem le_iff {a b : Count} : a ≤ b ↔ a.toNat ≤ b.toNat := Iff.rfl

/-- The smaller count is the one with the smaller number. -/
theorem toNat_min (a b : Count) : (min a b).toNat = min a.toNat b.toNat := by
  show (if a.toNat ≤ b.toNat then a else b).toNat = _
  split <;> omega

/-- The larger count is the one with the larger number. -/
theorem toNat_max (a b : Count) : (max a b).toNat = max a.toNat b.toNat := by
  show (if a.toNat ≤ b.toNat then b else a).toNat = _
  split <;> omega

end Count

end StringBricks
