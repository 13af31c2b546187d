import StringBricks.Proofs.Brick.Widening
import StringBricks.Proofs.BrickSeq.Join
import StringBricks.Proofs.NormalForm.Merging
import Mathlib.Data.List.Forall2

/-!
# What the widening of two sequences can be

Widening two sequences never fails, and its result is above both. It is one of the operands, or the
top sequence, or the normal form of bricks that are within the limits: no more of them than the
length limit, with no more mandatory repetitions together than the first operand has
(`BrickSeq.widen_cases`).
-/

set_option autoImplicit false

namespace StringBricks

/-- A traversal succeeds with the results that its function has one by one. -/
theorem mapM_eq_ok_iff {α β : Type} {f : α → Except Fault β} {l : List α} {m : List β} :
    l.mapM f = .ok m ↔ List.Forall₂ (fun a b => f a = .ok b) l m := by
  induction l generalizing m with
  | nil => cases m <;> simp [pure, Except.pure]
  | cons a l ih =>
    rw [List.mapM_cons]
    cases ha : f a with
    | error fault => cases m <;> simp [bind, Except.bind, ha]
    | ok b =>
      cases hl : l.mapM f with
      | error fault => cases m <;> simp [bind, Except.bind, ← ih, hl, ha]
      | ok m' => cases m <;> simp [bind, Except.bind, pure, Except.pure, ← ih, hl, ha]

/-- A traversal with a function that never fails does not fail. -/
theorem exists_mapM_eq_ok {α β : Type} {f : α → Except Fault β} (h : ∀ a, ∃ b, f a = .ok b)
    (l : List α) : ∃ m, l.mapM f = .ok m := by
  induction l with
  | nil => exact ⟨[], rfl⟩
  | cons a l ih =>
    obtain ⟨b, hb⟩ := h a
    obtain ⟨m, hm⟩ := ih
    exact ⟨b :: m, mapM_eq_ok_iff.2 (.cons hb (mapM_eq_ok_iff.1 hm))⟩

namespace Alignment

open NormalForm

variable {μ : Brick → Nat}

/-- A measure that is zero for fillers has the same sum over a filled list. -/
theorem Filled.total_eq (hfiller : μ Brick.filler = 0) {n : Nat} {mine l : List Brick}
    (h : Filled n mine l) : total μ l = total μ mine := by
  induction h with
  | nil => rfl
  | keep b _ ih => rw [total_cons, total_cons, ih]
  | fill _ ih => rw [total_cons, hfiller, Nat.zero_add, ih]

/-- Padding leaves a total as it is in which fillers do not count. -/
theorem total_pad (hfiller : μ Brick.filler = 0) (mine theirs : List Brick) :
    total μ (pad mine theirs) = total μ mine :=
  (filled_pad mine theirs).total_eq hfiller

end Alignment

namespace BrickSeq

open NormalForm

variable {t : Thresholds} {x y r : BrickSeq}

/-! ## The bricks of a widening -/

/-- Bricks that are each within the limits `t` and together need not occur more than `least`
times. -/
structure Limited (t : Thresholds) (least : Nat) (l : List Brick) : Prop where
  minimum_le : totalMinimum l ≤ least
  variety_le : ∀ b ∈ l, b.content.variety ≤ max 1 t.setSize
  weight_le : ∀ b ∈ l, weight b ≤ b.lo.toNat + t.rangeWidth

/-- Bricks that are widened pair by pair are within the limits. -/
theorem limited_of_forall₂ {z : List (Brick × Brick)} {l : List Brick}
    (h : List.Forall₂ (fun p c => p.1.widen t p.2 = .ok c) z l)
    (hz : ∀ p ∈ z, p.1.isBottom = false ∧ p.2.isBottom = false) :
    Limited t (totalMinimum (z.map Prod.fst)) l := by
  induction h with
  | nil => exact ⟨Nat.le_refl 0, nofun, nofun⟩
  | @cons p c z l hpc _ ih =>
    have hp := hz p List.mem_cons_self
    have hc := Brick.limited_of_widen hpc hp.1 hp.2
    have hl := ih fun q hq => hz q (List.mem_cons_of_mem p hq)
    refine ⟨Nat.add_le_add hc.lo_le hl.minimum_le, ?_, ?_⟩
    · intro b hb
      cases List.mem_cons.1 hb with
      | inl hb => exact hb ▸ hc.variety_le
      | inr hb => exact hl.variety_le b hb
    · intro b hb
      cases List.mem_cons.1 hb with
      | inl hb => exact hb ▸ hc.weight_le
      | inr hb => exact hl.weight_le b hb

/-- The widened bricks of two sequences that stand for something are as many as the longer one has
and are within the limits. -/
theorem limited_of_mapM {l : List Brick}
    (h : ((paired x y).mapM fun (a, b) => a.widen t b) = .ok l) (hx : x.isBottom = false)
    (hy : y.isBottom = false) :
    l.length = max x.length y.length ∧ Limited t (totalMinimum x.bricks) l := by
  have hwidened := mapM_eq_ok_iff.1 h
  have hl := limited_of_forall₂ hwidened fun p hp => not_isBottom_of_mem_paired hx hy hp
  rw [map_fst_paired] at hl
  have hpad : totalMinimum (Alignment.pad x.bricks y.bricks) = totalMinimum x.bricks :=
    Alignment.total_pad rfl x.bricks y.bricks
  have hmin : totalMinimum l ≤ totalMinimum x.bricks := hpad ▸ hl.minimum_le
  exact ⟨hwidened.length_eq.symm.trans (length_paired x y), hmin, hl.variety_le, hl.weight_le⟩

/-! ## The result of a widening -/

/-- Widening two sequences never fails. -/
theorem exists_widen_eq_ok (t : Thresholds) (x y : BrickSeq) : ∃ r, x.widen t y = .ok r := by
  obtain ⟨l, hl⟩ := exists_mapM_eq_ok (fun p : Brick × Brick => Brick.exists_widen_eq_ok t p.1 p.2)
    (paired x y)
  unfold widen
  rw [hl]
  repeat' split
  all_goals exact ⟨_, rfl⟩

/-- How the widening of two sequences comes about. -/
theorem widen_cases (h : x.widen t y = .ok r) :
    (x.isBottom = true ∧ r = y) ∨ (y.le x = true ∧ r = x) ∨ r = top ∨
      ∃ l, x.length ≤ t.length ∧ l.length ≤ t.length ∧ Limited t (totalMinimum x.bricks) l ∧
        r = covering x y (normalized l) := by
  unfold widen at h
  by_cases hx : x.isBottom = true
  · rw [if_pos hx] at h
    cases h
    exact .inl ⟨hx, rfl⟩
  · rw [if_neg hx] at h
    rw [Bool.not_eq_true] at hx
    by_cases hyx : (y.isBottom || x.isTop) = true
    · rw [if_pos hyx] at h
      cases h
      refine .inr (.inl ⟨?_, rfl⟩)
      cases Bool.or_eq_true_iff.1 hyx with
      | inl hy => exact le_of_isBottom hy x
      | inr hx => exact isTop_iff.1 hx ▸ le_top y
    · rw [if_neg hyx] at h
      rw [Bool.not_eq_true, Bool.or_eq_false_iff] at hyx
      split at h
      · next hy =>
        cases h
        exact .inr (.inr (.inl (isTop_iff.1 hy)))
      · split at h
        · cases h
          exact .inr (.inr (.inl rfl))
        · split at h
          · cases h
            exact .inr (.inr (.inl rfl))
          · next hlen =>
            simp only [Bool.or_eq_true, decide_eq_true_eq, not_or, Nat.not_lt] at hlen
            obtain ⟨l, hl⟩ := exists_mapM_eq_ok
              (fun p : Brick × Brick => Brick.exists_widen_eq_ok t p.1 p.2) (paired x y)
            rw [hl] at h
            cases h
            have hlimited := limited_of_mapM hl hx hyx.1
            have hl' : l.length ≤ t.length := hlimited.1 ▸ Nat.max_le.2 hlen
            exact .inr (.inr (.inr ⟨l, hlen.1, hl', hlimited.2, rfl⟩))

/-- How the widening of a sequence that stands for something comes about. -/
theorem widen_cases_of_not_isBottom (h : x.widen t y = .ok r) (hx : x.isBottom = false) :
    (y.le x = true ∧ r = x) ∨ r = top ∨
      ∃ l, x.length ≤ t.length ∧ l.length ≤ t.length ∧ Limited t (totalMinimum x.bricks) l ∧
        r = covering x y (normalized l) := by
  cases widen_cases h with
  | inl hbot =>
    rw [hx] at hbot
    cases hbot.1
  | inr hcases => exact hcases

/-- A widening is above its first operand. -/
theorem le_widen_left (h : x.widen t y = .ok r) : x.le r = true := by
  obtain ⟨hx, -⟩ | ⟨-, rfl⟩ | rfl | ⟨l, -, -, -, rfl⟩ := widen_cases h
  · exact le_of_isBottom hx r
  · exact le_refl r
  · exact le_top x
  · exact le_covering_left x y _

/-- A widening is above its second operand. -/
theorem le_widen_right (h : x.widen t y = .ok r) : y.le r = true := by
  obtain ⟨-, rfl⟩ | ⟨hy, rfl⟩ | rfl | ⟨l, -, -, -, rfl⟩ := widen_cases h
  · exact le_refl r
  · exact hy
  · exact le_top y
  · exact le_covering_right x y _

/-! ## Widening as a function -/

/-- The widening of two sequences. It never fails (`widen_eq_ok`). -/
def widened (t : Thresholds) (x y : BrickSeq) : BrickSeq :=
  match x.widen t y with
  | .ok r => r
  | .error _ => top

/-- The widening of two sequences has no fault. -/
theorem widen_eq_ok (t : Thresholds) (x y : BrickSeq) : x.widen t y = .ok (widened t x y) := by
  obtain ⟨r, hr⟩ := exists_widen_eq_ok t x y
  unfold widened
  rw [hr]

/-- A widening is above its first operand. -/
theorem le_widened_left (t : Thresholds) (x y : BrickSeq) : x.le (widened t x y) = true :=
  le_widen_left (widen_eq_ok t x y)

/-- A widening is above its second operand. -/
theorem le_widened_right (t : Thresholds) (x y : BrickSeq) : y.le (widened t x y) = true :=
  le_widen_right (widen_eq_ok t x y)

/-- The top sequence is widened to itself. -/
theorem widened_top_left (t : Thresholds) (y : BrickSeq) : widened t top y = top := by
  have h : top.widen t y = .ok top := by
    unfold widen
    rw [not_isBottom_top, isTop_top, Bool.or_true]
    rfl
  unfold widened
  rw [h]

end BrickSeq

end StringBricks
