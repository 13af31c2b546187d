import StringBricks.Proofs.BrickSeq.Shape
import StringBricks.Proofs.BrickSeq.Widening
import Mathlib.Data.Set.Finite.List
import Mathlib.Order.Preorder.Finite
import Mathlib.Order.Interval.Finset.Nat
import Mathlib.Order.Interval.Finset.Basic

/-!
# Repeated widening comes to rest

In a run of widenings only finitely many steps go up (`BrickSeq.finite_climbs`). The total minimum
of the sequences never grows, and from the second step that goes up it bounds their weight and the
size of their sets. A step that goes up also needs a sequence within the length limit, so only
finitely many shapes occur there. If one occurred twice, the later sequence would be below the
earlier one, and nothing would have gone up in between.
-/

set_option autoImplicit false

namespace StringBricks

open NormalForm

namespace Brick

/-- The shape of a brick is bounded by its weight and the number of its strings. -/
theorem shape_le {b : Brick} {n : Nat} (hb : b.isBottom = false) (hweight : weight b < n)
    (hvariety : b.content.variety < n) : b.shape ≤ (n, n, n) := by
  have hlo := lo_le_weight hb
  refine ⟨Nat.le_of_lt (Nat.lt_of_le_of_lt hlo hweight), ?_, ?_⟩
  · show b.hi.code ≤ n
    unfold weight at hweight
    cases hhi : b.hi with
    | infinite => exact Nat.zero_le n
    | finite m =>
      rw [hhi] at hweight
      exact hweight
  · show b.content.code ≤ n
    cases hc : b.content with
    | unknown => exact Nat.zero_le n
    | known members =>
      rw [hc] at hvariety
      exact hvariety

end Brick

namespace BrickSeq

variable {t : Thresholds} {least : Nat} {x y r : BrickSeq} {l : List Brick}

/-! ## Bounds on the normal form of widened bricks -/

namespace Limited

/-- The weights of bricks within the limits add up to little more than their minima. -/
theorem totalWeight_le (h : Limited t least l) :
    totalWeight l ≤ least + l.length * t.rangeWidth := by
  have hsum : totalWeight l ≤ totalMinimum l + l.length * t.rangeWidth := by
    have hweight := h.weight_le
    clear h
    induction l with
    | nil => exact Nat.zero_le _
    | cons b l ih =>
      have hb := hweight b List.mem_cons_self
      have hl := ih fun c hc => hweight c (List.mem_cons_of_mem b hc)
      rw [totalWeight_cons, totalMinimum_cons, List.length_cons, Nat.succ_mul]
      omega
  have hmin := h.minimum_le
  omega

/-- There are at most as many choices as for sets of the limit size. -/
theorem volume_le (h : Limited t least l) : volume l ≤ max 1 t.setSize ^ least := by
  have hpower : volume l ≤ max 1 t.setSize ^ totalMinimum l := by
    have hvariety := h.variety_le
    clear h
    induction l with
    | nil => exact Nat.le_refl 1
    | cons b l ih =>
      have hb := hvariety b List.mem_cons_self
      have hl := ih fun c hc => hvariety c (List.mem_cons_of_mem b hc)
      rw [volume_cons, totalMinimum_cons, Nat.pow_add]
      apply Nat.mul_le_mul _ hl
      exact Nat.pow_le_pow_left hb _
  apply Nat.le_trans hpower
  exact Nat.pow_le_pow_right (Nat.le_max_left 1 t.setSize) h.minimum_le

end Limited

/-- No brick of the sequence has more strings, and the whole sequence no more weight, than the
normal form of bricks within the limits can have. -/
structure Confined (t : Thresholds) (least : Nat) (x : BrickSeq) : Prop where
  not_isBottom : x.isBottom = false
  not_isFiller : x.bricks.any Brick.isFiller = false
  minimum_le : totalMinimum x.bricks ≤ least
  weight_le : totalWeight x.bricks ≤ least + t.length * t.rangeWidth
  variety_le : ∀ b ∈ x.bricks, b.content.variety ≤ max 1 t.setSize ^ (least + 1)

/-- A power of a number that is at least one is at least one. -/
theorem one_le_max_pow (t : Thresholds) (n : Nat) : 1 ≤ max 1 t.setSize ^ n :=
  Nat.one_le_pow _ _ (Nat.le_max_left 1 t.setSize)

/-- The top sequence is confined by all limits. -/
theorem confined_top (t : Thresholds) (least : Nat) : Confined t least top := by
  refine ⟨not_isBottom_top, by decide, Nat.zero_le _, Nat.zero_le _, ?_⟩
  intro b hb
  rw [List.mem_singleton.1 hb]
  exact one_le_max_pow t (least + 1)

/-- The literal for the empty string is confined by all limits. -/
theorem confined_literal (t : Thresholds) (hleast : 1 ≤ least) : Confined t least (literal "") := by
  refine ⟨by decide, by decide, hleast, Nat.le_trans hleast (Nat.le_add_right _ _), ?_⟩
  intro b hb
  rw [List.mem_singleton.1 hb]
  exact one_le_max_pow t (least + 1)

/-- What a sequence in normal form can be. -/
theorem normalized_cases (l : List Brick) :
    normalized l = bottom ∨ normalized l = literal "" ∨
      (l.any Brick.isBottom = false ∧ normalized l = ⟨normalize l⟩) := by
  unfold normalized
  by_cases hl : l.any Brick.isBottom = true
  · exact .inl (if_pos hl)
  · rw [if_neg hl]
    rw [Bool.not_eq_true] at hl
    split
    · exact .inr (.inl rfl)
    · exact .inr (.inr ⟨hl, rfl⟩)

/-- The normal form adds nothing to the mandatory repetitions, but for the one that spells the empty
string. -/
theorem totalMinimum_normalized_le (l : List Brick) :
    totalMinimum (normalized l).bricks ≤ max 1 (totalMinimum l) := by
  obtain h | h | ⟨hl, h⟩ := normalized_cases l
  · rw [h]
    exact Nat.zero_le _
  · rw [h]
    exact Nat.le_max_left 1 _
  · rw [h]
    have hrewrites : Rewrites l (normalize l) := rewrites_normalizeWithin maxCycles hl
    exact Nat.le_trans hrewrites.totalMinimum_le (Nat.le_max_right 1 _)

/-- The normal form of bricks within the limits is confined. -/
theorem confined_normalized (h : Limited t least l) (hleast : 1 ≤ least)
    (hlen : l.length ≤ t.length) (hbot : (normalized l).isBottom = false) :
    Confined t least (normalized l) := by
  have hmin : totalMinimum (normalized l).bricks ≤ least :=
    Nat.le_trans (totalMinimum_normalized_le l) (Nat.max_le.2 ⟨hleast, h.minimum_le⟩)
  obtain hnormal | hnormal | ⟨hl, hnormal⟩ := normalized_cases l
  · rw [hnormal] at hbot
    cases hbot
  · rw [hnormal]
    exact confined_literal t hleast
  · have hrewrites : Rewrites l (normalize l) := rewrites_normalizeWithin maxCycles hl
    have hone := one_le_max_pow t least
    rw [hnormal] at hbot hmin ⊢
    refine ⟨hbot, any_isFiller_normalizeWithin maxCycles hl, hmin, ?_, ?_⟩
    · have hmul := Nat.mul_le_mul_right t.rangeWidth hlen
      calc totalWeight (normalize l) ≤ totalWeight l := hrewrites.totalWeight_le hl
        _ ≤ least + l.length * t.rangeWidth := h.totalWeight_le
        _ ≤ least + t.length * t.rangeWidth := Nat.add_le_add_left hmul least
    · have hgrow : max 1 t.setSize ^ least ≤ max 1 t.setSize ^ (least + 1) :=
        Nat.pow_le_pow_right (Nat.le_max_left 1 t.setSize) (Nat.le_succ least)
      refine hrewrites.variety_le hl (Nat.le_trans h.volume_le hgrow) ?_
      intro b hb
      calc b.content.variety ≤ max 1 t.setSize := h.variety_le b hb
        _ ≤ max 1 t.setSize ^ least * max 1 t.setSize := Nat.le_mul_of_pos_left _ hone
        _ = max 1 t.setSize ^ (least + 1) := (Nat.pow_succ ..).symm

/-! ## One widening -/

/-- A covering stands for something if the first sequence does. -/
theorem covering_cases (hx : x.isBottom = false) (c : BrickSeq) :
    covering x y c = top ∨ (covering x y c = c ∧ c.isBottom = false) := by
  unfold covering
  split
  · next hcover =>
    have hle := (Bool.and_eq_true_iff.1 hcover).1
    exact .inr ⟨rfl, not_isBottom_of_le hle hx⟩
  · exact .inl rfl

/-- Widening does not come back to a sequence for no string. -/
theorem not_isBottom_widen (h : x.widen t y = .ok r) (hx : x.isBottom = false) :
    r.isBottom = false :=
  not_isBottom_of_le (le_widen_left h) hx

/-- Widening adds nothing to the mandatory repetitions, but for the one that spells the empty
string. -/
theorem totalMinimum_widen_le (h : x.widen t y = .ok r) (hx : x.isBottom = false)
    (hleast : 1 ≤ least) (hmin : totalMinimum x.bricks ≤ least) :
    totalMinimum r.bricks ≤ least := by
  obtain ⟨-, rfl⟩ | rfl | ⟨l, -, -, hl, rfl⟩ := widen_cases_of_not_isBottom h hx
  · exact hmin
  · exact Nat.zero_le least
  · have hl' := Nat.max_le.2 ⟨hleast, Nat.le_trans hl.minimum_le hmin⟩
    obtain htop | ⟨hcovering, -⟩ := covering_cases (y := y) hx (normalized l)
    · rw [htop]
      exact Nat.zero_le least
    · rw [hcovering]
      apply Nat.le_trans (totalMinimum_normalized_le l)
      exact hl'

/-- A widening that goes up is confined, and one that does not go up is if its first operand is. -/
theorem confined_widen (h : x.widen t y = .ok r) (hx : x.isBottom = false) (hleast : 1 ≤ least)
    (hmin : totalMinimum x.bricks ≤ least) (hup : y.le x = false ∨ Confined t least x) :
    Confined t least r := by
  obtain ⟨hyx, rfl⟩ | rfl | ⟨l, -, hlen, hl, rfl⟩ := widen_cases_of_not_isBottom h hx
  · cases hup with
    | inl hup =>
      rw [hup] at hyx
      cases hyx
    | inr hconfined => exact hconfined
  · exact confined_top t least
  · obtain htop | ⟨hcovering, hbot⟩ := covering_cases (y := y) hx (normalized l)
    · rw [htop]
      exact confined_top t least
    · rw [hcovering]
      have hl' : Limited t least l :=
        ⟨Nat.le_trans hl.minimum_le hmin, hl.variety_le, hl.weight_le⟩
      exact confined_normalized hl' hleast hlen hbot

/-- A widening that goes up ends at the top sequence or starts at one within the length limit. -/
theorem length_le_of_widen (h : x.widen t y = .ok r) (hx : x.isBottom = false)
    (hup : y.le x = false) : r = top ∨ x.length ≤ t.length := by
  obtain ⟨hyx, -⟩ | htop | ⟨l, hlen, -, -, -⟩ := widen_cases_of_not_isBottom h hx
  · rw [hup] at hyx
    cases hyx
  · exact .inl htop
  · exact .inr hlen

/-! ## The shapes of confined sequences -/

/-- A number that no bound and no size in a confined sequence exceeds. -/
def shapeLimit (t : Thresholds) (least : Nat) : Nat :=
  least + t.length * t.rangeWidth + max 1 t.setSize ^ (least + 1) + 1

/-- The shapes of a confined sequence are below one shape. -/
theorem Confined.shape_le (h : Confined t least x) :
    ∀ p ∈ x.bricks.map Brick.shape,
      p ≤ (shapeLimit t least, shapeLimit t least, shapeLimit t least) := by
  intro p hp
  obtain ⟨b, hb, rfl⟩ := List.mem_map.1 hp
  have hbot : b.isBottom = false := not_isBottom_of_mem h.not_isBottom hb
  have hweight := weight_le_totalWeight hb
  have htotal := h.weight_le
  have hvariety := h.variety_le b hb
  apply Brick.shape_le hbot
  · unfold shapeLimit
    omega
  · unfold shapeLimit
    omega

/-- There are finitely many lists of bounded length and with bounded entries. -/
theorem finite_shapes (k n : Nat) :
    {s : List (Nat × Nat × Nat) | s.length ≤ k ∧ ∀ p ∈ s, p ≤ (n, n, n)}.Finite := by
  have hfinite := (List.finite_length_le (Set.Iic (n, n, n)) k).image (List.map Subtype.val)
  apply hfinite.subset
  intro s hs
  refine ⟨s.attach.map fun p => ⟨p.1, hs.2 p.1 p.2⟩, ?_, ?_⟩
  · simpa using hs.1
  · rw [List.map_map]
    exact List.attach_map_subtype_val s

/-! ## Runs of widenings -/

section Runs

variable {x z : Nat → BrickSeq}

/-- A run of widenings only goes up. -/
theorem le_of_run (hrun : ∀ n, (x n).widen t (z n) = .ok (x (n + 1))) {m n : Nat} (hmn : m ≤ n) :
    (x m).le (x n) = true := by
  induction hmn with
  | refl => exact le_refl (x m)
  | step _ ih =>
    apply le_trans ih
    exact le_widen_left (hrun _)

/-- In a run a sequence for some strings is followed by sequences for some strings. -/
theorem not_isBottom_of_run (hrun : ∀ n, (x n).widen t (z n) = .ok (x (n + 1))) {m n : Nat}
    (hmn : m ≤ n) (hm : (x m).isBottom = false) : (x n).isBottom = false := by
  induction hmn with
  | refl => exact hm
  | step _ ih => exact not_isBottom_widen (hrun _) ih

/-- In a run the mandatory repetitions stay within a bound that they have once. -/
theorem totalMinimum_le_of_run (hrun : ∀ n, (x n).widen t (z n) = .ok (x (n + 1))) {m n : Nat}
    (hmn : m ≤ n) (hm : (x m).isBottom = false) (hleast : 1 ≤ least)
    (hmin : totalMinimum (x m).bricks ≤ least) : totalMinimum (x n).bricks ≤ least := by
  induction hmn with
  | refl => exact hmin
  | step hmn ih =>
    apply totalMinimum_widen_le (hrun _) _ hleast ih
    exact not_isBottom_of_run hrun hmn hm

/-- In a run a confined sequence is followed by confined sequences. -/
theorem confined_of_run (hrun : ∀ n, (x n).widen t (z n) = .ok (x (n + 1))) {m n : Nat}
    (hmn : m ≤ n) (hleast : 1 ≤ least) (hm : Confined t least (x m)) :
    Confined t least (x n) := by
  induction hmn with
  | refl => exact hm
  | step hmn ih =>
    exact confined_widen (hrun _) ih.not_isBottom hleast ih.minimum_le (.inr ih)

/-- The steps of a run that go up. -/
def climbs (x z : Nat → BrickSeq) : Set Nat := {n | (z n).le (x n) = false}

/-- A step that goes up leads to a sequence that stands for something. -/
theorem not_isBottom_of_mem_climbs (hrun : ∀ n, (x n).widen t (z n) = .ok (x (n + 1))) {n : Nat}
    (hn : n ∈ climbs x z) : (x (n + 1)).isBottom = false := by
  apply not_isBottom_of_le (le_widen_right (hrun n))
  rw [Bool.eq_false_iff]
  intro hz
  have hup : (z n).le (x n) = false := hn
  rw [le_of_isBottom hz] at hup
  cases hup

/-- Where a run goes up once more later on, it is not at the top sequence. -/
theorem ne_top_of_mem_climbs (hrun : ∀ n, (x n).widen t (z n) = .ok (x (n + 1))) {m n : Nat}
    (hmn : m ≤ n) (hn : n ∈ climbs x z) : x m ≠ top := by
  intro htop
  have hx := le_of_run hrun hmn
  rw [htop] at hx
  have hup : (z n).le (x n) = false := hn
  rw [le_trans (le_top (z n)) hx] at hup
  cases hup

/-- From some step on, a run that keeps going up is confined. -/
theorem exists_confined (hrun : ∀ n, (x n).widen t (z n) = .ok (x (n + 1)))
    (hinf : (climbs x z).Infinite) :
    ∃ least m, ∀ n, m ≤ n → Confined t least (x n) := by
  obtain ⟨m, hm⟩ := hinf.nonempty
  have hbot := not_isBottom_of_mem_climbs hrun hm
  obtain ⟨k, hk, hmk⟩ := hinf.exists_gt m
  have hkbot := not_isBottom_of_run hrun hmk hbot
  have hleast : 1 ≤ max 1 (totalMinimum (x (m + 1)).bricks) := Nat.le_max_left 1 _
  have hmin := totalMinimum_le_of_run hrun hmk hbot hleast (Nat.le_max_right 1 _)
  have hconfined := confined_widen (hrun k) hkbot hleast hmin (.inl hk)
  exact ⟨_, k + 1, fun n hn => confined_of_run hrun hn hleast hconfined⟩

/-- A later sequence of the same shape would be below the earlier one. -/
theorem shape_ne_of_climbs (hrun : ∀ n, (x n).widen t (z n) = .ok (x (n + 1))) {m n : Nat}
    (hm : m ∈ climbs x z) (hmn : m < n) (hconfined : Confined t least (x m)) :
    (x m).bricks.map Brick.shape ≠ (x n).bricks.map Brick.shape := by
  intro hshape
  have hbot := not_isBottom_of_run hrun (Nat.le_of_lt hmn) hconfined.not_isBottom
  have hup := (le_iff_aligned hconfined.not_isBottom hbot).1 (le_of_run hrun (Nat.le_of_lt hmn))
  have hdown := hup.symm_of_shape (any_isBottom_of_not_isBottom hconfined.not_isBottom)
    hconfined.not_isFiller hshape
  have hback : (x n).le (x m) = true := (le_iff_aligned hbot hconfined.not_isBottom).2 hdown
  have hz := le_trans (le_widen_right (hrun m)) (le_trans (le_of_run hrun hmn) hback)
  have hclimbs : (z m).le (x m) = false := hm
  rw [hz] at hclimbs
  cases hclimbs

/-- A run of widenings goes up in finitely many steps only. -/
theorem finite_climbs (hrun : ∀ n, (x n).widen t (z n) = .ok (x (n + 1))) :
    (climbs x z).Finite := by
  by_contra hinf
  obtain ⟨least, m, hconfined⟩ := exists_confined hrun hinf
  have hlate : (climbs x z \ {n | n ≤ m}).Infinite := Set.Infinite.sdiff hinf (Set.finite_le_nat m)
  have hmaps : Set.MapsTo (fun n => (x n).bricks.map Brick.shape) (climbs x z \ {n | n ≤ m})
      {s | s.length ≤ t.length ∧
        ∀ p ∈ s, p ≤ (shapeLimit t least, shapeLimit t least, shapeLimit t least)} := by
    rintro n ⟨hn, hmn⟩
    have hx := hconfined n (Nat.le_of_not_le hmn)
    refine ⟨?_, hx.shape_le⟩
    obtain ⟨k, hk, hnk⟩ := Set.Infinite.exists_gt hinf n
    cases length_le_of_widen (hrun n) hx.not_isBottom hn with
    | inl htop => exact absurd htop (ne_top_of_mem_climbs hrun hnk hk)
    | inr hlen =>
      rw [List.length_map]
      exact hlen
  obtain ⟨i, hi, j, -, hij, hshape⟩ :=
    hlate.exists_lt_map_eq_of_mapsTo hmaps (finite_shapes t.length (shapeLimit t least))
  have hx := hconfined i (Nat.le_of_not_le hi.2)
  exact shape_ne_of_climbs hrun hi.1 hij hx hshape

end Runs

/-- **Widening forces convergence**: it never fails, and there is no infinite run in which each
sequence is widened by one that is not below it. -/
theorem no_endless_widening (t : Thresholds) :
    (∀ x z : BrickSeq, ∃ r, x.widen t z = .ok r) ∧
      ¬ ∃ x z : Nat → BrickSeq,
        ∀ n, (x n).widen t (z n) = .ok (x (n + 1)) ∧ (z n).le (x n) = false := by
  refine ⟨exists_widen_eq_ok t, ?_⟩
  rintro ⟨x, z, hstep⟩
  have hfinite : (climbs x z).Finite := finite_climbs fun n => (hstep n).1
  have hall : climbs x z = Set.univ := by
    ext n
    exact iff_of_true (hstep n).2 trivial
  rw [hall] at hfinite
  exact Set.infinite_univ hfinite

end BrickSeq

end StringBricks
