import StringBricks.Proofs.NormalForm.Rounds
import StringBricks.Proofs.BrickSeq.Slice
import StringBricks.Proofs.BrickSeq.Widening

/-!
# Sequences in normal form

A sequence is in normal form exactly if its bricks stand for something, are no fillers and are
stable (`BrickSeq.isNormal_iff_stable`). Concatenation, join and widening of sequences in normal
form are in normal form again, as long as the cycles of the rules do not run out, which takes
mandatory strings of an astronomic length. A substring is not brought to normal form; it only is in
normal form where the slices of the first brick differ from the content of the brick that follows
(`BrickSeq.results_normal`).
-/

set_option autoImplicit false

namespace StringBricks

namespace BrickSeq

open NormalForm

variable {x y : BrickSeq} {l : List Brick}

/-! ## When a sequence is in normal form -/

/-- A sequence is in normal form exactly if its bricks are. -/
theorem isNormal_iff : x.IsNormal ↔
    x.bricks.any Brick.isBottom = false ∧ normalize x.bricks = x.bricks := by
  obtain ⟨l⟩ := x
  show normalized l = ⟨l⟩ ↔ l.any Brick.isBottom = false ∧ normalize l = l
  unfold normalized
  by_cases hbot : l.any Brick.isBottom = true
  · rw [if_pos hbot, hbot]
    refine iff_of_false ?_ (fun h => Bool.noConfusion h.1)
    intro h
    have hnil : [] = l := congrArg bricks h
    rw [← hnil] at hbot
    cases hbot
  · rw [if_neg hbot, and_iff_right (Bool.not_eq_true _ ▸ hbot)]
    by_cases hempty : ((normalize l).isEmpty && !l.isEmpty) = true
    · rw [if_pos hempty]
      rw [Bool.and_eq_true, List.isEmpty_iff, Bool.not_eq_true', List.isEmpty_eq_false_iff]
        at hempty
      refine iff_of_false ?_ (fun h => hempty.2 (h.symm.trans hempty.1))
      intro h
      have hliteral : [Brick.literal ""] = l := congrArg bricks h
      rw [← hliteral] at hempty
      exact absurd hempty.1 (by decide)
    · rw [if_neg hempty]
      exact ⟨congrArg bricks, fun h => congrArg BrickSeq.mk h⟩

/-- A sequence is in normal form exactly if its bricks stand for something, are no fillers and are
left as they are by a cycle. -/
theorem isNormal_iff_stable : x.IsNormal ↔
    x.bricks.any Brick.isBottom = false ∧ x.bricks.any Brick.isFiller = false ∧
      Stable x.bricks := by
  rw [isNormal_iff]
  refine and_congr_right fun hbot => ?_
  constructor
  · intro h
    have hfiller : x.bricks.any Brick.isFiller = false :=
      h ▸ any_isFiller_normalizeWithin maxCycles hbot
    have hsettle : settle maxCycles x.bricks = x.bricks := by
      rw [normalize, normalizeWithin_eq_settle maxCycles hbot,
        dropFillers_of_any_isFiller hfiller] at h
      exact h
    exact ⟨hfiller, stable_of_settle_eq hbot hsettle⟩
  · rintro ⟨hfiller, hstable⟩
    exact normalizeWithin_of_stable maxCycles hbot hfiller hstable

/-- The bottom sequence is in normal form. -/
theorem isNormal_bottom : bottom.IsNormal := rfl

/-- Literals are in normal form. -/
theorem isNormal_literal (s : String) : (literal s).IsNormal :=
  isNormal_iff_stable.2 ⟨rfl, rfl, rfl⟩

/-- The top sequence is in normal form. -/
theorem isNormal_top : top.IsNormal := isNormal_iff_stable.2 ⟨by decide, by decide, by decide⟩

/-- The normal form of a list that settles is its own normal form. -/
theorem isNormal_normalized (h : SettlesWithin (maxCycles + 1) l) : (normalized l).IsNormal := by
  unfold normalized
  by_cases hbot : l.any Brick.isBottom = true
  · rw [if_pos hbot]
    exact isNormal_bottom
  · rw [if_neg hbot]
    rw [Bool.not_eq_true] at hbot
    split
    · exact isNormal_literal ""
    · refine isNormal_iff_stable.2 ⟨?_, ?_, stable_normalizeWithin hbot h⟩
      · exact (rewrites_normalizeWithin maxCycles hbot).any_isBottom hbot
      · exact any_isFiller_normalizeWithin maxCycles hbot

/-! ## Slices -/

/-- With other members for its first brick, a stable list stays stable unless the brick that follows
has the same ones. -/
theorem stable_cons_once_iff {s t : StringSet} {rest : List Brick}
    (hs : (⟨.known s, 1, 1⟩ :: rest).any Brick.isBottom = false)
    (ht : (⟨.known t, 1, 1⟩ :: rest).any Brick.isBottom = false)
    (h : Stable (⟨.known s, 1, 1⟩ :: rest)) :
    Stable (⟨.known t, 1, 1⟩ :: rest) ↔
      ∀ b c l, ⟨.known t, 1, 1⟩ :: rest = b :: c :: l → b.content ≠ c.content := by
  rw [stable_iff hs, hasMergeableNeighbors_eq_false_iff, List.forall_mem_cons] at h
  obtain ⟨⟨hone, hlo⟩, hneighbors⟩ := h
  rw [stable_iff ht, hasMergeableNeighbors_eq_false_iff, List.forall_mem_cons,
    and_iff_right ⟨hone, hlo⟩]
  cases rest with
  | nil => exact iff_of_true (List.isChain_singleton _) nofun
  | cons c rest =>
    obtain ⟨⟨-, hnone⟩, hrest⟩ := List.isChain_cons_cons.1 hneighbors
    have hnone' : mergeSingle? ⟨.known t, 1, 1⟩ c = none := by
      rw [mergeSingle?_eq_none_iff] at hnone ⊢
      rintro ⟨-, u, -, hc⟩
      exact hnone ⟨s, u, rfl, hc⟩
    rw [List.isChain_cons_cons, and_iff_left hrest, and_iff_left hnone']
    constructor
    · rintro hne b c' l ⟨⟩
      exact hne
    · intro hne
      exact hne _ c rest rfl

/-- The substring of a sequence in normal form is in normal form, unless the slices of its first
brick are the content of the brick that follows. -/
theorem isNormal_substring_iff (hx : x.IsNormal) (first past : Nat) :
    (x.substring first past).IsNormal ↔
      ∀ b c rest, (x.substring first past).bricks = b :: c :: rest → b.content ≠ c.content := by
  by_cases hbot : x.isBottom = true
  · have hsub : x.substring first past = bottom := if_pos hbot
    rw [hsub]
    exact iff_of_true isNormal_bottom nofun
  · rw [Bool.not_eq_true] at hbot
    obtain htop | ⟨members, rest, hnormal, -, -, hsub⟩ := substring_cases hbot first past
    · rw [htop]
      exact iff_of_true isNormal_top nofun
    · rw [(isNormal_iff.1 hx).2] at hnormal
      obtain ⟨hbricks, hfiller, hstable⟩ := isNormal_iff_stable.1 hx
      rw [hnormal] at hbricks hfiller hstable
      obtain ⟨hhead, hrest⟩ := Bool.or_eq_false_iff.1 (List.any_cons ▸ hbricks)
      have hmembers : members ≠ .empty := by simpa using Brick.not_isBottom_once.1 hhead
      -- the slices are a set that occurs once, as the members were
      have hslices : (⟨.known (members.map (Text.slice · first past)), 1, 1⟩ :: rest).any
          Brick.isBottom = false := by
        rw [List.any_cons, hrest, Brick.not_isBottom_once.2]
        · rfl
        · simpa using StringSet.map_ne_empty hmembers _
      have hfiller' : (⟨.known (members.map (Text.slice · first past)), 1, 1⟩ :: rest).any
          Brick.isFiller = false := by
        rw [List.any_cons, Brick.not_isFiller_of_hi Bound.one_ne_zero]
        exact (Bool.or_eq_false_iff.1 (List.any_cons ▸ hfiller)).2
      rw [hsub, isNormal_iff_stable, and_iff_right hslices, and_iff_right hfiller']
      exact stable_cons_once_iff hbricks hslices hstable

end BrickSeq

/-! ## How long results can be -/

/-- The smaller of two numbers times the larger of two others is at most what the pairs make up. -/
theorem min_mul_max_le (k l m n : Nat) : min k l * max m n ≤ k * m + l * n := by
  by_cases hmn : m ≤ n
  · rw [Nat.max_eq_right hmn]
    exact Nat.le_trans (Nat.mul_le_mul_right n (Nat.min_le_right k l)) (Nat.le_add_left _ _)
  · rw [Nat.max_eq_left (Nat.le_of_not_le hmn)]
    exact Nat.le_trans (Nat.mul_le_mul_right m (Nat.min_le_left k l)) (Nat.le_add_right _ _)

namespace Brick

variable {t : Thresholds} {a b c : Brick}

/-- The hull of two bricks need not be longer than both. -/
theorem mandatoryLength_hull_le (a b : Brick) :
    (a.hull b).mandatoryLength ≤ a.mandatoryLength + b.mandatoryLength := by
  unfold mandatoryLength hull
  rw [Count.toNat_min]
  exact Nat.le_trans (Nat.mul_le_mul_left _ (Content.extent_join_le _ _)) (min_mul_max_le _ _ _ _)

/-- A join of bricks must spell no more than both of them. -/
theorem mandatoryLength_join_le (a b : Brick) :
    (a.join b).mandatoryLength ≤ a.mandatoryLength + b.mandatoryLength := by
  unfold join
  split
  · exact Nat.le_add_left _ _
  · split
    · exact Nat.le_add_right _ _
    · exact mandatoryLength_hull_le a b

/-- Cutting off leaves a brick as it is or makes all its repetitions optional. -/
theorem mandatoryLength_cutOff_le (t : Thresholds) (b : Brick) :
    (b.cutOff t).mandatoryLength ≤ b.mandatoryLength := by
  obtain ⟨hcut, -⟩ | ⟨members, -, -, ⟨-, hcut⟩ | ⟨-, hcut⟩⟩ := cutOff_cases t b
  · simp [hcut, mandatoryLength, top, any]
  · simp [hcut, mandatoryLength]
  · rw [hcut]

/-- A widening of bricks must spell no more than both of them. -/
theorem mandatoryLength_widen_le (h : a.widen t b = .ok c) :
    c.mandatoryLength ≤ a.mandatoryLength + b.mandatoryLength := by
  obtain ⟨-, hwiden⟩ | ⟨-, hwiden⟩ | ⟨-, -, hwiden⟩ := widen_cases t a b
  · cases hwiden.symm.trans h
    exact Nat.le_add_left _ _
  · cases hwiden.symm.trans h
    exact Nat.le_add_right _ _
  · cases hwiden.symm.trans h
    exact Nat.le_trans (mandatoryLength_cutOff_le t _) (mandatoryLength_hull_le a b)

end Brick

namespace BrickSeq

open NormalForm

variable {x y : BrickSeq} {l : List Brick}

/-- Bricks made of pairs, each not longer than its pair, are not longer than both sequences. -/
theorem mandatoryLength_of_paired
    (h : List.Forall₂ (fun p c => c.mandatoryLength ≤ p.1.mandatoryLength + p.2.mandatoryLength)
      (paired x y) l) : mandatoryLength l ≤ mandatoryLength x.bricks + mandatoryLength y.bricks := by
  have hparts : ∀ {z : List (Brick × Brick)} {l : List Brick}, List.Forall₂ (fun p c =>
      c.mandatoryLength ≤ p.1.mandatoryLength + p.2.mandatoryLength) z l →
      mandatoryLength l ≤ mandatoryLength (z.map Prod.fst) + mandatoryLength (z.map Prod.snd) := by
    intro z l h
    induction h with
    | nil => exact Nat.le_refl 0
    | cons hpc _ ih =>
      simp only [List.map_cons, mandatoryLength_cons]
      omega
  have hle := hparts h
  rw [map_fst_paired, map_snd_paired] at hle
  have hfiller : Brick.mandatoryLength .filler = 0 := rfl
  have hleft := Alignment.total_pad hfiller x.bricks y.bricks
  have hright := Alignment.total_pad hfiller y.bricks x.bricks
  exact Nat.le_trans hle (Nat.add_le_add hleft.le hright.le)

/-- Bricks that are joined in pairs must spell no more than both sequences. -/
theorem mandatoryLength_join_le (x y : BrickSeq) :
    mandatoryLength ((paired x y).map fun (a, b) => a.join b) ≤
      mandatoryLength x.bricks + mandatoryLength y.bricks := by
  apply mandatoryLength_of_paired
  rw [List.forall₂_map_right_iff, List.forall₂_same]
  exact fun p _ => Brick.mandatoryLength_join_le p.1 p.2

/-- Bricks that are widened in pairs must spell no more than both sequences. -/
theorem exists_widened_bricks (t : Thresholds) (x y : BrickSeq) :
    ∃ l, ((paired x y).mapM fun (a, b) => a.widen t b) = .ok l ∧
      mandatoryLength l ≤ mandatoryLength x.bricks + mandatoryLength y.bricks := by
  obtain ⟨l, hl⟩ := exists_mapM_eq_ok (fun p : Brick × Brick => Brick.exists_widen_eq_ok t p.1 p.2)
    (paired x y)
  refine ⟨l, hl, mandatoryLength_of_paired ?_⟩
  exact (mapM_eq_ok_iff.1 hl).imp fun p c hpc => Brick.mandatoryLength_widen_le hpc

/-! ## Concatenation, join and widening -/

/-- The normal form of bricks that need not be longer than `2 ^ 256` characters is its own. -/
theorem isNormal_normalized_of_lt (h : mandatoryLength l < 2 ^ 256) : (normalized l).IsNormal :=
  isNormal_normalized ((settlesWithin_maxCycles h).mono (Nat.le_succ _))

/-- A candidate in normal form leads to a sequence in normal form, itself or the top one. -/
theorem isNormal_covering {c : BrickSeq} (hc : c.IsNormal) : (covering x y c).IsNormal := by
  unfold covering
  split
  · exact hc
  · exact isNormal_top

/-- Concatenations that need not spell too much are in normal form. -/
theorem isNormal_concat (h : mandatoryLength x.bricks + mandatoryLength y.bricks < 2 ^ 256) :
    (x.concat y).IsNormal := by
  unfold concat
  split
  · exact isNormal_bottom
  · rw [← mandatoryLength_append] at h
    exact isNormal_normalized_of_lt h

/-- Joins that need not spell too much are in normal form. -/
theorem isNormal_join (hx : x.IsNormal) (hy : y.IsNormal)
    (h : mandatoryLength x.bricks + mandatoryLength y.bricks < 2 ^ 256) : (x.join y).IsNormal := by
  have hlt := Nat.lt_of_le_of_lt (mandatoryLength_join_le x y) h
  unfold join
  split
  · exact hy
  · split
    · exact hx
    · split
      · exact isNormal_top
      · exact isNormal_covering (isNormal_normalized_of_lt hlt)

/-- Widenings that need not spell too much are in normal form. -/
theorem isNormal_widen {t : Thresholds} {r : BrickSeq} (hx : x.IsNormal) (hy : y.IsNormal)
    (h : mandatoryLength x.bricks + mandatoryLength y.bricks < 2 ^ 256)
    (hr : x.widen t y = .ok r) : r.IsNormal := by
  obtain ⟨l, hl, hlength⟩ := exists_widened_bricks t x y
  have hlt := Nat.lt_of_le_of_lt hlength h
  unfold widen at hr
  rw [hl] at hr
  split at hr
  · cases hr
    exact hy
  · split at hr
    · cases hr
      exact hx
    · split at hr
      · cases hr
        exact hy
      · split at hr
        · cases hr
          exact isNormal_top
        · split at hr
          · cases hr
            exact isNormal_top
          · cases hr
            exact isNormal_covering (isNormal_normalized_of_lt hlt)

/-- **Results are in normal form, apart from substrings**: the concatenation, join and widening of
sequences in normal form are in normal form, if the mandatory strings of both have fewer than
`2 ^ 256` characters together. A substring of a sequence in normal form is in normal form exactly if
its first brick and the one that follows differ in content. -/
theorem results_normal (hx : x.IsNormal) (hy : y.IsNormal)
    (hfit : mandatoryLength x.bricks + mandatoryLength y.bricks < 2 ^ 256) (t : Thresholds)
    (first past : Nat) :
    (x.concat y).IsNormal ∧ (x.join y).IsNormal ∧ (∃ r, x.widen t y = .ok r ∧ r.IsNormal) ∧
    ((x.substring first past).IsNormal ↔
      ∀ b c rest, (x.substring first past).bricks = b :: c :: rest → b.content ≠ c.content) := by
  obtain ⟨r, hr⟩ := exists_widen_eq_ok t x y
  exact ⟨isNormal_concat hfit, isNormal_join hx hy hfit, ⟨r, hr, isNormal_widen hx hy hfit hr⟩,
    isNormal_substring_iff hx first past⟩

/-- A slice that differs from the content of the brick that follows. -/
theorem results_normal_slice :
    (⟨[.literal "ab", .of ["a"] 0 1]⟩ : BrickSeq).IsNormal ∧
    mandatoryLength [.literal "ab", .of ["a"] 0 1] + mandatoryLength [.literal "ab", .of ["a"] 0 1] <
      2 ^ 256 ∧
    ((⟨[.literal "ab", .of ["a"] 0 1]⟩ : BrickSeq).concat
      ⟨[.literal "ab", .of ["a"] 0 1]⟩).IsNormal ∧
    ((⟨[.literal "ab", .of ["a"] 0 1]⟩ : BrickSeq).substring 1 2).IsNormal := by
  have hx : (⟨[.literal "ab", .of ["a"] 0 1]⟩ : BrickSeq).IsNormal :=
    isNormal_iff_stable.2 (by decide)
  have hfit : mandatoryLength [.literal "ab", .of ["a"] 0 1] +
      mandatoryLength [.literal "ab", .of ["a"] 0 1] < 2 ^ 256 := by decide
  have hslice : (⟨[.literal "ab", .of ["a"] 0 1]⟩ : BrickSeq).substring 1 2 =
      ⟨[.literal "b", .of ["a"] 0 1]⟩ := by decide
  have hresults := results_normal hx hx hfit ⟨0, 0, 0⟩ 1 2
  refine ⟨hx, hfit, hresults.1, hresults.2.2.2.2 ?_⟩
  rw [hslice]
  rintro b c rest ⟨⟩
  decide

/-- The slice of `ab` is the content of the optional brick that follows it. -/
theorem substring_not_normal :
    (⟨[.literal "ab", .of ["a"] 0 1]⟩ : BrickSeq).IsNormal ∧
    ¬ ((⟨[.literal "ab", .of ["a"] 0 1]⟩ : BrickSeq).substring 0 1).IsNormal := by
  refine ⟨isNormal_iff_stable.2 (by decide), ?_⟩
  have hsub : (⟨[.literal "ab", .of ["a"] 0 1]⟩ : BrickSeq).substring 0 1 =
      ⟨[.literal "a", .of ["a"] 0 1]⟩ := by decide
  rw [hsub, isNormal_iff_stable]
  decide

end BrickSeq

end StringBricks
