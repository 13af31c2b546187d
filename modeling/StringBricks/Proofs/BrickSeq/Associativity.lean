import StringBricks.Proofs.NormalForm.Separation
import StringBricks.Proofs.BrickSeq.Normal

/-!
# Associativity of concatenation

How three sequences are grouped makes no difference to the strings of their concatenation. It does
to the normal form: a set that occurs once is merged with the piece before it or added to the range
after it, whichever comes first (`BrickSeq.concat_not_associative`). It makes none where the bricks
are separated (`BrickSeq.concat_associative`), as in sequences of pieces and unknown gaps
(`NormalForm.separated_of_isSingle`).
-/

set_option autoImplicit false

namespace StringBricks

namespace BrickSeq

open NormalForm

variable {x y a b c : BrickSeq} {w : String}

/-- Nothing is concatenated to a sequence for no string. -/
@[simp] theorem bottom_concat (x : BrickSeq) : bottom.concat x = bottom := rfl

/-- Nothing is left of a sequence before one for no string. -/
@[simp] theorem concat_bottom (x : BrickSeq) : x.concat bottom = bottom := by
  unfold concat
  exact if_pos (Bool.or_true _)

/-- Without fillers, the concatenation of sequences with bricks is the normal form of all bricks. -/
theorem concat_eq_normalize (hx : x.isBottom = false) (hy : y.isBottom = false)
    (hfiller : (x.bricks ++ y.bricks).any Brick.isFiller = false) :
    (x.bricks ++ y.bricks).any Brick.isBottom = false ∧
      x.concat y = ⟨normalize (x.bricks ++ y.bricks)⟩ := by
  have hbot : (x.bricks ++ y.bricks).any Brick.isBottom = false := by
    rw [List.any_append, any_isBottom_of_not_isBottom hx, any_isBottom_of_not_isBottom hy]
    rfl
  have hne : x.bricks ++ y.bricks ≠ [] := by
    intro hnil
    rw [isBottom, (List.append_eq_nil_iff.1 hnil).1] at hx
    cases hx
  have hnormal : normalize (x.bricks ++ y.bricks) ≠ [] :=
    (rewrites_normalizeWithin maxCycles hbot).ne_nil hbot hfiller hne
  refine ⟨hbot, ?_⟩
  rw [concat, hx, hy, normalized, hbot]
  simp [hnormal]

/-! ## Strings -/

/-- A concatenation stands for the concatenations of the strings of its parts. -/
theorem denotes_concat_iff (hfit : totalWeight x.bricks + totalWeight y.bricks ≤ Count.cap) :
    (x.concat y).Denotes w ↔ ∃ s t, x.Denotes s ∧ y.Denotes t ∧ w = s ++ t := by
  rw [← totalWeight_append] at hfit
  constructor
  · exact exists_of_denotes_concat hfit
  · rintro ⟨s, t, hs, ht, rfl⟩
    exact denotes_concat hs ht (.inl hfit)

/-- A concatenation of sequences without fillers has none, and weighs no more than both. -/
theorem totalWeight_concat_le (hx : x.bricks.any Brick.isFiller = false)
    (hy : y.bricks.any Brick.isFiller = false) :
    (x.concat y).bricks.any Brick.isFiller = false ∧
      totalWeight (x.concat y).bricks ≤ totalWeight x.bricks + totalWeight y.bricks := by
  by_cases hbot : (x.isBottom || y.isBottom) = true
  · have hconcat : x.concat y = bottom := if_pos hbot
    rw [hconcat]
    exact ⟨rfl, Nat.zero_le _⟩
  · rw [Bool.not_eq_true, Bool.or_eq_false_iff] at hbot
    have hfiller : (x.bricks ++ y.bricks).any Brick.isFiller = false := by
      rw [List.any_append, hx, hy]
      rfl
    obtain ⟨hbricks, hconcat⟩ := concat_eq_normalize hbot.1 hbot.2 hfiller
    have hrules := rewrites_normalizeWithin maxCycles hbricks
    rw [hconcat, ← totalWeight_append]
    exact ⟨hrules.any_isFiller hbricks hfiller, hrules.totalWeight_le hbricks⟩

/-- Both groupings stand for the strings of the three sequences one after the other. -/
theorem denotes_concat_concat_iff (ha : a.bricks.any Brick.isFiller = false)
    (hb : b.bricks.any Brick.isFiller = false) (hc : c.bricks.any Brick.isFiller = false)
    (hfit : totalWeight (a.bricks ++ b.bricks ++ c.bricks) ≤ Count.cap) :
    ((normalized ((a.concat b).concat c).bricks).Denotes w ↔
      ∃ s t u, a.Denotes s ∧ b.Denotes t ∧ c.Denotes u ∧ w = s ++ t ++ u) ∧
    ((normalized (a.concat (b.concat c)).bricks).Denotes w ↔
      ∃ s t u, a.Denotes s ∧ b.Denotes t ∧ c.Denotes u ∧ w = s ++ t ++ u) := by
  obtain ⟨habFiller, habWeight⟩ := totalWeight_concat_le ha hb
  obtain ⟨hbcFiller, hbcWeight⟩ := totalWeight_concat_le hb hc
  have hleftWeight := (totalWeight_concat_le habFiller hc).2
  have hrightWeight := (totalWeight_concat_le ha hbcFiller).2
  rw [totalWeight_append, totalWeight_append] at hfit
  -- no two sequences that are concatenated weigh more than all three
  constructor
  · rw [normalized_eq, denotes_normalizedWithin_iff (by omega)]
    refine (denotes_concat_iff (by omega)).trans ?_
    constructor
    · rintro ⟨v, u, hst, hu, rfl⟩
      obtain ⟨s, t, hs, ht, rfl⟩ := (denotes_concat_iff (by omega)).1 hst
      exact ⟨s, t, u, hs, ht, hu, rfl⟩
    · rintro ⟨s, t, u, hs, ht, hu, rfl⟩
      have hst := (denotes_concat_iff (by omega)).2 ⟨s, t, hs, ht, rfl⟩
      exact ⟨s ++ t, u, hst, hu, rfl⟩
  · rw [normalized_eq, denotes_normalizedWithin_iff (by omega)]
    refine (denotes_concat_iff (by omega)).trans ?_
    constructor
    · rintro ⟨s, v, hs, htu, rfl⟩
      obtain ⟨t, u, ht, hu, rfl⟩ := (denotes_concat_iff (by omega)).1 htu
      exact ⟨s, t, u, hs, ht, hu, (String.append_assoc ..).symm⟩
    · rintro ⟨s, t, u, hs, ht, hu, rfl⟩
      have htu := (denotes_concat_iff (by omega)).2 ⟨t, u, ht, hu, rfl⟩
      exact ⟨s, t ++ u, hs, htu, String.append_assoc ..⟩

/-! ## Normal forms -/

section Segments

open Segment

variable {u v t : List Segment}

/-- The concatenation of two reduced lists of segments glues them together. -/
theorem concat_map_brick (h : Fits (u ++ v)) (hu : Reduced u) (hv : Reduced v) (hune : u ≠ [])
    (hvne : v ≠ []) :
    (⟨u.map brick⟩ : BrickSeq).concat ⟨v.map brick⟩ = ⟨(glue u v).map brick⟩ := by
  have hnonempty : ∀ {l : List Segment}, Fits l → l ≠ [] →
      (⟨l.map brick⟩ : BrickSeq).isBottom = false := by
    intro l hl hne
    rw [isBottom, hl.not_isBottom]
    simpa using hne
  have hbricks : u.map brick ++ v.map brick = (u ++ v).map brick := List.map_append.symm
  have hleft : Fits u := h.of_within ⟨[], v, rfl⟩
  have hright : Fits v := h.of_within ⟨u, [], List.append_nil _⟩
  obtain ⟨-, hconcat⟩ := concat_eq_normalize (hnonempty hleft hune) (hnonempty hright hvne)
    (hbricks ▸ h.not_isFiller)
  rw [hconcat, hbricks, normalize_append h hu hv]

/-- Sequences of segments that fit may be grouped either way. -/
theorem concat_concat_map_brick (h : Fits (u ++ v ++ t)) (hu : Reduced u) (hv : Reduced v)
    (ht : Reduced t) :
    ((⟨u.map brick⟩ : BrickSeq).concat ⟨v.map brick⟩).concat ⟨t.map brick⟩ =
      (⟨u.map brick⟩ : BrickSeq).concat ((⟨v.map brick⟩ : BrickSeq).concat ⟨t.map brick⟩) := by
  have hnil : (⟨[].map brick⟩ : BrickSeq) = bottom := rfl
  by_cases hune : u = []
  · rw [hune, hnil, bottom_concat, bottom_concat, bottom_concat]
  by_cases hvne : v = []
  · rw [hvne, hnil, concat_bottom, bottom_concat, concat_bottom]
  by_cases htne : t = []
  · rw [htne, hnil, concat_bottom, concat_bottom, concat_bottom]
  have huv : Fits (glue u v ++ t) := Fits.glue (l := []) h hu hv
  have hvt : Fits (u ++ glue v t) := by
    simpa using Fits.glue (l := u) (w := []) (by simpa using h) hv ht
  calc ((⟨u.map brick⟩ : BrickSeq).concat ⟨v.map brick⟩).concat ⟨t.map brick⟩
    _ = (⟨(glue u v).map brick⟩ : BrickSeq).concat ⟨t.map brick⟩ := by
      rw [concat_map_brick (h.of_within ⟨[], t, by simp⟩) hu hv hune hvne]
    _ = ⟨(glue (glue u v) t).map brick⟩ :=
      concat_map_brick huv (reduced_glue hu hv) ht (glue_ne_nil hune v) htne
    _ = ⟨(glue u (glue v t)).map brick⟩ := by rw [glue_assoc]
    _ = (⟨u.map brick⟩ : BrickSeq).concat ⟨(glue v t).map brick⟩ :=
      (concat_map_brick hvt hu (reduced_glue hv ht) hune (glue_ne_nil hvne t)).symm
    _ = (⟨u.map brick⟩ : BrickSeq).concat ((⟨v.map brick⟩ : BrickSeq).concat ⟨t.map brick⟩) := by
      rw [concat_map_brick (h.of_within ⟨u, [], by simp⟩) hv ht hvne htne]

end Segments

/-- Separated sequences in normal form may be grouped either way. -/
theorem concat_assoc (ha : a.IsNormal) (hb : b.IsNormal) (hc : c.IsNormal)
    (hfit : totalWeight (a.bricks ++ b.bricks ++ c.bricks) ≤ Count.cap)
    (hsep : Separated (a.bricks ++ b.bricks ++ c.bricks)) :
    (a.concat b).concat c = a.concat (b.concat c) := by
  obtain ⟨habot, hafiller, hastable⟩ := isNormal_iff_stable.1 ha
  obtain ⟨hbbot, hbfiller, hbstable⟩ := isNormal_iff_stable.1 hb
  obtain ⟨hcbot, hcfiller, hcstable⟩ := isNormal_iff_stable.1 hc
  obtain ⟨u, hu, husorted, hau⟩ := Segment.exists_segments habot hafiller hastable
  obtain ⟨v, hv, hvsorted, hbv⟩ := Segment.exists_segments hbbot hbfiller hbstable
  obtain ⟨t, ht, htsorted, hct⟩ := Segment.exists_segments hcbot hcfiller hcstable
  have hmap : (u ++ v ++ t).map Segment.brick = a.bricks ++ b.bricks ++ c.bricks := by
    rw [List.map_append, List.map_append, hau, hbv, hct]
  have hsorted : ∀ p ∈ u ++ v ++ t, p.Sorted := by
    rw [List.forall_mem_append, List.forall_mem_append]
    exact ⟨⟨husorted, hvsorted⟩, htsorted⟩
  have hbot : ((u ++ v ++ t).map Segment.brick).any Brick.isBottom = false := by
    rw [hmap, List.any_append, List.any_append, habot, hbbot, hcbot]
    rfl
  have hfiller : ((u ++ v ++ t).map Segment.brick).any Brick.isFiller = false := by
    rw [hmap, List.any_append, List.any_append, hafiller, hbfiller, hcfiller]
    rfl
  rw [← hmap] at hsep hfit
  have hfits := Segment.fits_of_separated hsep hsorted hbot hfiller hfit
  have hseq : ∀ {x : BrickSeq} {k : List Segment}, k.map Segment.brick = x.bricks →
      x = ⟨k.map Segment.brick⟩ := fun h => BrickSeq.ext h.symm
  rw [hseq hau, hseq hbv, hseq hct]
  exact concat_concat_map_brick hfits hu hv ht

/-- **Concatenation is associative for separated sequences**: if three sequences in normal form
weigh no more than the cap together, both groupings stand for the same strings, namely those of the
three one after the other. If their bricks are separated, both groupings have the same normal form;
where every known set occurs exactly once, as among pieces and unknown gaps, they are. -/
theorem concat_associative (ha : a.IsNormal) (hb : b.IsNormal) (hc : c.IsNormal)
    (hfit : totalWeight (a.bricks ++ b.bricks ++ c.bricks) ≤ Count.cap) :
    (∀ w,
      ((normalized ((a.concat b).concat c).bricks).Denotes w ↔
        ∃ s t u, a.Denotes s ∧ b.Denotes t ∧ c.Denotes u ∧ w = s ++ t ++ u) ∧
      ((normalized (a.concat (b.concat c)).bricks).Denotes w ↔
        ∃ s t u, a.Denotes s ∧ b.Denotes t ∧ c.Denotes u ∧ w = s ++ t ++ u)) ∧
    (Separated (a.bricks ++ b.bricks ++ c.bricks) →
      normalized ((a.concat b).concat c).bricks = normalized (a.concat (b.concat c)).bricks) ∧
    ((∀ d ∈ a.bricks ++ b.bricks ++ c.bricks, ∀ s, d.content = .known s → d.isSingle = true) →
      Separated (a.bricks ++ b.bricks ++ c.bricks)) := by
  have hfiller : ∀ {x : BrickSeq}, x.IsNormal → x.bricks.any Brick.isFiller = false :=
    fun hx => (isNormal_iff_stable.1 hx).2.1
  refine ⟨?_, ?_, separated_of_isSingle⟩
  · intro w
    exact denotes_concat_concat_iff (hfiller ha) (hfiller hb) (hfiller hc) hfit
  · intro hsep
    rw [concat_assoc ha hb hc hfit hsep]

/-- The piece beside the ranges over `d` is another set, and one `d` is mandatory. -/
theorem separated_gaps : Separated [.literal "x", .any 1 2, .any 0 .infinite, .of ["d"] 0 1,
    .of ["d"] 1 3, .literal "y"] := by
  constructor
  case isSingle =>
    intro k s d hwithin hproduct hd
    cases hproduct with
    | single s =>
      simp +decide [List.infix_cons_iff, List.prefix_cons_iff, Brick.literal, Brick.any, Brick.of]
        at hwithin
      obtain ⟨-, rfl⟩ | ⟨rfl, rfl⟩ := hwithin
      · cases hd
      · exact absurd hd (by decide)
    | cons s h =>
      cases h <;> simp +decide [List.infix_cons_iff, List.prefix_cons_iff, Brick.literal, Brick.any,
        Brick.of] at hwithin
  case totalMinimum_le =>
    intro k s hwithin hk
    have hall : ∀ t ∈ List.tails [.literal "x", .any 1 2, .any 0 .infinite, .of ["d"] 0 1,
        .of ["d"] 1 3, .literal "y"], ∀ k ∈ t.inits,
        (∀ d ∈ k, d.content ≠ .unknown ∧ d.isSingle = false) → totalMinimum k ≤ 1 := by decide
    obtain ⟨t, hinit, htail⟩ := List.infix_iff_prefix_suffix.1 hwithin
    apply hall t ((List.mem_tails _ _).2 htail) k ((List.mem_inits _ _).2 hinit)
    intro d hd
    simp [hk d hd]

/-- Two gaps that meet, and an optional and a mandatory range over one set. -/
theorem concat_associative_gaps :
    (⟨[.literal "x", .any 1 2]⟩ : BrickSeq).IsNormal ∧
    (⟨[.any 0 .infinite, .of ["d"] 0 1]⟩ : BrickSeq).IsNormal ∧
    (⟨[.of ["d"] 1 3, .literal "y"]⟩ : BrickSeq).IsNormal ∧
    totalWeight ([.literal "x", .any 1 2] ++ [.any 0 .infinite, .of ["d"] 0 1] ++
      [.of ["d"] 1 3, .literal "y"]) ≤ Count.cap ∧
    normalized (((⟨[.literal "x", .any 1 2]⟩ : BrickSeq).concat
        ⟨[.any 0 .infinite, .of ["d"] 0 1]⟩).concat ⟨[.of ["d"] 1 3, .literal "y"]⟩).bricks =
      normalized ((⟨[.literal "x", .any 1 2]⟩ : BrickSeq).concat
        ((⟨[.any 0 .infinite, .of ["d"] 0 1]⟩ : BrickSeq).concat
          ⟨[.of ["d"] 1 3, .literal "y"]⟩)).bricks := by
  have ha : (⟨[.literal "x", .any 1 2]⟩ : BrickSeq).IsNormal := isNormal_iff_stable.2 (by decide)
  have hb : (⟨[.any 0 .infinite, .of ["d"] 0 1]⟩ : BrickSeq).IsNormal :=
    isNormal_iff_stable.2 (by decide)
  have hc : (⟨[.of ["d"] 1 3, .literal "y"]⟩ : BrickSeq).IsNormal :=
    isNormal_iff_stable.2 (by decide)
  have hfit : totalWeight ([.literal "x", .any 1 2] ++ [.any 0 .infinite, .of ["d"] 0 1] ++
      [.of ["d"] 1 3, .literal "y"]) ≤ Count.cap := by decide
  exact ⟨ha, hb, hc, hfit, (concat_associative ha hb hc hfit).2.1 separated_gaps⟩

/-- The piece `a` is merged with the piece `x` before it in one grouping and with the optional `a`
after it in the other. -/
theorem concat_not_associative : ¬ ∀ l m n : List Brick,
    normalized (((normalized l).concat (normalized m)).concat (normalized n)).bricks =
      normalized ((normalized l).concat ((normalized m).concat (normalized n))).bricks := by
  intro h
  exact absurd (h [.literal "x"] [.literal "a"] [.of ["a"] 0 1]) (by decide)

/-- A sum of gaps that reaches the cap depends on the grouping as well. -/
example : ((ofBrick (.any 1 1)).concat (ofBrick (.any 1 1))).concat
      (ofBrick (.any 0 (.finite (.ofNat Count.cap)))) ≠
    (ofBrick (.any 1 1)).concat
      ((ofBrick (.any 1 1)).concat (ofBrick (.any 0 (.finite (.ofNat Count.cap))))) := by
  decide

end BrickSeq

end StringBricks
