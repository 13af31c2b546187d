import StringBricks.Proofs.Brick.Meet
import StringBricks.Proofs.BrickSeq.Language
import StringBricks.Proofs.BrickSeq.Order
import StringBricks.Proofs.BrickSeq.Padding

/-!
# The meet of sequences

The meet sets padded sequences against each other brick by brick, and padding is greedy: it does not
look for the alignment that the order finds, nor for the cut of a string that both sequences allow.
So a meet is below its first operand if the bricks of the second are below those that they face
(`BrickSeq.meet_le_left`), and not always if the second is below the first. It has a common string
if the facing bricks can build it together piece by piece (`BrickSeq.denotes_meet_iff_pieces`), and
it loses every other one.
-/

set_option autoImplicit false

namespace StringBricks

namespace Alignment

/-- Fillers that were put in can be dropped again. -/
theorem Filled.aligned {n : Nat} {mine l : List Brick} (h : Filled n mine l) : Aligned l mine := by
  induction h with
  | nil => exact .nil
  | keep b _ ih => exact .pair (Brick.le_refl b) ih
  | fill _ ih => exact .drop (Brick.le_refl _) ih

/-- A padded list is aligned below the list itself: the fillers may be left out. -/
theorem aligned_pad (mine theirs : List Brick) : Aligned (pad mine theirs) mine :=
  (filled_pad mine theirs).aligned

/-- Bricks that are met with bricks below them can be placed on themselves. -/
theorem aligned_map_meet {l : List (Brick × Brick)} (h : ∀ p ∈ l, p.2.le p.1 = true) :
    Aligned (l.map fun (a, b) => a.meet b) (l.map Prod.fst) := by
  induction l with
  | nil => exact .nil
  | cons p l ih =>
    have hp := Brick.meet_le_left (h p List.mem_cons_self)
    exact .pair hp (ih fun q hq => h q (List.mem_cons_of_mem p hq))

end Alignment

/-- Whether `w` can be cut into one piece for each pair of bricks, in order, so that `R` holds of
each pair and its piece. -/
def Pieces (R : Brick → Brick → String → Prop) : List (Brick × Brick) → String → Prop
  | [], w => w = ""
  | p :: l, w => ∃ s t, R p.1 p.2 s ∧ Pieces R l t ∧ w = s ++ t

/-- Pieces that are related are related by every relation that holds more often. -/
theorem Pieces.mono {R R' : Brick → Brick → String → Prop} (hR : ∀ a b s, R a b s → R' a b s)
    {l : List (Brick × Brick)} {w : String} (h : Pieces R l w) : Pieces R' l w := by
  induction l generalizing w with
  | nil => exact h
  | cons p l ih =>
    obtain ⟨s, t, hs, ht, heq⟩ := h
    exact ⟨s, t, hR p.1 p.2 s hs, ih ht, heq⟩

/-- Meets of bricks, one after the other, stand for what the pairs build together. -/
theorem concatenates_map_meet_iff {l : List (Brick × Brick)}
    (hl : ∀ p ∈ l, p.1.isBottom = false ∧ p.2.isBottom = false) {w : String} :
    Concatenates (l.map fun (a, b) => a.meet b) w ↔ Pieces Brick.BuildsWith l w := by
  induction l generalizing w with
  | nil => exact Iff.rfl
  | cons p l ih =>
    have hp := hl p List.mem_cons_self
    have hrest := fun t => ih (fun q hq => hl q (List.mem_cons_of_mem p hq)) (w := t)
    simp only [List.map_cons, Concatenates, Pieces, Brick.denotes_meet_iff hp.1 hp.2, hrest]

namespace BrickSeq

variable {x y : BrickSeq} {w : String}

/-- Met with a sequence for no string, a sequence leaves the bottom one. -/
theorem meet_of_isBottom (h : x.isBottom = true ∨ y.isBottom = true) : x.meet y = bottom := by
  unfold meet
  rw [if_pos (Bool.or_eq_true_iff.2 h)]

/-- Met with a sequence for no string, a sequence leaves no string. -/
theorem isBottom_meet (h : x.isBottom = true ∨ y.isBottom = true) : (x.meet y).isBottom = true := by
  rw [meet_of_isBottom h]
  exact isBottom_bottom

/-- The top sequence takes nothing away from the one that it is met with. -/
theorem meet_top_left (y : BrickSeq) : top.meet y = if y.isBottom then bottom else y := by
  unfold meet
  rw [not_isBottom_top, isTop_top, Bool.false_or, if_pos rfl]

/-- The top sequence takes nothing away from the one before it. -/
theorem meet_top_right (x : BrickSeq) : x.meet top = if x.isBottom then bottom else x := by
  unfold meet
  rw [not_isBottom_top, isTop_top, Bool.or_false, if_pos rfl]
  split
  · rfl
  · split
    · next htop => exact (isTop_iff.1 htop).symm
    · rfl

/-- The meet of two sequences that stand for something, but not for everything. -/
theorem meet_eq (hx : x.isBottom = false) (hy : y.isBottom = false) (hxtop : x ≠ top)
    (hytop : y ≠ top) : x.meet y = ⟨(paired x y).map fun (a, b) => a.meet b⟩ := by
  unfold meet
  rw [hx, hy, if_neg (by decide), if_neg (mt isTop_iff.1 hxtop), if_neg (mt isTop_iff.1 hytop)]

/-- Met with itself, a sequence that stands for something is the same. -/
theorem meet_self (hx : x.isBottom = false) : x.meet x = x := by
  by_cases htop : x = top
  · rw [htop, meet_top_left]
    rfl
  · have hbricks : ∀ b ∈ x.bricks, b.meet b = b := by
      intro b hb
      exact Brick.meet_self (not_isBottom_of_mem hx hb)
    have hpaired : (paired x x).map (fun (a, b) => a.meet b) = x.bricks := by
      have hmap : x.bricks.map (fun b => b.meet b) = x.bricks := by
        simpa using List.map_congr_left hbricks
      simpa [paired, Alignment.pad, List.map_zip_eq_zipWith, List.zipWith_self] using hmap
    rw [meet_eq hx hx htop htop, hpaired]

/-! ## The order -/

/-- Whether padding sets each brick of `y` against one of `x` that is above it. This is nothing to
ask if the meet has no bricks to pair. -/
def FacesBelow (x y : BrickSeq) : Prop :=
  y.isBottom = true ∨ x.isTop = true ∨ ∀ p ∈ paired x y, p.2.le p.1 = true

/-- Whether the bricks of two sequences face bricks above them is decided pair by pair. -/
instance (x y : BrickSeq) : Decidable (x.FacesBelow y) :=
  inferInstanceAs (Decidable (_ ∨ _ ∨ _))

/-- Met with bricks below those that they face, a sequence is below itself again. -/
theorem meet_le_left (h : x.FacesBelow y) : (x.meet y).le x = true := by
  by_cases hbot : x.isBottom = true ∨ y.isBottom = true
  · rw [meet_of_isBottom hbot]
    exact le_of_isBottom isBottom_bottom x
  · rw [not_or, Bool.not_eq_true, Bool.not_eq_true] at hbot
    obtain ⟨hx, hy⟩ := hbot
    by_cases hxtop : x = top
    · rw [hxtop]
      exact le_top _
    · by_cases hytop : y = top
      · rw [hytop, meet_top_right, hx]
        exact le_refl x
      · have hbelow : ∀ p ∈ paired x y, p.2.le p.1 = true := by
          rcases h with hbot | htop | hbelow
          · rw [hy] at hbot
            cases hbot
          · exact absurd (isTop_iff.1 htop) hxtop
          · exact hbelow
        have hmeet := Alignment.aligned_map_meet hbelow
        rw [map_fst_paired] at hmeet
        rw [meet_eq hx hy hxtop hytop]
        exact le_iff.2 (.inr (.inr ⟨hx, hmeet.trans (Alignment.aligned_pad _ _)⟩))

/-! ## Common strings -/

/-- A meet has the strings that the facing bricks build together. -/
theorem denotes_meet_iff (hx : x.isBottom = false) (hy : y.isBottom = false) (hxtop : x ≠ top)
    (hytop : y ≠ top) : (x.meet y).Denotes w ↔ Pieces Brick.BuildsWith (paired x y) w := by
  have hne : ((paired x y).map fun (a, b) => a.meet b) ≠ [] := by
    rw [← List.length_pos_iff, List.length_map, length_paired]
    have hpos : 0 < x.bricks.length :=
      List.length_pos_iff.2 fun hnil => by simp [isBottom, hnil] at hx
    exact Nat.lt_of_lt_of_le hpos (Nat.le_max_left _ _)
  rw [meet_eq hx hy hxtop hytop, ← concatenates_map_meet_iff]
  · exact and_iff_right hne
  · intro p hp
    exact not_isBottom_of_mem_paired hx hy hp

/-- **The common strings of a meet**: it keeps a common string exactly if one of the sequences is
the top one or if the string can be cut into a piece for each pair of facing bricks that is built by
a number of repetitions which both ranges allow. This is so if both bricks build the piece by the
same number of repetitions, and no brick that may not occur at all faces a known set that may. -/
theorem denotes_meet_iff_pieces (hx : x.Denotes w) (hy : y.Denotes w) :
    ((x.meet y).Denotes w ↔ x = top ∨ y = top ∨ Pieces Brick.BuildsWith (paired x y) w) ∧
      (Pieces Brick.BuildsAlike (paired x y) w → (x.meet y).Denotes w) := by
  have hiff : (x.meet y).Denotes w ↔
      x = top ∨ y = top ∨ Pieces Brick.BuildsWith (paired x y) w := by
    have hxbot := not_isBottom_of_denotes hx
    have hybot := not_isBottom_of_denotes hy
    by_cases hxtop : x = top
    · rw [hxtop, meet_top_left, hybot]
      exact iff_of_true hy (.inl rfl)
    · by_cases hytop : y = top
      · rw [hytop, meet_top_right, hxbot]
        exact iff_of_true hx (.inr (.inl rfl))
      · rw [denotes_meet_iff hxbot hybot hxtop hytop]
        simp [hxtop, hytop]
  refine ⟨hiff, ?_⟩
  intro halike
  exact hiff.2 (.inr (.inr (halike.mono fun _ _ _ => Brick.BuildsAlike.buildsWith)))

/-- Padding sets the filler against a brick of unknown content, and the two bricks after them both
build `"aa"` by two repetitions. -/
theorem denotes_meet_iff_pieces_twice :
    (⟨[.any 0 1, .of ["a"] 1 3]⟩ : BrickSeq).Denotes "aa" ∧
      (ofBrick (.of ["a", "b"] 0 2)).Denotes "aa" ∧
        ((⟨[.any 0 1, .of ["a"] 1 3]⟩ : BrickSeq).meet (ofBrick (.of ["a", "b"] 0 2))).Denotes
          "aa" := by
  have htwice : ∀ {l : List String}, "a" ∈ l → (Content.known (.ofList l)).Spells 2 "aa" := by
    intro l hl
    have hmem : "a" ∈ StringSet.ofList l := StringSet.mem_ofList.2 hl
    exact ⟨"a", "a", hmem, ⟨"a", "", hmem, rfl, rfl⟩, rfl⟩
  have hone := htwice (l := ["a"]) (by decide)
  have htwo := htwice (l := ["a", "b"]) (by decide)
  have hgap : (Brick.any 0 1).BuildsAlike .filler "" := by
    refine ⟨by decide, 0, ?_, ?_⟩
    · exact ⟨Nat.le_refl 0, Nat.zero_le 1, rfl⟩
    · exact ⟨Nat.le_refl 0, Nat.le_refl 0, rfl⟩
  have hpair : (Brick.of ["a"] 1 3).BuildsAlike (.of ["a", "b"] 0 2) "aa" := by
    refine ⟨by decide, 2, ?_, ?_⟩
    · exact ⟨Nat.le_succ 1, Nat.le_succ 2, hone⟩
    · exact ⟨Nat.zero_le 2, Nat.le_refl 2, htwo⟩
  have hx : (⟨[.any 0 1, .of ["a"] 1 3]⟩ : BrickSeq).Denotes "aa" := by
    have hfirst : (Brick.any 0 1).Denotes "" :=
      ⟨by decide, 0, Nat.le_refl 0, Nat.zero_le 1, rfl⟩
    have hsecond : (Brick.of ["a"] 1 3).Denotes "aa" :=
      ⟨by decide, 2, Nat.le_succ 1, Nat.le_succ 2, hone⟩
    exact ⟨List.cons_ne_nil _ _, "", "aa", hfirst, ⟨"aa", "", hsecond, rfl, rfl⟩, rfl⟩
  have hy : (ofBrick (.of ["a", "b"] 0 2)).Denotes "aa" :=
    denotes_ofBrick.2 ⟨by decide, 2, Nat.zero_le 2, Nat.le_refl 2, htwo⟩
  refine ⟨hx, hy, (denotes_meet_iff_pieces hx hy).2 ?_⟩
  exact ⟨"", "aa", hgap, ⟨"aa", "", hpair, rfl, rfl⟩, rfl⟩

/-- A meet may lose a common string: padding sets the filler against `"a"`, which has to occur. -/
theorem meet_loses_common_string :
    (literal "ab").Denotes "ab" ∧ (⟨[.literal "a", .of ["b"] 0 1]⟩ : BrickSeq).Denotes "ab" ∧
      ¬ ((literal "ab").meet ⟨[.literal "a", .of ["b"] 0 1]⟩).Denotes "ab" := by
  refine ⟨denotes_literal.2 rfl, ?_, not_denotes_of_isBottom (by decide) "ab"⟩
  have hb : (Brick.of ["b"] 0 1).Denotes "b" := by
    refine ⟨by decide, 1, Nat.zero_le 1, Nat.le_refl 1, ?_⟩
    rw [Content.spells_one]
    exact StringSet.mem_ofList.2 List.mem_cons_self
  refine ⟨List.cons_ne_nil _ _, "a", "b", Brick.denotes_literal.2 rfl, ?_, rfl⟩
  exact ⟨"b", "", hb, rfl, rfl⟩

end BrickSeq

end StringBricks
