import StringBricks.Proofs.Brick.Order
import StringBricks.BrickSeq.Lattice
import StringBricks.BrickSeq.Language

/-!
# The order of sequences

What alignment decides is given here as a relation with one rule for each way of placing a brick
(`Alignment.Aligned`). The order of sequences is reflexive and transitive, has `BrickSeq.top` above
everything, and is sound: a sequence has all the strings of the sequences below it
(`BrickSeq.denotes_of_le`). None of this needs the sequences to be in normal form.
-/

set_option autoImplicit false

namespace StringBricks

namespace Alignment

/-- The bricks on the left placed, in order, on the bricks on the right. -/
inductive Aligned : List Brick → List Brick → Prop
  | nil : Aligned [] []
  /-- A brick is placed alone on one that is above it. -/
  | pair {a b : Brick} {l m : List Brick} : a.le b = true → Aligned l m → Aligned (a :: l) (b :: m)
  /-- A brick that the filler is above need not be placed. -/
  | drop {a : Brick} {l m : List Brick} : a.le .filler = true → Aligned l m → Aligned (a :: l) m
  /-- The brick for every string takes one more brick than it has. -/
  | absorb {a b : Brick} {l m : List Brick} :
      b.isTop = true → Aligned l (b :: m) → Aligned (a :: l) (b :: m)
  /-- A brick that is above the filler may take nothing. -/
  | skip {b : Brick} {l m : List Brick} :
      Brick.filler.le b = true → Aligned l m → Aligned l (b :: m)

/-- What the table finds aligned is aligned. -/
theorem aligned_of_aligns {left right : List Brick} (h : aligns left right = true) :
    Aligned left right := by
  induction left generalizing right with
  | nil =>
    induction right with
    | nil => exact .nil
    | cons b right ih =>
      rw [aligns_nil_cons, Bool.and_eq_true] at h
      exact .skip h.1 (ih h.2)
  | cons a left ihl =>
    induction right with
    | nil =>
      rw [aligns_cons_nil, Bool.and_eq_true] at h
      exact .drop h.1 (ihl h.2)
    | cons b right ihr =>
      rw [aligns_cons_cons, Bool.or_eq_true, Bool.or_eq_true, Bool.and_eq_true, Bool.and_eq_true,
        Bool.and_eq_true, Bool.or_eq_true] at h
      cases h with
      | inr hskip => exact .skip hskip.1 (ihr hskip.2)
      | inl h =>
        cases h with
        | inl hpair => exact .pair hpair.1 (ihl hpair.2)
        | inr h =>
          obtain ⟨hplace, hrest⟩ := h
          cases hplace with
          | inl hdrop => exact .drop hdrop (ihl hrest)
          | inr habsorb => exact .absorb habsorb (ihl hrest)

/-- What is aligned the table finds aligned. -/
theorem aligns_of_aligned {left right : List Brick} (h : Aligned left right) :
    aligns left right = true := by
  induction h with
  | nil => rfl
  | pair hab _ ih => simp [hab, ih]
  | @drop a l m ha _ ih =>
    cases m with
    | nil => simp [ha, ih]
    | cons b m => simp [ha, ih]
  | absorb hb _ ih => simp [hb, ih]
  | @skip b l m hb _ ih =>
    cases l with
    | nil => simp [hb, ih]
    | cons a l => simp [hb, ih]

/-- The table decides whether there is an alignment. -/
theorem aligns_iff {left right : List Brick} : aligns left right = true ↔ Aligned left right :=
  ⟨aligned_of_aligns, aligns_of_aligned⟩

namespace Aligned

variable {l m n : List Brick}

/-- Every list is aligned with itself. -/
protected theorem refl (l : List Brick) : Aligned l l := by
  induction l with
  | nil => exact .nil
  | cons b l ih => exact .pair (Brick.le_refl b) ih

/-- The induction is on the second alignment, and for each of its rules on the first one: what is
placed on a brick goes where that brick goes. -/
protected theorem trans (hlm : Aligned l m) (hmn : Aligned m n) : Aligned l n := by
  induction hmn generalizing l with
  | nil => exact hlm
  | @pair b c m n hbc hmn ih =>
    generalize hright : b :: m = right at hlm
    induction hlm with
    | nil => cases hright
    | pair hab hlm _ =>
      cases hright
      exact .pair (Brick.le_trans hab hbc) (ih hlm)
    | drop ha _ ihl => exact .drop ha (ihl hright)
    | absorb hb _ ihl =>
      cases hright
      have hc : c = Brick.top := Brick.top_le_iff.1 (Brick.isTop_iff.1 hb ▸ hbc)
      exact .absorb (Brick.isTop_iff.2 hc) (ihl rfl)
    | skip hb hlm _ =>
      cases hright
      exact .skip (Brick.le_trans hb hbc) (ih hlm)
  | @drop b m n hb hmn ih =>
    generalize hright : b :: m = right at hlm
    induction hlm with
    | nil => cases hright
    | pair hab hlm _ =>
      cases hright
      exact .drop (Brick.le_trans hab hb) (ih hlm)
    | drop ha _ ihl => exact .drop ha (ihl hright)
    | absorb htop _ _ =>
      cases hright
      have hfiller : Brick.filler = Brick.top := Brick.top_le_iff.1 (Brick.isTop_iff.1 htop ▸ hb)
      exact absurd hfiller (by decide)
    | skip _ hlm _ =>
      cases hright
      exact ih hlm
  | @absorb b c m n hc hmn ih =>
    generalize hright : b :: m = right at hlm
    induction hlm with
    | nil => cases hright
    | pair _ hlm _ =>
      cases hright
      exact .absorb hc (ih hlm)
    | drop _ _ ihl => exact .absorb hc (ihl hright)
    | absorb _ _ ihl => exact .absorb hc (ihl hright)
    | skip _ hlm _ =>
      cases hright
      exact ih hlm
  | skip hc _ ih => exact .skip hc (ih hlm)

/-- Two alignments side by side. -/
theorem append {l' m' : List Brick} (h : Aligned l m) (h' : Aligned l' m') :
    Aligned (l ++ l') (m ++ m') := by
  induction h with
  | nil => exact h'
  | pair hab _ ih => exact .pair hab ih
  | drop ha _ ih => exact .drop ha ih
  | absorb hb _ ih => exact .absorb hb ih
  | skip hb _ ih => exact .skip hb ih

/-- The brick for every string takes any bricks at all. -/
theorem to_top (l : List Brick) : Aligned l [Brick.top] := by
  induction l with
  | nil => exact .skip (Brick.le_top _) .nil
  | cons b l ih => exact .absorb Brick.isTop_top ih

/-- Every string of the list on the left is one of the list on the right. -/
theorem concatenates (h : Aligned l m) {w : String} (hw : Concatenates l w) : Concatenates m w := by
  induction h generalizing w with
  | nil => exact hw
  | pair hab _ ih =>
    obtain ⟨s, t, hs, ht, heq⟩ := hw
    exact ⟨s, t, Brick.denotes_of_le hab hs, ih ht, heq⟩
  | drop ha _ ih =>
    obtain ⟨s, t, hs, ht, heq⟩ := hw
    have hempty : s = "" := Brick.denotes_filler.1 (Brick.denotes_of_le ha hs)
    rw [heq, hempty, String.empty_append]
    exact ih ht
  | absorb hb _ ih =>
    obtain ⟨s, t, hs, ht, heq⟩ := hw
    obtain ⟨s', t', hs', ht', heq'⟩ := ih ht
    refine ⟨s ++ s', t', ?_, ht', ?_⟩
    · rw [Brick.isTop_iff.1 hb]
      exact Brick.denotes_top _
    · rw [heq, heq', String.append_assoc]
  | skip hb _ ih =>
    exact ⟨"", w, Brick.denotes_empty_of_filler_le hb, ih hw, String.empty_append.symm⟩

end Aligned

end Alignment

namespace BrickSeq

open StringBricks.Alignment

/-- The bottom sequence stands for no string. -/
theorem isBottom_bottom : bottom.isBottom = true := rfl

/-- The top sequence stands for something. -/
theorem not_isBottom_top : top.isBottom = false := by decide

/-- The top sequence is recognised as such. -/
theorem isTop_top : top.isTop = true := isTop_iff.2 rfl

/-- The bricks of a sequence that stands for something all do. -/
theorem not_isBottom_of_mem {x : BrickSeq} (hx : x.isBottom = false) {b : Brick}
    (hb : b ∈ x.bricks) : b.isBottom = false :=
  any_isBottom_eq_false_iff.1 (any_isBottom_of_not_isBottom hx) b hb

/-- The order, read off case by case. -/
theorem le_iff {x y : BrickSeq} : x.le y = true ↔
    x.isBottom = true ∨ y = top ∨ (y.isBottom = false ∧ Aligned x.bricks y.bricks) := by
  unfold le
  rw [Bool.or_eq_true, Bool.or_eq_true, isTop_iff, Bool.and_eq_true, aligns_iff, or_assoc]
  simp

/-- A sequence for no string is below every other one. -/
theorem le_of_isBottom {x : BrickSeq} (h : x.isBottom = true) (y : BrickSeq) : x.le y = true :=
  le_iff.2 (.inl h)

/-- Every sequence is below the top one. -/
@[simp] theorem le_top (x : BrickSeq) : x.le top = true := le_iff.2 (.inr (.inl rfl))

/-- Every sequence is below itself. -/
theorem le_refl (x : BrickSeq) : x.le x = true := by
  by_cases h : x.isBottom = true
  · exact le_of_isBottom h x
  · exact le_iff.2 (.inr (.inr ⟨by simpa using h, Aligned.refl x.bricks⟩))

/-- What is below a sequence for no string is itself one. -/
theorem isBottom_of_le {x y : BrickSeq} (h : x.le y = true) (hy : y.isBottom = true) :
    x.isBottom = true := by
  cases le_iff.1 h with
  | inl hx => exact hx
  | inr h =>
    cases h with
    | inl htop =>
      rw [htop, not_isBottom_top] at hy
      cases hy
    | inr h =>
      rw [h.1] at hy
      cases hy

/-- What is above a sequence that stands for something does so too. -/
theorem not_isBottom_of_le {x y : BrickSeq} (h : x.le y = true) (hx : x.isBottom = false) :
    y.isBottom = false := by
  rw [Bool.eq_false_iff]
  intro hy
  rw [isBottom_of_le h hy] at hx
  cases hx

/-- Between sequences that stand for something, the order is alignment. -/
theorem le_iff_aligned {x y : BrickSeq} (hx : x.isBottom = false) (hy : y.isBottom = false) :
    x.le y = true ↔ Aligned x.bricks y.bricks := by
  constructor
  · intro h
    cases le_iff.1 h with
    | inl hbot =>
      rw [hx] at hbot
      cases hbot
    | inr h =>
      cases h with
      | inl htop => exact htop ▸ Aligned.to_top x.bricks
      | inr h => exact h.2
  · intro h
    exact le_iff.2 (.inr (.inr ⟨hy, h⟩))

/-- What is above an upper bound is above the sequence itself. -/
theorem le_trans {x y z : BrickSeq} (hxy : x.le y = true) (hyz : y.le z = true) :
    x.le z = true := by
  by_cases hx : x.isBottom = true
  · exact le_of_isBottom hx z
  · rw [Bool.not_eq_true] at hx
    have hy := not_isBottom_of_le hxy hx
    have hz := not_isBottom_of_le hyz hy
    rw [le_iff_aligned hx hz]
    have hleft := (le_iff_aligned hx hy).1 hxy
    have hright := (le_iff_aligned hy hz).1 hyz
    exact hleft.trans hright

/-- A sequence has all the strings of the sequences below it. -/
theorem denotes_of_le {x y : BrickSeq} (h : x.le y = true) {w : String} (hw : x.Denotes w) :
    y.Denotes w := by
  cases le_iff.1 h with
  | inl hx => exact absurd hw (not_denotes_of_isBottom hx w)
  | inr h =>
    cases h with
    | inl htop => exact htop ▸ denotes_top w
    | inr h =>
      obtain ⟨hy, haligned⟩ := h
      have hne : y.bricks ≠ [] := by
        intro hnil
        simp [isBottom, hnil] at hy
      exact ⟨hne, haligned.concatenates hw.2⟩

end BrickSeq

end StringBricks
