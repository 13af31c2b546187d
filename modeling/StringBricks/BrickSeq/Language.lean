import StringBricks.BrickSeq.Basic
import StringBricks.Brick.Language

/-!
# The strings of a sequence

Which strings a list of bricks spells, and which a sequence stands for. The two differ in the empty
list alone, which spells the empty string and as a sequence stands for none (`not_denotes_bottom`).
-/

set_option autoImplicit false

namespace StringBricks

/-- Whether `w` is a concatenation of one string from each brick of the list. -/
def Concatenates : List Brick → String → Prop
  | [], w => w = ""
  | b :: l, w => ∃ s t, b.Denotes s ∧ Concatenates l t ∧ w = s ++ t

namespace BrickSeq

/-- Whether `w` is one of the strings that the sequence stands for. -/
def Denotes (x : BrickSeq) (w : String) : Prop := x.bricks ≠ [] ∧ Concatenates x.bricks w

/-- The bottom sequence stands for no string. -/
theorem not_denotes_bottom (w : String) : ¬ bottom.Denotes w := fun h => h.1 rfl

/-- The sequence of one brick stands for the strings of that brick. -/
theorem denotes_ofBrick {b : Brick} {w : String} : (ofBrick b).Denotes w ↔ b.Denotes w := by
  simp [Denotes, ofBrick, Concatenates]

/-- The sequence for a string stands for that string. -/
@[simp] theorem denotes_literal {s w : String} : (literal s).Denotes w ↔ w = s :=
  denotes_ofBrick.trans Brick.denotes_literal

/-- The top sequence stands for every string. -/
@[simp] theorem denotes_top (w : String) : top.Denotes w :=
  denotes_ofBrick.2 (Brick.denotes_top w)

/-- Bricks of which one is for no string concatenate to none. -/
theorem not_concatenates_of_isBottom {l : List Brick} (h : l.any Brick.isBottom = true)
    (w : String) : ¬ Concatenates l w := by
  induction l generalizing w with
  | nil => cases h
  | cons b l ih =>
    rintro ⟨s, t, hs, ht, -⟩
    rcases Bool.or_eq_true _ _ ▸ (List.any_cons ▸ h) with hb | hl
    · exact Brick.not_denotes_of_isBottom hb s hs
    · exact ih hl t ht

/-- A sequence with a brick for no string stands for no string. -/
theorem not_denotes_of_isBottom {x : BrickSeq} (h : x.isBottom = true) (w : String) :
    ¬ x.Denotes w := by
  rintro ⟨hne, hw⟩
  rcases Bool.or_eq_true _ _ ▸ h with he | ha
  · exact hne (List.isEmpty_iff.1 he)
  · exact not_concatenates_of_isBottom ha w hw

end BrickSeq

end StringBricks
