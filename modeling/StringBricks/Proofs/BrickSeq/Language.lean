import StringBricks.Proofs.NormalForm.Language
import StringBricks.BrickSeq.Operations

/-!
# The strings of a normal form and of a concatenation

A list of bricks whose weight is at most the cap stands for the same strings as its normal form, and
two sequences that weigh no more than the cap together concatenate exactly. Beyond that weight no
string is lost that is itself no longer than the cap.
-/

set_option autoImplicit false

namespace StringBricks

namespace BrickSeq

open NormalForm

/-- The sequence in normal form, with at most `rounds` cycles of the rules. -/
def normalizedWithin (rounds : Nat) (l : List Brick) : BrickSeq :=
  if l.any Brick.isBottom then bottom
  else if (normalizeWithin rounds l).isEmpty && !l.isEmpty then literal ""
  else ⟨normalizeWithin rounds l⟩

/-- The normal form is what the largest number of cycles leads to. -/
theorem normalized_eq (l : List Brick) : normalized l = normalizedWithin maxCycles l := rfl

/-- A sequence with bricks stands for what its bricks concatenate to. -/
theorem denotes_iff {l : List Brick} (hl : l ≠ []) {w : String} :
    (⟨l⟩ : BrickSeq).Denotes w ↔ Concatenates l w := by
  unfold Denotes
  simp [hl]

/-- Without bricks there is no string, whatever the number of cycles. -/
theorem normalizedWithin_nil (rounds : Nat) : normalizedWithin rounds [] = bottom := by
  cases rounds <;> rfl

/-- The normal form of some bricks stands for what the rewritten bricks concatenate to, also where
they were all dropped. -/
theorem denotes_normalizedWithin {l : List Brick} (hl : l ≠ []) (rounds : Nat) {w : String} :
    (normalizedWithin rounds l).Denotes w ↔ Concatenates (normalizeWithin rounds l) w := by
  unfold normalizedWithin
  by_cases hbot : l.any Brick.isBottom = true
  · rw [if_pos hbot, normalizeWithin, if_pos hbot, concatenates_singleton]
    constructor
    · intro h
      simp [not_denotes_bottom] at h
    · intro h
      exact absurd h (Brick.not_denotes_of_isBottom Brick.isBottom_bottom w)
  · rw [if_neg hbot]
    cases hnormal : normalizeWithin rounds l with
    | nil =>
      rw [if_pos (by simpa using hl), denotes_literal]
      exact Iff.rfl
    | cons b m =>
      rw [if_neg (by simp)]
      exact denotes_iff (List.cons_ne_nil b m)

/-- The normal form loses no string, if the list weighs no more than the cap or the string is no
longer than the cap. -/
theorem denotes_normalizedWithin_of {l : List Brick} (rounds : Nat) {w : String}
    (hfit : totalWeight l ≤ Count.cap ∨ w.length ≤ Count.cap) (hw : (⟨l⟩ : BrickSeq).Denotes w) :
    (normalizedWithin rounds l).Denotes w := by
  obtain ⟨hl, hw⟩ := hw
  have hbot : l.any Brick.isBottom = false := by
    rw [Bool.eq_false_iff]
    intro hbot
    exact not_concatenates_of_isBottom hbot w hw
  rw [denotes_normalizedWithin hl]
  exact (rewrites_normalizeWithin rounds hbot).concatenates hbot hfit hw

/-- The normal form of a list that weighs no more than the cap has no new string. -/
theorem denotes_of_normalizedWithin {l : List Brick} (rounds : Nat) {w : String}
    (hfit : totalWeight l ≤ Count.cap) (hw : (normalizedWithin rounds l).Denotes w) :
    (⟨l⟩ : BrickSeq).Denotes w := by
  by_cases hbot : l.any Brick.isBottom = true
  · rw [normalizedWithin, if_pos hbot] at hw
    simp [not_denotes_bottom] at hw
  · rw [Bool.not_eq_true] at hbot
    have hl : l ≠ [] := by
      intro hnil
      rw [hnil, normalizedWithin_nil] at hw
      exact not_denotes_bottom w hw
    rw [denotes_normalizedWithin hl] at hw
    rw [denotes_iff hl]
    exact (rewrites_normalizeWithin rounds hbot).concatenates_of hbot hfit hw

/-- A list that weighs no more than the cap stands for the strings of its normal form. -/
theorem denotes_normalizedWithin_iff {l : List Brick} (hfit : totalWeight l ≤ Count.cap)
    (rounds : Nat) {w : String} :
    (normalizedWithin rounds l).Denotes w ↔ (⟨l⟩ : BrickSeq).Denotes w :=
  ⟨denotes_of_normalizedWithin rounds hfit, denotes_normalizedWithin_of rounds (.inl hfit)⟩

/-! ## Concatenation -/

/-- A sequence for some string has no brick for none. -/
theorem not_isBottom_of_denotes {x : BrickSeq} {w : String} (hw : x.Denotes w) :
    x.isBottom = false := by
  rw [Bool.eq_false_iff]
  intro hbot
  exact not_denotes_of_isBottom hbot w hw

/-- Two lists of bricks, one after the other, as sequences. -/
theorem denotes_append {l m : List Brick} (hl : l ≠ []) (hm : m ≠ []) {w : String} :
    (⟨l ++ m⟩ : BrickSeq).Denotes w ↔
      ∃ s t, (⟨l⟩ : BrickSeq).Denotes s ∧ (⟨m⟩ : BrickSeq).Denotes t ∧ w = s ++ t := by
  simp only [denotes_iff hl, denotes_iff hm]
  rw [denotes_iff (List.append_ne_nil_of_left_ne_nil hl m)]
  exact concatenates_append

/-- A concatenation has all the strings that its operands have together, if those weigh no more than
the cap or the string is no longer than the cap. -/
theorem denotes_concat {x y : BrickSeq} {s t : String} (hs : x.Denotes s) (ht : y.Denotes t)
    (hfit : totalWeight (x.bricks ++ y.bricks) ≤ Count.cap ∨ (s ++ t).length ≤ Count.cap) :
    (x.concat y).Denotes (s ++ t) := by
  unfold concat
  rw [not_isBottom_of_denotes hs, not_isBottom_of_denotes ht]
  have hboth := (denotes_append hs.1 ht.1).2 ⟨s, t, hs, ht, rfl⟩
  exact denotes_normalizedWithin_of maxCycles hfit hboth

/-- A concatenation of operands that weigh no more than the cap has no other strings. -/
theorem exists_of_denotes_concat {x y : BrickSeq} {w : String}
    (hfit : totalWeight (x.bricks ++ y.bricks) ≤ Count.cap) (hw : (x.concat y).Denotes w) :
    ∃ s t, x.Denotes s ∧ y.Denotes t ∧ w = s ++ t := by
  unfold concat at hw
  by_cases hbot : (x.isBottom || y.isBottom) = true
  · rw [if_pos hbot] at hw
    simp [not_denotes_bottom] at hw
  · rw [if_neg hbot] at hw
    have hne : ∀ z : BrickSeq, z.isBottom = false → z.bricks ≠ [] := by
      intro z hz hnil
      rw [isBottom, hnil] at hz
      cases hz
    rw [Bool.not_eq_true, Bool.or_eq_false_iff] at hbot
    have hboth := denotes_of_normalizedWithin maxCycles hfit hw
    exact (denotes_append (hne x hbot.1) (hne y hbot.2)).1 hboth

/-- **The normal form keeps the strings**: a list that weighs no more than the cap stands for the
same strings as its normal form, also where the cycle of rules is cut off after any number of
rounds. A concatenation of sequences that weigh no more than the cap together has the strings that
are made of one from each, and no others. -/
theorem normalized_keeps_strings :
    (∀ l : List Brick, totalWeight l ≤ Count.cap →
      (∀ w, (normalized l).Denotes w ↔ (⟨l⟩ : BrickSeq).Denotes w) ∧
      ∀ rounds w, (normalizedWithin rounds l).Denotes w ↔ (⟨l⟩ : BrickSeq).Denotes w) ∧
    ∀ x y : BrickSeq, totalWeight (x.bricks ++ y.bricks) ≤ Count.cap →
      ∀ w, (x.concat y).Denotes w ↔ ∃ s t, x.Denotes s ∧ y.Denotes t ∧ w = s ++ t := by
  refine ⟨?_, ?_⟩
  · intro l hfit
    refine ⟨?_, ?_⟩
    · intro w
      exact denotes_normalizedWithin_iff hfit maxCycles
    · intro rounds w
      exact denotes_normalizedWithin_iff hfit rounds
  · intro x y hfit w
    constructor
    · exact exists_of_denotes_concat hfit
    · rintro ⟨s, t, hs, ht, rfl⟩
      exact denotes_concat hs ht (.inl hfit)

/-- A mandatory and an optional part of one content, and a brick that occurs twice: the rules split
and collapse here, and the counts stay below the cap. -/
theorem normalized_keeps_strings_of_parts :
    (totalWeight [.of ["a"] 2 3, .of ["a"] 0 1, .of ["b", "c"] 2 2] ≤ Count.cap ∧
      ∀ w, (normalized [.of ["a"] 2 3, .of ["a"] 0 1, .of ["b", "c"] 2 2]).Denotes w ↔
        (⟨[.of ["a"] 2 3, .of ["a"] 0 1, .of ["b", "c"] 2 2]⟩ : BrickSeq).Denotes w) ∧
    totalWeight ((ofBrick (.of ["a"] 2 3)).bricks ++ (ofBrick (.any 1 .infinite)).bricks) ≤
        Count.cap ∧
      ∀ w, ((ofBrick (.of ["a"] 2 3)).concat (ofBrick (.any 1 .infinite))).Denotes w ↔
        ∃ s t, (ofBrick (.of ["a"] 2 3)).Denotes s ∧ (ofBrick (.any 1 .infinite)).Denotes t ∧
          w = s ++ t :=
  ⟨⟨by decide, (normalized_keeps_strings.1 _ (by decide)).1⟩, by decide,
    normalized_keeps_strings.2 _ _ (by decide)⟩

end BrickSeq

end StringBricks
