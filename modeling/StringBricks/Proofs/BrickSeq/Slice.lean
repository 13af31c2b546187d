import StringBricks.Proofs.NormalForm.Prefix
import StringBricks.Proofs.BrickSeq.Containment

/-!
# Slices of the strings of a sequence

A substring is the top sequence, or the slices of the first brick of the normal form followed by all
its other bricks (`BrickSeq.substring_cases`). The slice of a string is therefore always there with
something of the other bricks after it, and there by itself exactly if they admit the empty string
(`BrickSeq.denotes_substring_iff`).
-/

set_option autoImplicit false

namespace StringBricks

namespace BrickSeq

open NormalForm Text

variable {x : BrickSeq} {s w : String} {first past : Nat}

/-- The two ways in which a substring is answered. -/
theorem substring_cases (hx : x.isBottom = false) (first past : Nat) :
    x.substring first past = top ∨ ∃ members rest,
      normalize x.bricks = ⟨.known members, 1, 1⟩ :: rest ∧ first ≤ past ∧
      (∀ m ∈ members, past ≤ m.length) ∧
      x.substring first past = ⟨⟨.known (members.map (slice · first past)), 1, 1⟩ :: rest⟩ := by
  unfold substring
  rw [hx]
  simp only [Bool.false_eq_true, if_false]
  cases hnormal : normalize x.bricks with
  | nil => exact .inl rfl
  | cons b rest =>
    obtain ⟨content, lo, hi⟩ := b
    cases content with
    | unknown => exact .inl rfl
    | known members =>
      simp only
      split
      · next h =>
        simp only [Bool.and_eq_true, decide_eq_true_eq, List.all_eq_true, Brick.isSingle_iff] at h
        obtain ⟨⟨hfirst, rfl, rfl⟩, hall⟩ := h
        exact .inr ⟨members, rest, rfl, hfirst, hall, rfl⟩
      · exact .inl rfl

/-- The normal form begins like every string of the sequence. -/
theorem exists_concatenates_normalize (hw : x.Denotes w) :
    ∃ w', Concatenates (normalize x.bricks) w' ∧ SamePrefix Count.cap w' w := by
  have hbricks := any_isBottom_of_not_isBottom (not_isBottom_of_denotes hw)
  exact (rewrites_normalizeWithin maxCycles hbricks).exists_concatenates_samePrefix hbricks hw.2

/-- A sequence that starts with one occurrence of a set. -/
theorem denotes_cons_once {members : StringSet} {rest : List Brick} :
    (⟨⟨.known members, 1, 1⟩ :: rest⟩ : BrickSeq).Denotes w ↔
      ∃ m t, m ∈ members ∧ Concatenates rest t ∧ w = m ++ t := by
  rw [denotes_iff (List.cons_ne_nil _ rest), Concatenates]
  simp only [Brick.denotes_once, Content.Allows]

/-- **Substrings keep what follows the slice**: for every string of the sequence that reaches the
end of the slice, the substring has the slice with a string of the bricks that follow in the normal
form. It has the slice itself exactly if it is the top sequence or those bricks admit the empty
string. -/
theorem denotes_substring_iff (hpast : past ≤ Count.cap) (hs : x.Denotes s) :
    (∃ t, (x.substring first past).Denotes (slice s first past ++ t)) ∧
    ((x.substring first past).Denotes (slice s first past) ↔
      x.substring first past = top ∨ Concatenates (normalize x.bricks).tail "") := by
  obtain htop | ⟨members, rest, hnormal, -, hall, hsub⟩ :=
    substring_cases (not_isBottom_of_denotes hs) first past
  · rw [htop]
    exact ⟨⟨"", denotes_top _⟩, iff_of_true (denotes_top _) (.inl rfl)⟩
  · -- the slice is one of the slices of the first brick, whatever the rules did to the string
    obtain ⟨s', hs', hsame⟩ := exists_concatenates_normalize hs
    rw [hnormal] at hs' ⊢
    obtain ⟨m, t, hm, ht, rfl⟩ := hs'
    have hmember : m ∈ members := Brick.denotes_once.1 hm
    have hreach : past ≤ m.length := hall m hmember
    have hslice : slice s first past = slice m first past :=
      (hsame.slice_eq hpast).symm.trans ((SamePrefix.of_append hreach t).slice_eq (Nat.le_refl _))
    have hslices : slice m first past ∈ members.map (slice · first past) :=
      StringSet.mem_map.2 ⟨m, hmember, rfl⟩
    rw [hsub, hslice]
    refine ⟨⟨t, denotes_cons_once.2 ⟨_, t, hslices, ht, rfl⟩⟩, ?_, ?_⟩
    · intro h
      obtain ⟨u, t', hu, ht', heq⟩ := denotes_cons_once.1 h
      obtain ⟨m', hm', rfl⟩ := StringSet.mem_map.1 hu
      -- all slices are equally long, so nothing is left for what follows
      have hsum := congrArg String.length heq
      rw [String.length_append, length_slice hreach, length_slice (hall m' hm')] at hsum
      have hempty : t' = "" := String.length_eq_zero_iff.1 (by omega)
      rw [hempty] at ht'
      exact .inr ht'
    · rintro (htop | hempty)
      · rw [htop]
        exact denotes_top _
      · exact denotes_cons_once.2 ⟨_, "", hslices, hempty, String.append_empty.symm⟩

/-- What may follow the greeting is optional here, so its slice is there by itself. -/
theorem denotes_substring_iff_greeting :
    3 ≤ Count.cap ∧ (⟨[.literal "hello", .of ["!"] 0 .infinite]⟩ : BrickSeq).Denotes "hello!" ∧
    ((⟨[.literal "hello", .of ["!"] 0 .infinite]⟩ : BrickSeq).substring 1 3).Denotes "el" := by
  have hbang : (Brick.of ["!"] 0 .infinite).Denotes "!" :=
    ⟨by decide, 1, Nat.zero_le _, trivial, Content.spells_one.2 (StringSet.mem_ofList.2 (by simp))⟩
  have hnone : (Brick.of ["!"] 0 .infinite).Denotes "" :=
    ⟨by decide, 0, Nat.zero_le _, trivial, rfl⟩
  have hgreeting : (⟨[.literal "hello", .of ["!"] 0 .infinite]⟩ : BrickSeq).Denotes "hello!" :=
    ⟨nofun, "hello", "!", Brick.denotes_literal.2 rfl, concatenates_singleton.2 hbang, by decide⟩
  have hcap : 3 ≤ Count.cap := by decide
  exact ⟨hcap, hgreeting,
    (denotes_substring_iff hcap hgreeting).2.2 (.inr (concatenates_singleton.2 hnone))⟩

/-- Behind the slice of `ab` the mandatory `c` is kept, so the slice itself is lost. -/
theorem substring_loses_slice :
    (⟨[.literal "ab", .of ["c"] 1 2]⟩ : BrickSeq).Denotes "abc" ∧ 2 ≤ "abc".length ∧
    slice "abc" 0 2 = "ab" ∧
    ¬ ((⟨[.literal "ab", .of ["c"] 1 2]⟩ : BrickSeq).substring 0 2).Denotes "ab" := by
  have hone : (Brick.of ["c"] 1 2).Denotes "c" :=
    ⟨by decide, 1, Nat.le_refl _, Nat.le_succ 1,
      Content.spells_one.2 (StringSet.mem_ofList.2 (by simp))⟩
  have hboth : (⟨[.literal "ab", .of ["c"] 1 2]⟩ : BrickSeq).Denotes "abc" :=
    ⟨nofun, "ab", "c", Brick.denotes_literal.2 rfl, concatenates_singleton.2 hone, by decide⟩
  have hsub : (⟨[.literal "ab", .of ["c"] 1 2]⟩ : BrickSeq).substring 0 2 =
      ⟨[.literal "ab", .of ["c"] 1 2]⟩ := by decide
  refine ⟨hboth, by decide, by decide, ?_⟩
  rw [hsub]
  intro h
  have hc : 'c' ∈ "ab".toList := mem_of_any_mustContain (by decide) h.2
  exact absurd hc (by decide)

end BrickSeq

end StringBricks
