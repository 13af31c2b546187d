import StringBricks.Proofs.BrickSeq.Language
import Mathlib.Data.List.Infix

/-!
# Tests on the strings of a sequence

What the tests on abstract strings tell of the concrete ones. A sequence that spells out a string
stands for that string alone, and the answer of the containment test is right for every string that
is no longer than the cap (`BrickSeq.admits_contains`).
-/

set_option autoImplicit false

namespace StringBricks

/-- Whether an answer of the analysis allows a concrete one. -/
def Verdict.Admits : Verdict → Bool → Prop
  | holds, b => b = true
  | fails, b => b = false
  | unknown, _ => True

namespace Brick

variable {b : Brick} {c : Char} {w : String}

/-- A brick of which every repetition has the character, and that must occur, has it. -/
theorem mem_of_mustContain (h : b.mustContain c = true) (hw : b.Denotes w) : c ∈ w.toList := by
  unfold mustContain at h
  cases hc : b.content with
  | unknown =>
    rw [hc] at h
    cases h
  | known members =>
    rw [hc] at h
    simp only [Bool.and_eq_true, isGuaranteed, decide_eq_true_eq, List.all_eq_true,
      List.contains_iff_mem] at h
    obtain ⟨hlo, hall⟩ := h
    obtain ⟨-, k, hk, -, hspells⟩ := hw
    have hlo' : 1 ≤ b.lo.toNat := hlo
    obtain ⟨j, rfl⟩ := Nat.exists_eq_add_of_le' (Nat.le_trans hlo' hk)
    rw [hc] at hspells
    obtain ⟨s, t, hs, -, rfl⟩ := hspells
    rw [String.toList_append]
    exact List.mem_append_left _ (hall s hs)

/-- A repetition of strings without the character does not have it. -/
theorem not_mem_of_spells {a : StringSet} {k : Nat}
    (h : a.toList.any (·.toList.contains c) = false) (hw : (Content.known a).Spells k w) :
    c ∉ w.toList := by
  induction k generalizing w with
  | zero =>
    rw [Content.spells_zero.1 hw]
    exact List.not_mem_nil
  | succ k ih =>
    obtain ⟨s, t, hs, ht, rfl⟩ := hw
    have hmember : c ∉ s.toList := by
      simpa using List.any_eq_false.1 h s hs
    rw [String.toList_append, List.mem_append, not_or]
    exact ⟨hmember, ih ht⟩

/-- A brick of which no repetition has the character does not have it. -/
theorem not_mem_of_mayContain (h : b.mayContain c = false) (hw : b.Denotes w) : c ∉ w.toList := by
  obtain ⟨hbot, k, hlo, hhi, hspells⟩ := hw
  unfold mayContain at h
  cases hc : b.content with
  | unknown =>
    rw [hc] at h
    have hzero : b.hi = 0 := by
      have hle : ¬ (0 : Bound) < b.hi := of_decide_eq_false h
      exact Bound.le_zero_iff.1 (not_lt.1 hle)
    rw [hzero] at hhi
    have hk : k = 0 := Nat.le_zero.1 hhi
    rw [hk] at hspells
    rw [Content.spells_zero.1 hspells]
    exact List.not_mem_nil
  | known members =>
    rw [hc] at h hspells
    exact not_mem_of_spells h hspells

end Brick

namespace BrickSeq

open NormalForm

variable {x needle : BrickSeq} {c : Char} {s w : String} {l : List Brick}

/-! ## Spelled out strings -/

/-- A sequence that spells out a string stands for it alone. -/
theorem eq_of_asLiteral? (h : x.asLiteral? = some s) (hw : x.Denotes w) : w = s := by
  obtain ⟨bricks⟩ := x
  match bricks with
  | [] => cases h
  | _ :: _ :: _ => cases h
  | [b] =>
    unfold asLiteral? at h
    simp only at h
    split at h
    · next members _ hsingle hc =>
      cases h
      have hbounds := Brick.isSingle_iff.1 hsingle
      obtain ⟨content, lo, hi⟩ := b
      simp only at hbounds hc
      rw [hbounds.1, hbounds.2, hc] at hw
      have honce := Brick.denotes_once.1 (denotes_ofBrick.1 hw)
      exact List.mem_singleton.1 honce
    · cases h

/-- A sequence that is told to be one character stands for that character alone. -/
theorem toList_of_asChar? (h : x.asChar? = some c) (hw : x.Denotes w) : w.toList = [c] := by
  unfold asChar? at h
  obtain ⟨s, hs, hchar⟩ := Option.bind_eq_some_iff.1 h
  rw [eq_of_asLiteral? hs hw]
  split at hchar
  · next c' hlist =>
    cases hchar
    exact hlist
  · cases hchar

/-! ## Containment -/

/-- The character is in a concatenation that has a brick with it. -/
theorem mem_of_any_mustContain (h : l.any (·.mustContain c) = true) (hw : Concatenates l w) :
    c ∈ w.toList := by
  induction l generalizing w with
  | nil => cases h
  | cons b l ih =>
    obtain ⟨s, t, hs, ht, rfl⟩ := hw
    rw [String.toList_append, List.mem_append]
    rw [List.any_cons, Bool.or_eq_true] at h
    cases h with
    | inl hb => exact .inl (Brick.mem_of_mustContain hb hs)
    | inr hl => exact .inr (ih hl ht)

/-- The character is not in a concatenation of bricks that all lack it. -/
theorem not_mem_of_any_mayContain (h : l.any (·.mayContain c) = false) (hw : Concatenates l w) :
    c ∉ w.toList := by
  induction l generalizing w with
  | nil =>
    have hempty : w = "" := hw
    rw [hempty]
    exact List.not_mem_nil
  | cons b l ih =>
    obtain ⟨s, t, hs, ht, rfl⟩ := hw
    rw [List.any_cons, Bool.or_eq_false_iff] at h
    rw [String.toList_append, List.mem_append, not_or]
    exact ⟨Brick.not_mem_of_mayContain h.1 hs, ih h.2 ht⟩

/-- The bricks of the normal form spell every string of the sequence that is no longer than the
cap. -/
theorem concatenates_normalize (hw : x.Denotes w) (hlen : w.length ≤ Count.cap) :
    Concatenates (normalize x.bricks) w :=
  (denotes_normalizedWithin hw.1 maxCycles).1 (denotes_normalizedWithin_of maxCycles (.inr hlen) hw)

/-- The answer of the containment test is right for all strings that are no longer than the cap. -/
theorem admits_contains (hw : x.Denotes w) (hs : needle.Denotes s) (hlen : w.length ≤ Count.cap)
    {b : Bool} (hb : b = true ↔ s.toList <:+: w.toList) : (x.contains needle).Admits b := by
  unfold contains
  rw [not_isBottom_of_denotes hw]
  simp only [Bool.false_eq_true, if_false]
  cases hchar : needle.asChar? with
  | none => trivial
  | some c =>
    have hmem : b = true ↔ c ∈ w.toList := by
      rw [hb, toList_of_asChar? hchar hs, List.singleton_infix_iff]
    have hnormal := concatenates_normalize hw hlen
    simp only
    split
    · next hmust => exact hmem.2 (mem_of_any_mustContain hmust hnormal)
    · split
      · trivial
      · next hmay =>
        rw [Bool.not_eq_true] at hmay
        have hnot := not_mem_of_any_mayContain hmay hnormal
        show b = false
        rw [Bool.eq_false_iff]
        intro hb
        exact hnot (hmem.1 hb)

end BrickSeq

end StringBricks
