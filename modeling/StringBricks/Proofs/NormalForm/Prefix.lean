import StringBricks.Proofs.NormalForm.Language
import StringBricks.Text.Slice

/-!
# How strings begin in the normal form

A string that is longer than the cap can be lost where a sum of counts saturates, but the normal
form keeps one that begins like it, with as many characters as the cap is large
(`NormalForm.Rewrites.exists_concatenates_samePrefix`). Whatever looks only at how a string begins,
such as a slice of it (`Text.SamePrefix.slice_eq`), is therefore told by the normal form without any
condition on lengths.
-/

set_option autoImplicit false

namespace StringBricks

namespace Text

/-- Whether two strings have the same first `n` characters. -/
def SamePrefix (n : Nat) (s t : String) : Prop := s.toList.take n = t.toList.take n

namespace SamePrefix

variable {m n : Nat} {s s' t t' u : String}

/-- A string has the same first characters as itself. -/
theorem refl (n : Nat) (s : String) : SamePrefix n s s := rfl

/-- Strings with the same first characters as a third one have them in common. -/
theorem trans (h : SamePrefix n s t) (h' : SamePrefix n t u) : SamePrefix n s u := Eq.trans h h'

/-- Strings with the same first characters have the same first few of them. -/
theorem mono (h : SamePrefix n s t) (hmn : m ≤ n) : SamePrefix m s t := by
  have htake := congrArg (List.take m) h
  rwa [List.take_take, List.take_take, Nat.min_eq_left hmn] at htake

/-- Strings with the same beginning are both too short for it or both long enough. -/
theorem min_length (h : SamePrefix n s t) : min n s.length = min n t.length := by
  have hlen := congrArg List.length h
  rwa [List.length_take, List.length_take, String.length_toList, String.length_toList] at hlen

/-- What follows the same string begins at its end. -/
theorem append_left (h : SamePrefix (n - s.length) t t') : SamePrefix n (s ++ t) (s ++ t') := by
  unfold SamePrefix at h ⊢
  rw [String.toList_append, String.toList_append, List.take_append, List.take_append,
    String.length_toList, h]

/-- What is put behind two strings does not tell their first characters apart. -/
theorem append_right (h : SamePrefix n s s') (t : String) : SamePrefix n (s ++ t) (s' ++ t) := by
  have hrest : n - s.length = n - s'.length := by
    have hlen := h.min_length
    omega
  unfold SamePrefix at h ⊢
  rw [String.toList_append, String.toList_append, List.take_append, List.take_append,
    String.length_toList, String.length_toList, h, hrest]

/-- Where both halves have the same first characters, so have the concatenations. -/
theorem append (hs : SamePrefix n s s') (ht : SamePrefix n t t') :
    SamePrefix n (s ++ t) (s' ++ t') :=
  (hs.append_right t).trans (append_left (ht.mono (Nat.sub_le _ _)))

/-- What follows a string does not change how it begins. -/
theorem of_append (h : n ≤ s.length) (t : String) : SamePrefix n (s ++ t) s := by
  unfold SamePrefix
  rw [String.toList_append, List.take_append_of_le_length]
  rwa [String.length_toList]

/-- A slice only looks at how the string begins. -/
theorem slice_eq {first past : Nat} (h : SamePrefix n s t) (hpast : past ≤ n) :
    slice s first past = slice t first past := by
  have hpart : SamePrefix past s t := h.mono hpast
  unfold SamePrefix at hpart
  unfold slice
  rw [← List.drop_take, ← List.drop_take, hpart]

end SamePrefix

/-- A slice that ends within a string has one character for each position. -/
theorem length_slice {s : String} {first past : Nat} (hpast : past ≤ s.length) :
    (slice s first past).length = past - first := by
  unfold slice
  rw [String.length_ofList, List.length_take, List.length_drop, String.length_toList]
  omega

end Text

open Text

/-- The first repetitions of a content are enough to begin like all of them. -/
theorem Content.exists_spells_samePrefix {c : Content} {k n : Nat} {w : String}
    (hw : c.Spells n w) (hkn : k ≤ n) : ∃ w', c.Spells k w' ∧ SamePrefix k w' w := by
  -- an empty repetition is left out, and any other takes one character at least
  induction n generalizing k w with
  | zero =>
    rw [Nat.le_zero.1 hkn]
    exact ⟨w, hw, .refl 0 w⟩
  | succ n ih =>
    cases k with
    | zero => exact ⟨"", rfl, rfl⟩
    | succ k =>
      obtain ⟨s, t, hs, ht, rfl⟩ := hw
      by_cases hempty : s = ""
      · rw [hempty, String.empty_append]
        obtain hle | heq := Nat.lt_or_eq_of_le hkn
        · exact ih ht (Nat.le_of_lt_succ hle)
        · obtain rfl : k = n := Nat.succ.inj heq
          exact ⟨t, ⟨s, t, hs, ht, by rw [hempty, String.empty_append]⟩, .refl _ t⟩
      · have hpos : s.length ≠ 0 := fun h => hempty (String.length_eq_zero_iff.1 h)
        obtain ⟨t', ht', hsame⟩ := ih ht (Nat.le_of_succ_le_succ hkn)
        exact ⟨s ++ t', ⟨s, t', hs, ht', rfl⟩, .append_left (hsame.mono (by omega))⟩

namespace Brick

variable {c : Content} {lo lo' : Count} {hi hi' : Bound}

/-- Two bricks over one content keep how a string begins when their ranges are added. -/
theorem exists_denotes_add (h : isBottom ⟨c, lo, hi⟩ = false)
    (h' : isBottom ⟨c, lo', hi'⟩ = false) {s t : String} (hs : Denotes ⟨c, lo, hi⟩ s)
    (ht : Denotes ⟨c, lo', hi'⟩ t) :
    ∃ w, Denotes ⟨c, lo + lo', hi + hi'⟩ w ∧ SamePrefix Count.cap w (s ++ t) := by
  have hsum : isBottom ⟨c, lo + lo', hi + hi'⟩ = false := not_isBottom_add h h'
  obtain ⟨j, hj, hhij, hs⟩ := (denotes_iff h).1 hs
  obtain ⟨k, hk, hhik, ht⟩ := (denotes_iff h').1 ht
  have hw : c.Spells (j + k) (s ++ t) := Content.spells_add.2 ⟨s, t, hs, ht, rfl⟩
  -- repetitions beyond the cap are given up
  have hkeep : ∃ w, c.Spells (min (j + k) Count.cap) w ∧ SamePrefix Count.cap w (s ++ t) := by
    by_cases hcap : j + k ≤ Count.cap
    · rw [Nat.min_eq_left hcap]
      exact ⟨s ++ t, hw, .refl _ _⟩
    · have hle : Count.cap ≤ j + k := Nat.le_of_not_le hcap
      rw [Nat.min_eq_right hle]
      exact Content.exists_spells_samePrefix hw hle
  obtain ⟨w, hw, hsame⟩ := hkeep
  have hlo : (lo + lo').toNat ≤ min (j + k) Count.cap := by
    rw [Count.toNat_add]
    simp only at hj hk
    omega
  have hhi : (hi + hi').Admits (min (j + k) Count.cap) := by
    cases hi with
    | infinite => simp [Bound.Admits]
    | finite m =>
      cases hi' with
      | infinite => simp [Bound.Admits]
      | finite m' =>
        have hjm : j ≤ m.toNat := hhij
        have hkm : k ≤ m'.toNat := hhik
        show min (j + k) Count.cap ≤ (m + m').toNat
        rw [Count.toNat_add]
        omega
  exact ⟨w, (denotes_iff hsum).2 ⟨_, hlo, hhi, hw⟩, hsame⟩

end Brick

namespace NormalForm

variable {l m : List Brick}

/-- The rules keep how a string begins, however long it is. -/
theorem Rewrites.exists_concatenates_samePrefix (h : Rewrites l m)
    (hl : l.any Brick.isBottom = false) {w : String} (hw : Concatenates l w) :
    ∃ w', Concatenates m w' ∧ SamePrefix Count.cap w' w := by
  refine h.induction_within_cap (motive := fun l m => ∀ w, Concatenates l w →
    ∃ w', Concatenates m w' ∧ SamePrefix Count.cap w' w) hl ?refl ?trans ?append ?equal ?within w hw
  case refl => exact fun l w hw => ⟨w, hw, .refl _ w⟩
  case trans =>
    intro l m n hlm hmn w hw
    obtain ⟨u, hu, hsame⟩ := hlm w hw
    obtain ⟨v, hv, hsame'⟩ := hmn u hu
    exact ⟨v, hv, hsame'.trans hsame⟩
  case append =>
    intro l l' m m' hl hm w hw
    obtain ⟨s, t, hs, ht, rfl⟩ := concatenates_append.1 hw
    obtain ⟨s', hs', hsame⟩ := hl s hs
    obtain ⟨t', ht', hsame'⟩ := hm t ht
    exact ⟨s' ++ t', concatenates_append.2 ⟨s', t', hs', ht', rfl⟩, hsame.append hsame'⟩
  case equal =>
    intro c lo lo' hi hi' hb hb' w hw
    obtain ⟨s, t, hs, ht, rfl⟩ := concatenates_pair.1 hw
    obtain ⟨u, hu, hsame⟩ := Brick.exists_denotes_add hb hb' hs ht
    exact ⟨u, concatenates_singleton.2 hu, hsame⟩
  case within =>
    intro l m h hl hfit w hw
    exact ⟨w, h.concatenates hl (.inl hfit) hw, .refl _ w⟩

end NormalForm

end StringBricks
