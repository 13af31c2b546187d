import StringBricks.Proofs.BrickSeq.Containment

/-!
# The characters of a sequence

The tests on bricks are exact: a brick must contain a character exactly if all its strings do, and
may contain it exactly if one of them does, as long as the brick stands for something. No rule of
the normal form changes which characters must and may occur, not even where a sum of counts
saturates and strings are lost (`NormalForm.Rewrites.any_contain`). So the containment test answers
exactly for a single character (`BrickSeq.contains_character_exact`).
-/

set_option autoImplicit false

namespace StringBricks

open NormalForm

/-! ## Strings with and without a character -/

section Repeated

variable {content : Content} {c : Char} {s : String}

/-- One string over and over is a repetition of every content that allows it. -/
theorem Content.spells_repeat (hs : content.Allows s) (k : Nat) :
    content.Spells k (Nat.repeat (s ++ ·) k "") := by
  induction k with
  | zero => rfl
  | succ k ih => exact ⟨s, _, hs, ih, rfl⟩

/-- A character that is not in a string is not in its repetitions. -/
theorem not_mem_repeat (h : c ∉ s.toList) (k : Nat) :
    c ∉ (Nat.repeat (s ++ ·) k "").toList := by
  induction k with
  | zero => exact List.not_mem_nil
  | succ k ih =>
    show c ∉ (s ++ Nat.repeat (s ++ ·) k "").toList
    rw [String.toList_append, List.mem_append, not_or]
    exact ⟨h, ih⟩

/-- A character of a string is in its repetitions, if there are any. -/
theorem mem_repeat (h : c ∈ s.toList) {k : Nat} (hk : 1 ≤ k) :
    c ∈ (Nat.repeat (s ++ ·) k "").toList := by
  obtain ⟨k, rfl⟩ := Nat.exists_eq_add_of_le' hk
  show c ∈ (s ++ Nat.repeat (s ++ ·) k "").toList
  rw [String.toList_append]
  exact List.mem_append_left _ h

end Repeated

/-- Every bound but zero is above it. -/
theorem Bound.pos_iff {a : Bound} : 0 < a ↔ a ≠ 0 := bot_lt_iff_ne_bot

namespace Brick

variable {b : Brick} {c : Char}

/-- A brick that must occur allows some string at each repetition. -/
theorem exists_allows (hb : b.isBottom = false) (hhi : b.hi ≠ 0) : ∃ s, b.content.Allows s := by
  cases hc : b.content with
  | unknown => exact ⟨"", trivial⟩
  | known members => exact StringSet.ne_empty_iff.1 (members_ne_empty hb hhi hc)

/-- The smallest number of repetitions of one string. -/
theorem denotes_repeat_lo (hb : b.isBottom = false) {s : String}
    (hs : 1 ≤ b.lo.toNat → b.content.Allows s) :
    b.Denotes (Nat.repeat (s ++ ·) b.lo.toNat "") := by
  refine (denotes_iff hb).2 ⟨b.lo.toNat, Nat.le_refl _, Bound.admits_toNat_iff.2 (lo_le_hi hb), ?_⟩
  by_cases hlo : 1 ≤ b.lo.toNat
  · exact Content.spells_repeat (hs hlo) _
  · have hzero : b.lo.toNat = 0 := by omega
    rw [hzero]
    rfl

/-- A brick that stands for something has a string. -/
theorem exists_denotes (hb : b.isBottom = false) : ∃ w, b.Denotes w := by
  by_cases hlo : 1 ≤ b.lo.toNat
  · obtain ⟨s, hs⟩ := exists_allows hb (hi_ne_zero hb hlo)
    exact ⟨_, denotes_repeat_lo hb fun _ => hs⟩
  · exact ⟨_, denotes_repeat_lo (s := "") hb fun h => absurd h hlo⟩

/-- A brick that need not contain the character has a string without it. -/
theorem exists_denotes_not_mem (hb : b.isBottom = false) (h : b.mustContain c = false) :
    ∃ w, b.Denotes w ∧ c ∉ w.toList := by
  have hs : ∃ s : String, (1 ≤ b.lo.toNat → b.content.Allows s) ∧ c ∉ s.toList := by
    unfold mustContain at h
    cases hc : b.content with
    | unknown => exact ⟨"", fun _ => trivial, List.not_mem_nil⟩
    | known members =>
      rw [hc] at h
      by_cases hlo : 1 ≤ b.lo.toNat
      · have hguaranteed : b.isGuaranteed = true := decide_eq_true hlo
        simp only [hguaranteed, Bool.true_and, List.all_eq_false] at h
        obtain ⟨s, hs, hnot⟩ := h
        exact ⟨s, fun _ => hs, by simpa using hnot⟩
      · exact ⟨"", fun h => absurd h hlo, List.not_mem_nil⟩
  obtain ⟨s, hs, hnot⟩ := hs
  exact ⟨_, denotes_repeat_lo hb hs, not_mem_repeat hnot _⟩

/-- A brick that may contain the character has a string with it. -/
theorem exists_denotes_mem (hb : b.isBottom = false) (h : b.mayContain c = true) :
    ∃ w, b.Denotes w ∧ c ∈ w.toList := by
  have hs : ∃ s : String, b.content.Allows s ∧ c ∈ s.toList ∧ b.hi ≠ 0 := by
    unfold mayContain at h
    cases hc : b.content with
    | unknown =>
      rw [hc] at h
      have hpos : (0 : Bound) < b.hi := of_decide_eq_true h
      refine ⟨String.singleton c, trivial, by simp, ?_⟩
      intro hhi
      rw [hhi] at hpos
      exact absurd hpos (by decide)
    | known members =>
      rw [hc] at h
      obtain ⟨s, hs, hmem⟩ := List.any_eq_true.1 h
      refine ⟨s, hs, by simpa using hmem, ?_⟩
      intro hhi
      have hempty := ((not_isBottom_iff.1 hb).2 members hc).2 hhi
      rw [hempty] at hs
      exact StringSet.not_mem_empty s hs
  obtain ⟨s, hs, hmem, hhi⟩ := hs
  have hk : 1 ≤ max b.lo.toNat 1 := Nat.le_max_right _ _
  refine ⟨_, (denotes_iff hb).2 ⟨max b.lo.toNat 1, Nat.le_max_left _ _, ?_,
    Content.spells_repeat hs _⟩, mem_repeat hmem hk⟩
  have hrange := lo_le_hi hb
  cases hi : b.hi with
  | infinite => trivial
  | finite n =>
    rw [hi] at hrange hhi
    have hlo : b.lo.toNat ≤ n.toNat := hrange
    have hpos : n.toNat ≠ 0 := fun hzero => hhi (congrArg Bound.finite (Count.ext hzero))
    show max b.lo.toNat 1 ≤ n.toNat
    omega

end Brick

namespace Brick

variable (content : Content) (lo lo' : Count) (hi hi' : Bound) (c : Char)

/-- Of two bricks over one content, one must contain the character exactly if their sum must. -/
theorem mustContain_add : mustContain ⟨content, lo + lo', hi + hi'⟩ c =
    (mustContain ⟨content, lo, hi⟩ c || mustContain ⟨content, lo', hi'⟩ c) := by
  have hguaranteed : isGuaranteed ⟨content, lo + lo', hi + hi'⟩ =
      (isGuaranteed ⟨content, lo, hi⟩ || isGuaranteed ⟨content, lo', hi'⟩) := by
    have hcap : 1 ≤ Count.cap := by decide
    rw [Bool.eq_iff_iff]
    simp only [isGuaranteed, Bool.or_eq_true, decide_eq_true_eq, Count.le_iff, Count.toNat_add,
      Count.toNat_one]
    omega
  cases content with
  | unknown => rfl
  | known members =>
    simp only [mustContain]
    rw [hguaranteed, Bool.and_or_distrib_right]

/-- Of two bricks over one content, one may contain the character exactly if their sum may. -/
theorem mayContain_add : mayContain ⟨content, lo + lo', hi + hi'⟩ c =
    (mayContain ⟨content, lo, hi⟩ c || mayContain ⟨content, lo', hi'⟩ c) := by
  cases content with
  | unknown =>
    rw [Bool.eq_iff_iff]
    simp only [mayContain, Bool.or_eq_true, decide_eq_true_eq, Bound.pos_iff, Ne,
      Bound.add_eq_zero_iff]
    exact Decidable.not_and_iff_not_or_not
  | known members =>
    simp only [mayContain, Bool.or_self]

end Brick

namespace NormalForm

variable {l m : List Brick} {c : Char}

/-! ## Lists of bricks -/

/-- Bricks that all stand for something have a common concatenation. -/
theorem exists_concatenates (hl : l.any Brick.isBottom = false) : ∃ w, Concatenates l w := by
  induction l with
  | nil => exact ⟨"", rfl⟩
  | cons b l ih =>
    rw [List.any_cons, Bool.or_eq_false_iff] at hl
    obtain ⟨s, hs⟩ := Brick.exists_denotes hl.1
    obtain ⟨t, ht⟩ := ih hl.2
    exact ⟨s ++ t, s, t, hs, ht, rfl⟩

/-- Some brick of a list must contain the character exactly if all strings of the list do. -/
theorem any_mustContain_iff (hl : l.any Brick.isBottom = false) :
    l.any (·.mustContain c) = true ↔ ∀ w, Concatenates l w → c ∈ w.toList := by
  constructor
  · intro h w hw
    exact BrickSeq.mem_of_any_mustContain h hw
  · intro h
    by_contra hmust
    rw [Bool.not_eq_true] at hmust
    have hwithout : ∃ w, Concatenates l w ∧ c ∉ w.toList := by
      clear h
      induction l with
      | nil => exact ⟨"", rfl, List.not_mem_nil⟩
      | cons b l ih =>
        rw [List.any_cons, Bool.or_eq_false_iff] at hl hmust
        obtain ⟨s, hs, hsc⟩ := Brick.exists_denotes_not_mem hl.1 hmust.1
        obtain ⟨t, ht, htc⟩ := ih hl.2 hmust.2
        refine ⟨s ++ t, ⟨s, t, hs, ht, rfl⟩, ?_⟩
        rw [String.toList_append, List.mem_append, not_or]
        exact ⟨hsc, htc⟩
    obtain ⟨w, hw, hnot⟩ := hwithout
    exact hnot (h w hw)

/-- Some brick of a list may contain the character exactly if some string of the list does. -/
theorem any_mayContain_iff (hl : l.any Brick.isBottom = false) :
    l.any (·.mayContain c) = true ↔ ∃ w, Concatenates l w ∧ c ∈ w.toList := by
  constructor
  · intro h
    induction l with
    | nil => cases h
    | cons b l ih =>
      rw [List.any_cons, Bool.or_eq_false_iff] at hl
      rw [List.any_cons, Bool.or_eq_true] at h
      cases h with
      | inl hb =>
        obtain ⟨s, hs, hsc⟩ := Brick.exists_denotes_mem hl.1 hb
        obtain ⟨t, ht⟩ := exists_concatenates hl.2
        refine ⟨s ++ t, ⟨s, t, hs, ht, rfl⟩, ?_⟩
        rw [String.toList_append]
        exact List.mem_append_left _ hsc
      | inr hrest =>
        obtain ⟨s, hs⟩ := Brick.exists_denotes hl.1
        obtain ⟨t, ht, htc⟩ := ih hl.2 hrest
        refine ⟨s ++ t, ⟨s, t, hs, ht, rfl⟩, ?_⟩
        rw [String.toList_append]
        exact List.mem_append_right _ htc
  · rintro ⟨w, hw, hmem⟩
    by_contra hmay
    rw [Bool.not_eq_true] at hmay
    exact BrickSeq.not_mem_of_any_mayContain hmay hw hmem

/-! ## What the rules keep -/

namespace Rewrites

/-- Rewritten without loss, a list has the characters that it had. -/
theorem any_contain_of_totalWeight_le (h : Rewrites l m) (hl : l.any Brick.isBottom = false)
    (hfit : totalWeight l ≤ Count.cap) (c : Char) :
    m.any (·.mustContain c) = l.any (·.mustContain c) ∧
      m.any (·.mayContain c) = l.any (·.mayContain c) := by
  have hm := h.any_isBottom hl
  have hsame : ∀ w, Concatenates m w ↔ Concatenates l w := fun w =>
    ⟨h.concatenates_of hl hfit, h.concatenates hl (.inl hfit)⟩
  constructor
  · rw [Bool.eq_iff_iff, any_mustContain_iff hm, any_mustContain_iff hl]
    simp only [hsame]
  · rw [Bool.eq_iff_iff, any_mayContain_iff hm, any_mayContain_iff hl]
    simp only [hsame]

/-- No rule changes which characters must and may occur. -/
theorem any_contain (h : Rewrites l m) (hl : l.any Brick.isBottom = false) (c : Char) :
    m.any (·.mustContain c) = l.any (·.mustContain c) ∧
      m.any (·.mayContain c) = l.any (·.mayContain c) := by
  refine h.induction_within_cap (motive := fun l m =>
    m.any (·.mustContain c) = l.any (·.mustContain c) ∧
      m.any (·.mayContain c) = l.any (·.mayContain c)) hl ?refl ?trans ?append ?equal ?within
  case refl => exact fun l => ⟨rfl, rfl⟩
  case trans =>
    intro l m n hlm hmn
    exact ⟨hmn.1.trans hlm.1, hmn.2.trans hlm.2⟩
  case append =>
    intro l l' m m' hl hm
    simp only [List.any_append]
    rw [hl.1, hl.2, hm.1, hm.2]
    exact ⟨rfl, rfl⟩
  case equal =>
    -- the sum of the counts may saturate here, but it is zero only if both are
    intro content lo lo' hi hi' _ _
    simp only [List.any_cons, List.any_nil, Bool.or_false]
    exact ⟨Brick.mustContain_add content lo lo' hi hi' c,
      Brick.mayContain_add content lo lo' hi hi' c⟩
  case within =>
    intro l m h hl hfit
    exact h.any_contain_of_totalWeight_le hl hfit c

end Rewrites

end NormalForm

/-! ## The containment test -/

namespace BrickSeq

open NormalForm

variable {x : BrickSeq} {c : Char}

/-- The literal of a character is told to be that character. -/
theorem asChar?_literal (c : Char) : (literal (String.singleton c)).asChar? = some c := by
  have hliteral : (literal (String.singleton c)).asLiteral? = some (String.singleton c) := rfl
  rw [asChar?, hliteral, Option.bind_some, String.toList_singleton]

/-- The answer for a character, read off the bricks as they are. -/
theorem contains_literal (hx : x.isBottom = false) :
    x.contains (literal (String.singleton c)) =
      if x.bricks.any (·.mustContain c) then .holds
      else if x.bricks.any (·.mayContain c) then .unknown
      else .fails := by
  have hbricks := any_isBottom_of_not_isBottom hx
  obtain ⟨hmust, hmay⟩ := (rewrites_normalizeWithin maxCycles hbricks).any_contain hbricks c
  unfold contains
  rw [hx, asChar?_literal]
  simp only [Bool.false_eq_true, if_false]
  rw [normalize, hmust, hmay]

/-- A sequence without bricks for no string stands for the concatenations of its bricks. -/
theorem denotes_iff_of_not_isBottom (hx : x.isBottom = false) {w : String} :
    x.Denotes w ↔ Concatenates x.bricks w := by
  have hne : x.bricks ≠ [] := by
    intro hnil
    rw [isBottom, hnil] at hx
    cases hx
  exact and_iff_right hne

/-- **Containment of a character is exact**: the test answers that it holds exactly if all strings
of the sequence have the character, that it fails exactly if there are strings and none has it, and
otherwise that it is unknown. -/
theorem contains_character_exact (x : BrickSeq) (c : Char) :
    (x.contains (literal (String.singleton c)) = .holds ↔ ∀ w, x.Denotes w → c ∈ w.toList) ∧
    (x.contains (literal (String.singleton c)) = .fails ↔
      (∃ w, x.Denotes w) ∧ ∀ w, x.Denotes w → c ∉ w.toList) ∧
    (x.contains (literal (String.singleton c)) = .unknown ↔
      ¬ (∀ w, x.Denotes w → c ∈ w.toList) ∧
        ¬ ((∃ w, x.Denotes w) ∧ ∀ w, x.Denotes w → c ∉ w.toList)) := by
  by_cases hx : x.isBottom = true
  · have hnone : ∀ w, ¬ x.Denotes w := not_denotes_of_isBottom hx
    have hholds : x.contains (literal (String.singleton c)) = .holds := if_pos hx
    simp [hholds, hnone]
  · rw [Bool.not_eq_true] at hx
    have hbricks := any_isBottom_of_not_isBottom hx
    simp only [denotes_iff_of_not_isBottom hx]
    obtain ⟨w, hw⟩ := exists_concatenates hbricks
    have hall := any_mustContain_iff (c := c) hbricks
    have hnone : x.bricks.any (·.mayContain c) = false ↔
        (∃ w, Concatenates x.bricks w) ∧ ∀ w, Concatenates x.bricks w → c ∉ w.toList := by
      rw [and_iff_right ⟨w, hw⟩, ← Bool.not_eq_true, any_mayContain_iff hbricks]
      simp
    rw [contains_literal hx, ← hall, ← hnone]
    cases hmust : x.bricks.any (·.mustContain c) with
    | true =>
      have hmay : x.bricks.any (·.mayContain c) = true :=
        (any_mayContain_iff hbricks).2 ⟨w, hw, hall.1 hmust w hw⟩
      simp [hmay]
    | false => cases x.bricks.any (·.mayContain c) <;> simp

end BrickSeq

end StringBricks
