import StringBricks.Proofs.Brick.Order

/-!
# Repetition

When a brick stands for something at all (`Brick.not_isBottom_iff`), and how the strings of a
content behave under repetition: counts add up along concatenation (`Content.spells_add`), a power
stands for an exact count (`Content.allows_power`), and a short string needs few repetitions
(`Content.spells_of_length_le`).
-/

set_option autoImplicit false

namespace StringBricks

namespace StringSet

/-- Only the empty set is recognised as empty. -/
theorem isEmpty_iff {a : StringSet} : a.isEmpty = true ↔ a = .empty := by
  obtain ⟨l, hl⟩ := a
  cases l with
  | nil => exact ⟨fun _ => rfl, fun _ => rfl⟩
  | cons s l =>
    constructor
    · intro h
      cases h
    · intro h
      cases congrArg toList h

/-- A set without members is the empty one. -/
theorem eq_empty_iff {a : StringSet} : a = .empty ↔ ∀ s, s ∉ a := by
  constructor
  · intro h s
    rw [h]
    exact not_mem_empty s
  · intro h
    apply ext
    intro s
    exact ⟨fun hs => absurd hs (h s), fun hs => absurd hs (not_mem_empty s)⟩

/-- A set that is not empty has a member. -/
theorem ne_empty_iff {a : StringSet} : a ≠ .empty ↔ ∃ s, s ∈ a := by
  rw [Ne, eq_empty_iff]
  simp

/-- Members of two sets have a concatenation. -/
theorem cross_ne_empty {a b : StringSet} (ha : a ≠ .empty) (hb : b ≠ .empty) :
    a.cross b ≠ .empty := by
  obtain ⟨s, hs⟩ := ne_empty_iff.1 ha
  obtain ⟨t, ht⟩ := ne_empty_iff.1 hb
  exact ne_empty_iff.2 ⟨s ++ t, mem_cross.2 ⟨s, hs, t, ht, rfl⟩⟩

/-- The image of a member is a member of the image. -/
theorem map_ne_empty {a : StringSet} (ha : a ≠ .empty) (f : String → String) :
    a.map f ≠ .empty := by
  obtain ⟨s, hs⟩ := ne_empty_iff.1 ha
  exact ne_empty_iff.2 ⟨f s, mem_map.2 ⟨s, hs, rfl⟩⟩

/-- A member can be repeated. -/
theorem power_ne_empty {a : StringSet} (ha : a ≠ .empty) (k : Nat) : a.power k ≠ .empty := by
  cases k with
  | zero => exact ha
  | succ k =>
    induction k with
    | zero => exact ha
    | succ k ih =>
      rw [power_add_two]
      exact cross_ne_empty ih ha

end StringSet

namespace Brick

/-- A brick stands for something if its range is not empty and its set is empty exactly if the
largest count is zero. -/
theorem not_isBottom_iff {b : Brick} : b.isBottom = false ↔
    .finite b.lo ≤ b.hi ∧ ∀ a, b.content = .known a → (a = .empty ↔ b.hi = 0) := by
  obtain ⟨content, lo, hi⟩ := b
  by_cases hrange : Bound.finite lo ≤ hi
  · have hempty : hasEmptyRange ⟨content, lo, hi⟩ = false := by
      simpa [hasEmptyRange] using hrange
    -- a range that is not empty is zero as soon as its upper end is
    have hzero : hasZeroRange ⟨content, lo, hi⟩ = decide (hi = 0) := by
      by_cases hhi : hi = 0
      · have hlo : lo = 0 := Bound.finite_le_zero_iff.1 (hhi ▸ hrange)
        simp [hasZeroRange, hlo, hhi]
      · simp [hasZeroRange, hhi]
    rw [isBottom, hempty, hzero, Bool.false_or]
    cases content with
    | unknown => simp [hrange]
    | known a =>
      have hiff : (a.isEmpty != decide (hi = 0)) = false ↔ (a = .empty ↔ hi = 0) := by
        rw [← StringSet.isEmpty_iff]
        by_cases hhi : hi = 0 <;> simp [hhi]
      simp [hrange, hiff]
  · have hempty : hasEmptyRange ⟨content, lo, hi⟩ = true := by
      simpa [hasEmptyRange] using hrange
    simp [isBottom, hempty, hrange]

/-- A brick that stands for something may be repeated as often as it must be. -/
theorem lo_le_hi {b : Brick} (h : b.isBottom = false) : .finite b.lo ≤ b.hi :=
  (not_isBottom_iff.1 h).1

/-- A brick that may occur has a set with members, if its content is known. -/
theorem members_ne_empty {b : Brick} (h : b.isBottom = false) (hhi : b.hi ≠ 0) {a : StringSet}
    (ha : b.content = .known a) : a ≠ .empty :=
  fun hempty => hhi (((not_isBottom_iff.1 h).2 a ha).1 hempty)

/-- A brick that must occur may occur. -/
theorem hi_ne_zero {b : Brick} (h : b.isBottom = false) (hlo : 1 ≤ b.lo.toNat) : b.hi ≠ 0 := by
  intro hhi
  have hzero : b.lo = 0 := Bound.finite_le_zero_iff.1 (hhi ▸ lo_le_hi h)
  rw [hzero, Count.toNat_zero] at hlo
  omega

/-- The filler is the only brick of its shape that stands for something. -/
theorem eq_filler {b : Brick} (h : b.isBottom = false) (hcontent : b.content = .known .empty) :
    b = filler := by
  obtain ⟨hrange, hset⟩ := not_isBottom_iff.1 h
  obtain ⟨content, lo, hi⟩ := b
  have hhi : hi = 0 := (hset .empty hcontent).1 rfl
  have hlo : lo = 0 := Bound.finite_le_zero_iff.1 (hhi ▸ hrange)
  simp only at hcontent
  rw [hcontent, hlo, hhi]
  rfl

/-- What a brick that stands for something denotes. -/
theorem denotes_iff {b : Brick} (h : b.isBottom = false) {w : String} :
    b.Denotes w ↔ ∃ k, b.lo.toNat ≤ k ∧ b.hi.Admits k ∧ b.content.Spells k w := by
  unfold Denotes
  simp [h]

end Brick

namespace Content

/-- Repetitions of one content concatenate to as many repetitions as there are together. -/
theorem spells_add {c : Content} {j k : Nat} {w : String} :
    c.Spells (j + k) w ↔ ∃ s t, c.Spells j s ∧ c.Spells k t ∧ w = s ++ t := by
  induction j generalizing w with
  | zero => simp
  | succ j ih =>
    rw [Nat.add_right_comm, spells_succ]
    constructor
    · rintro ⟨r, u, hr, hu, rfl⟩
      obtain ⟨s, t, hs, ht, rfl⟩ := ih.1 hu
      exact ⟨r ++ s, t, ⟨r, s, hr, hs, rfl⟩, ht, String.append_assoc.symm⟩
    · rintro ⟨s, t, ⟨r, s', hr, hs', rfl⟩, ht, rfl⟩
      exact ⟨r, s' ++ t, hr, ih.2 ⟨s', t, hs', ht, rfl⟩, String.append_assoc⟩

/-- Any string is any number of arbitrary strings, as long as that is not zero. -/
theorem spells_unknown {k : Nat} (hk : 1 ≤ k) (w : String) : Content.unknown.Spells k w := by
  induction k with
  | zero => omega
  | succ k ih =>
    cases k with
    | zero => exact spells_one.2 trivial
    | succ k => exact ⟨"", w, trivial, ih (by omega), String.empty_append.symm⟩

/-- A power allows what its exponent of repetitions spells. -/
theorem allows_power {c : Content} {k : Nat} (hk : 1 ≤ k) {w : String} :
    (c.power k).Allows w ↔ c.Spells k w := by
  cases c with
  | unknown => exact ⟨fun _ => spells_unknown hk w, fun _ => trivial⟩
  | known a =>
    show w ∈ a.power k ↔ (known a).Spells k w
    obtain ⟨k, rfl⟩ : ∃ n, k = n + 1 := ⟨k - 1, by omega⟩
    clear hk
    induction k generalizing w with
    | zero => exact (spells_one (c := known a)).symm
    | succ k ih =>
      rw [StringSet.power_add_two, StringSet.mem_cross, spells_add]
      constructor
      · rintro ⟨s, hs, t, ht, rfl⟩
        exact ⟨s, t, ih.1 hs, spells_one.2 ht, rfl⟩
      · rintro ⟨s, t, hs, ht, rfl⟩
        exact ⟨s, ih.2 hs, t, spells_one.1 ht, rfl⟩

/-- Repetitions beyond the length of the string contribute nothing to it, and can be left out. -/
theorem spells_of_length_le {c : Content} {k n : Nat} {w : String} (hw : c.Spells n w)
    (hlen : w.length ≤ k) (hkn : k ≤ n) : c.Spells k w := by
  -- one repetition at a time: an empty one is left out, and after any other the rest is shorter
  have hpred : ∀ (n : Nat) (w : String), c.Spells (n + 1) w → w.length ≤ n → c.Spells n w := by
    intro n
    induction n with
    | zero =>
      intro w _ hlen
      exact spells_zero.2 (String.length_eq_zero_iff.1 (Nat.le_zero.1 hlen))
    | succ n ih =>
      rintro w ⟨s, t, hs, ht, rfl⟩ hlen
      by_cases hempty : s = ""
      · rw [hempty, String.empty_append]
        exact ht
      · have hpos : s.length ≠ 0 := fun h => hempty (String.length_eq_zero_iff.1 h)
        have hshort : t.length ≤ n := by
          rw [String.length_append] at hlen
          omega
        exact ⟨s, t, hs, ih t ht hshort, rfl⟩
  induction hkn with
  | refl => exact hw
  | @step n hkn ih => exact ih (hpred n w hw (Nat.le_trans hlen hkn))

end Content

end StringBricks
