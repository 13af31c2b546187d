import StringBricks.Proofs.NormalForm.Merging

/-!
# How long the strings of a list can be

The extent of a set is the length of its longest string. It is added up by products and multiplied
by powers, so the length of what must occur, with the longest string at each repetition, is the same
before and after each rule, or smaller where a sum of counts saturates
(`NormalForm.Rewrites.mandatoryLength_le`).
-/

set_option autoImplicit false

namespace StringBricks

namespace StringSet

variable {a b : StringSet} {n : Nat}

/-- The length of the longest string, and zero if there is none. -/
def extent (a : StringSet) : Nat := a.toList.foldr (fun s n => max s.length n) 0

/-- The extent is the least bound on the lengths of the members. -/
theorem extent_le_iff : a.extent ≤ n ↔ ∀ s ∈ a, s.length ≤ n := by
  have hlist : ∀ l : List String,
      l.foldr (fun s n => max s.length n) 0 ≤ n ↔ ∀ s ∈ l, s.length ≤ n := by
    intro l
    induction l with
    | nil => simp
    | cons s l ih => rw [List.foldr_cons, Nat.max_le, ih, List.forall_mem_cons]
  exact hlist a.toList

/-- No member is longer than the extent. -/
theorem length_le_extent {s : String} (hs : s ∈ a) : s.length ≤ a.extent :=
  extent_le_iff.1 (Nat.le_refl _) s hs

/-- A set with members has one that is as long as its extent. -/
theorem exists_length_eq_extent (ha : a ≠ .empty) : ∃ s ∈ a, s.length = a.extent := by
  by_contra hnone
  have hshort : ∀ s ∈ a, s.length < a.extent := by
    intro s hs
    refine Nat.lt_of_le_of_ne (length_le_extent hs) ?_
    exact fun heq => hnone ⟨s, hs, heq⟩
  obtain ⟨s, hs⟩ := ne_empty_iff.1 ha
  have hle : a.extent ≤ a.extent - 1 :=
    extent_le_iff.2 fun t ht => Nat.le_sub_one_of_lt (hshort t ht)
  have hpos := hshort s hs
  omega

/-- A union has no member that is longer than those of both sets. -/
theorem extent_union_le (a b : StringSet) : (a.union b).extent ≤ max a.extent b.extent := by
  rw [extent_le_iff]
  intro s hs
  cases mem_union.1 hs with
  | inl ha => exact Nat.le_trans (length_le_extent ha) (Nat.le_max_left _ _)
  | inr hb => exact Nat.le_trans (length_le_extent hb) (Nat.le_max_right _ _)

/-- No product of two members is longer than the longest of them one after the other. -/
theorem extent_cross_le (a b : StringSet) : (a.cross b).extent ≤ a.extent + b.extent := by
  rw [extent_le_iff]
  intro u hu
  obtain ⟨s, hs, t, ht, rfl⟩ := mem_cross.1 hu
  rw [String.length_append]
  exact Nat.add_le_add (length_le_extent hs) (length_le_extent ht)

/-- The longest members of two sets make up the longest one of their product. -/
theorem extent_cross (ha : a ≠ .empty) (hb : b ≠ .empty) :
    (a.cross b).extent = a.extent + b.extent := by
  apply Nat.le_antisymm (extent_cross_le a b)
  obtain ⟨s, hs, hslen⟩ := exists_length_eq_extent ha
  obtain ⟨t, ht, htlen⟩ := exists_length_eq_extent hb
  rw [← hslen, ← htlen, ← String.length_append]
  exact length_le_extent (mem_cross.2 ⟨s, hs, t, ht, rfl⟩)

/-- The longest member of a power repeats the longest member of the set. -/
theorem extent_power (ha : a ≠ .empty) {k : Nat} (hk : 1 ≤ k) :
    (a.power k).extent = k * a.extent := by
  obtain ⟨k, rfl⟩ := Nat.exists_eq_add_of_le' hk
  clear hk
  induction k with
  | zero => simp
  | succ k ih =>
    rw [power_add_two, extent_cross (power_ne_empty ha _) ha, ih, Nat.succ_mul (k + 1)]

/-- Only the set of the empty string has members and no extent. -/
theorem eq_singleton_of_extent (ha : a ≠ .empty) (h : a.extent = 0) : a = .singleton "" := by
  have hempty : ∀ s ∈ a, s = "" := by
    intro s hs
    exact String.length_eq_zero_iff.1 (Nat.le_zero.1 (h ▸ length_le_extent hs))
  obtain ⟨t, ht⟩ := ne_empty_iff.1 ha
  apply ext
  intro s
  rw [mem_singleton]
  constructor
  · exact hempty s
  · rintro rfl
    exact hempty t ht ▸ ht

end StringSet

namespace Content

variable {c : Content}

/-- The length of the longest string that is known to be allowed. -/
def extent : Content → Nat
  | known members => members.extent
  | unknown => 0

/-- The longest string of a power repeats the longest one of the content. -/
theorem extent_power (hc : c ≠ .known .empty) {k : Nat} (hk : 1 ≤ k) :
    (c.power k).extent = k * c.extent := by
  cases c with
  | unknown => rfl
  | known a => exact StringSet.extent_power (by simpa using hc) hk

/-- Content without extent is its own power. -/
theorem power_of_extent (hc : c ≠ .known .empty) (h : c.extent = 0) {k : Nat} (hk : 1 ≤ k) :
    c.power k = c := by
  cases c with
  | unknown => rfl
  | known a =>
    have ha : a ≠ .empty := by simpa using hc
    have hzero : a.extent = 0 := h
    have hpower : (a.power k).extent = 0 := by
      rw [StringSet.extent_power ha hk, hzero, Nat.mul_zero]
    have hsame : a.power k = a :=
      (StringSet.eq_singleton_of_extent (StringSet.power_ne_empty ha k) hpower).trans
        (StringSet.eq_singleton_of_extent ha hzero).symm
    exact congrArg known hsame

/-- A join allows no known string that is longer than those of both contents. -/
theorem extent_join_le (c d : Content) : (c.join d).extent ≤ max c.extent d.extent := by
  cases c with
  | unknown => exact Nat.zero_le _
  | known a =>
    cases d with
    | unknown => exact Nat.zero_le _
    | known b => exact StringSet.extent_union_le a b

end Content

/-- The length of what must occur of a brick, with the longest string at each repetition. -/
def Brick.mandatoryLength (b : Brick) : Nat := b.lo.toNat * b.content.extent

namespace NormalForm

variable {l m : List Brick}

/-- The length of what must occur in a list, with the longest string at each repetition. -/
def mandatoryLength (l : List Brick) : Nat := total Brick.mandatoryLength l

/-- Nothing must occur in the empty list. -/
@[simp] theorem mandatoryLength_nil : mandatoryLength [] = 0 := rfl

/-- What must occur of the first brick adds to the length. -/
@[simp] theorem mandatoryLength_cons (b : Brick) (l : List Brick) :
    mandatoryLength (b :: l) = b.mandatoryLength + mandatoryLength l := rfl

/-- The lengths of what must occur in two lists add up. -/
theorem mandatoryLength_append (l m : List Brick) :
    mandatoryLength (l ++ m) = mandatoryLength l + mandatoryLength m :=
  total_append _ l m

/-- No rule adds to the length of what must occur. -/
theorem Rewrites.mandatoryLength_le (h : Rewrites l m) (hl : l.any Brick.isBottom = false) :
    mandatoryLength m ≤ mandatoryLength l := by
  induction h with
  | refl l => exact Nat.le_refl _
  | trans h₁ _ ih₁ ih₂ => exact Nat.le_trans (ih₂ (h₁.any_isBottom hl)) (ih₁ hl)
  | append _ _ ih₁ ih₂ =>
    rw [List.any_append, Bool.or_eq_false_iff] at hl
    rw [mandatoryLength_append, mandatoryLength_append]
    exact Nat.add_le_add (ih₁ hl.1) (ih₂ hl.2)
  | filler => exact Nat.zero_le _
  | single s t =>
    have hcross := StringSet.extent_cross_le s t
    simp only [mandatoryLength_cons, mandatoryLength_nil, Brick.mandatoryLength, Count.toNat_one,
      Content.extent]
    omega
  | @collapse c k hk =>
    simp only [List.any_cons, List.any_nil, Bool.or_false] at hl
    have hc : c ≠ .known .empty := by
      rintro rfl
      exact Brick.members_ne_empty hl (Brick.hi_ne_zero hl (Nat.le_of_succ_le hk)) rfl rfl
    simp only [mandatoryLength_cons, mandatoryLength_nil, Brick.mandatoryLength, Count.toNat_one,
      Nat.one_mul]
    rw [Content.extent_power hc (Nat.le_of_succ_le hk)]
  | equal c lo lo' hi hi' =>
    have hsum : (lo + lo').toNat ≤ lo.toNat + lo'.toNat := Nat.min_le_left _ _
    have hmul := Nat.mul_le_mul_right c.extent hsum
    rw [Nat.add_mul] at hmul
    simp only [mandatoryLength_cons, mandatoryLength_nil, Brick.mandatoryLength]
    omega
  | split c hlo hlt hrest => simp [Brick.mandatoryLength]

end NormalForm

end StringBricks
