import StringBricks.Brick.Order
import StringBricks.Brick.Language
import StringBricks.Proofs.Bound
import StringBricks.Proofs.Canonical

/-!
# The order of bricks

The order of bricks is reflexive and transitive, has `Brick.top` above everything, and is sound: a
brick has all the strings of the bricks below it (`Brick.denotes_of_le`). Nothing is asked of the
bricks, so those for no string are covered too. Bricks that stand for something are ordered as their
contents and their ranges are (`Brick.le_iff_inside`).
-/

set_option autoImplicit false

namespace StringBricks

namespace Bound

/-- A larger bound admits more repetitions. -/
theorem admits_of_le {a b : Bound} {k : Nat} (hab : a ≤ b) (hk : a.Admits k) : b.Admits k := by
  cases b with
  | infinite => trivial
  | finite n =>
    cases a with
    | infinite => simp at hab
    | finite m => exact Nat.le_trans hk hab

/-- A bound admits the counts that are at most the bound. -/
theorem admits_toNat_iff {a : Bound} {n : Count} : a.Admits n.toNat ↔ .finite n ≤ a := by
  cases a with
  | infinite => simp [Admits]
  | finite m => exact Iff.rfl

end Bound

namespace Content

/-- Every content allows what it allows. -/
theorem le_refl (c : Content) : c.le c = true := by
  cases c with
  | unknown => rfl
  | known members => exact StringSet.isSubset_iff.2 fun s hs => hs

/-- What a content allows, every content above the ones above it allows. -/
theorem le_trans {a b c : Content} (hab : a.le b = true) (hbc : b.le c = true) :
    a.le c = true := by
  cases c with
  | unknown => cases a <;> rfl
  | known u =>
    cases b with
    | unknown => cases hbc
    | known v =>
      cases a with
      | unknown => cases hab
      | known w =>
        have hsub : ∀ s, s ∈ w → s ∈ u := by
          intro s hs
          apply StringSet.isSubset_iff.1 hbc
          exact StringSet.isSubset_iff.1 hab s hs
        exact StringSet.isSubset_iff.2 hsub

/-- Unknown content allows every string. -/
@[simp] theorem le_unknown (c : Content) : c.le .unknown = true := by cases c <;> rfl

/-- Only unknown content is above unknown content. -/
@[simp] theorem unknown_le_iff {c : Content} : Content.unknown.le c = true ↔ c = .unknown := by
  cases c with
  | unknown => simp
  | known members => simp [le]

/-- The empty set is the least content. -/
@[simp] theorem empty_le (c : Content) : (Content.known .empty).le c = true := by
  cases c with
  | unknown => rfl
  | known members =>
    apply StringSet.isSubset_iff.2
    intro s hs
    simp at hs

/-- Only the empty set is below the empty set. -/
theorem le_empty_iff {c : Content} : c.le (.known .empty) = true ↔ c = .known .empty := by
  constructor
  · intro h
    cases c with
    | unknown => cases h
    | known members =>
      have hnone := StringSet.isSubset_iff.1 h
      have hempty : members = .empty := by
        apply StringSet.ext
        intro s
        exact ⟨hnone s, fun hs => absurd hs (StringSet.not_mem_empty s)⟩
      rw [hempty]
  · intro h
    rw [h]
    exact le_refl _

/-- A content allows the strings that those below it allow. -/
theorem allows_of_le {a b : Content} (h : a.le b = true) {s : String} (hs : a.Allows s) :
    b.Allows s := by
  cases b with
  | unknown => trivial
  | known u =>
    cases a with
    | unknown => cases h
    | known v => exact StringSet.isSubset_iff.1 h s hs

/-- A larger content spells more strings with the same number of repetitions. -/
theorem spells_of_le {a b : Content} (h : a.le b = true) {k : Nat} {w : String}
    (hw : a.Spells k w) : b.Spells k w := by
  induction k generalizing w with
  | zero => exact hw
  | succ k ih =>
    obtain ⟨s, t, hs, ht, heq⟩ := hw
    exact ⟨s, t, allows_of_le h hs, ih ht, heq⟩

end Content

namespace Brick

/-- The top brick stands for something. -/
theorem not_isBottom_top : top.isBottom = false := by decide

/-- The filler stands for something. -/
theorem not_isBottom_filler : filler.isBottom = false := by decide

/-- The bottom brick stands for no string. -/
theorem isBottom_bottom : bottom.isBottom = true := by decide

/-- The top brick is recognised as such. -/
theorem isTop_top : top.isTop = true := isTop_iff.2 rfl

/-- The order, read off case by case. -/
theorem le_iff {a b : Brick} : a.le b = true ↔
    a.isBottom = true ∨ b = top ∨
      (b.isBottom = false ∧ a.content.le b.content = true ∧ b.lo ≤ a.lo ∧ a.hi ≤ b.hi) := by
  unfold le
  rw [Bool.or_eq_true, Bool.or_eq_true, isTop_iff, or_assoc]
  simp [and_assoc]

/-- A brick for no string is below every other one. -/
theorem le_of_isBottom {a : Brick} (h : a.isBottom = true) (b : Brick) : a.le b = true :=
  le_iff.2 (.inl h)

/-- Every brick is below the brick for every string. -/
@[simp] theorem le_top (a : Brick) : a.le top = true := le_iff.2 (.inr (.inl rfl))

/-- Whether `b` has at least the content and the range of `a`. -/
structure Inside (a b : Brick) : Prop where
  content_le : a.content.le b.content = true
  lo_le : b.lo ≤ a.lo
  hi_le : a.hi ≤ b.hi

/-- Every brick is inside itself. -/
theorem Inside.refl (a : Brick) : a.Inside a :=
  ⟨Content.le_refl _, Nat.le_refl _, le_rfl⟩

/-- Inside a brick that is inside another one, a brick is inside that one. -/
theorem Inside.trans {a b c : Brick} (hab : a.Inside b) (hbc : b.Inside c) : a.Inside c :=
  ⟨Content.le_trans hab.content_le hbc.content_le, Nat.le_trans hbc.lo_le hab.lo_le,
    hab.hi_le.trans hbc.hi_le⟩

/-- Every brick is inside the top one. -/
theorem inside_top (a : Brick) : a.Inside top :=
  ⟨Content.le_unknown _, Nat.zero_le _, Bound.le_infinite _⟩

/-- Inside a brick that stands for something, a brick is below it. -/
theorem Inside.le {a b : Brick} (h : a.Inside b) (hb : b.isBottom = false) : a.le b = true :=
  le_iff.2 (.inr (.inr ⟨hb, h.content_le, h.lo_le, h.hi_le⟩))

/-- Every brick is below itself. -/
theorem le_refl (a : Brick) : a.le a = true := by
  by_cases h : a.isBottom = true
  · exact le_of_isBottom h a
  · have hb : a.isBottom = false := by simpa using h
    exact (Inside.refl a).le hb

/-- Only the brick for every string is above the brick for every string. -/
theorem top_le_iff {b : Brick} : top.le b = true ↔ b = top := by
  constructor
  · intro h
    cases le_iff.1 h with
    | inl hbot => exact absurd hbot (by decide)
    | inr h =>
      cases h with
      | inl htop => exact htop
      | inr h =>
        obtain ⟨-, hcontent, hlo, hhi⟩ := h
        obtain ⟨content, lo, hi⟩ := b
        have hc : content = .unknown := Content.unknown_le_iff.1 hcontent
        have hl : lo = 0 := Count.ext (Nat.le_zero.1 hlo)
        have hh : hi = .infinite := Bound.infinite_le_iff.1 hhi
        rw [hc, hl, hh]
        rfl
  · intro h
    rw [h]
    exact le_top top

/-- What is below a brick for no string is itself one. -/
theorem isBottom_of_le {a b : Brick} (h : a.le b = true) (hb : b.isBottom = true) :
    a.isBottom = true := by
  cases le_iff.1 h with
  | inl ha => exact ha
  | inr h =>
    cases h with
    | inl htop =>
      rw [htop, not_isBottom_top] at hb
      cases hb
    | inr h =>
      rw [h.1] at hb
      cases hb

/-- What is above a brick that stands for something is what stands for something and has at least
its content and range. -/
theorem le_iff_inside {a b : Brick} (ha : a.isBottom = false) :
    a.le b = true ↔ b.isBottom = false ∧ a.Inside b := by
  constructor
  · intro h
    rw [le_iff, ha] at h
    obtain hfalse | rfl | ⟨hb, hcontent, hlo, hhi⟩ := h
    · cases hfalse
    · exact ⟨not_isBottom_top, inside_top a⟩
    · exact ⟨hb, hcontent, hlo, hhi⟩
  · rintro ⟨hb, hinside⟩
    exact hinside.le hb

/-- What is above an upper bound is above the brick itself. -/
theorem le_trans {a b c : Brick} (hab : a.le b = true) (hbc : b.le c = true) :
    a.le c = true := by
  by_cases ha : a.isBottom = true
  · exact le_of_isBottom ha c
  · rw [Bool.not_eq_true] at ha
    obtain ⟨hb, hinside⟩ := (le_iff_inside ha).1 hab
    obtain ⟨hc, hinside'⟩ := (le_iff_inside hb).1 hbc
    exact (hinside.trans hinside').le hc

/-- The filler is below the bricks that stand for something and need no repetition. -/
theorem filler_le_iff {b : Brick} :
    filler.le b = true ↔ b.isBottom = false ∧ b.lo = 0 := by
  constructor
  · intro h
    cases le_iff.1 h with
    | inl hbot => exact absurd hbot (by decide)
    | inr h =>
      cases h with
      | inl htop => exact htop ▸ ⟨not_isBottom_top, rfl⟩
      | inr h => exact ⟨h.1, Count.ext (Nat.le_zero.1 h.2.2.1)⟩
  · intro h
    refine le_iff.2 (.inr (.inr ⟨h.1, Content.empty_le _, ?_, Bound.zero_le _⟩))
    rw [h.2]
    exact Nat.le_refl 0

/-- Besides the bricks for no string, only the filler is below the filler. -/
theorem le_filler_iff {a : Brick} : a.le filler = true ↔ a.isBottom = true ∨ a = filler := by
  constructor
  · intro h
    cases le_iff.1 h with
    | inl ha => exact .inl ha
    | inr h =>
      cases h with
      | inl htop => exact absurd htop (by decide)
      | inr h =>
        obtain ⟨-, hcontent, -, hhi⟩ := h
        obtain ⟨content, lo, hi⟩ := a
        have hc : content = .known .empty := Content.le_empty_iff.1 hcontent
        have hh : hi = 0 := Bound.le_zero_iff.1 hhi
        subst hc hh
        by_cases hlo : lo = 0
        · exact .inr (by rw [hlo]; rfl)
        · -- with a repetition that is mandatory the range is empty
          have hpos : 0 < lo.toNat := Nat.pos_of_ne_zero fun h => hlo (Count.ext h)
          have hempty : hasEmptyRange ⟨.known .empty, lo, 0⟩ = true :=
            decide_eq_true (Nat.not_le.2 hpos)
          exact .inl (by rw [isBottom, hempty, Bool.true_or])
  · intro h
    cases h with
    | inl ha => exact le_of_isBottom ha _
    | inr ha => exact ha ▸ le_refl filler

/-- A brick has all the strings of the bricks below it. -/
theorem denotes_of_le {a b : Brick} (h : a.le b = true) {w : String} (hw : a.Denotes w) :
    b.Denotes w := by
  obtain ⟨hbot, k, hlo, hhi, hspells⟩ := hw
  obtain ⟨hb, hinside⟩ := (le_iff_inside hbot).1 h
  exact ⟨hb, k, Nat.le_trans hinside.lo_le hlo, Bound.admits_of_le hinside.hi_le hhi,
    Content.spells_of_le hinside.content_le hspells⟩

/-- A brick that the filler is below has the empty string. -/
theorem denotes_empty_of_filler_le {b : Brick} (h : filler.le b = true) : b.Denotes "" :=
  denotes_of_le h (denotes_filler.2 rfl)

end Brick

/-- A list has no brick for no string if each of its bricks stands for something. -/
theorem any_isBottom_eq_false_iff {l : List Brick} :
    l.any Brick.isBottom = false ↔ ∀ b ∈ l, b.isBottom = false := by
  simp

end StringBricks
