import StringBricks.Proofs.Brick.Repetition

/-!
# The join of bricks

The join of two bricks that stand for something is their hull: the union of their contents over the
hull of their ranges. It does not depend on the order of the two (`Brick.join_comm`), it stands for
something itself, and it is the least brick above both, also where one of them stands for no string
(`Brick.join_le`).
-/

set_option autoImplicit false

namespace StringBricks

/-- A union does not depend on the order of the two sets. -/
theorem StringSet.union_comm (a b : StringSet) : a.union b = b.union a := by
  ext s
  rw [mem_union, mem_union, or_comm]

/-- A union is empty only if both sets are. -/
theorem StringSet.union_eq_empty_iff {a b : StringSet} :
    a.union b = .empty ↔ a = .empty ∧ b = .empty := by
  simp only [eq_empty_iff, mem_union, not_or]
  exact forall_and

namespace Content

/-- A join does not depend on the order of the two contents. -/
theorem join_comm (a b : Content) : a.join b = b.join a := by
  cases a with
  | unknown => cases b <;> rfl
  | known u =>
    cases b with
    | unknown => rfl
    | known v => exact congrArg known (StringSet.union_comm u v)

/-- A join allows what its first operand allows. -/
theorem le_join_left (a b : Content) : a.le (a.join b) = true := by
  cases a with
  | unknown => rfl
  | known u =>
    cases b with
    | unknown => rfl
    | known v =>
      apply StringSet.isSubset_iff.2
      intro s hs
      exact StringSet.mem_union.2 (.inl hs)

/-- What is above two contents is above their join. -/
theorem join_le {a b c : Content} (ha : a.le c = true) (hb : b.le c = true) :
    (a.join b).le c = true := by
  cases c with
  | unknown => exact le_unknown _
  | known w =>
    cases a with
    | unknown => cases ha
    | known u =>
      cases b with
      | unknown => cases hb
      | known v =>
        apply StringSet.isSubset_iff.2
        intro s hs
        cases StringSet.mem_union.1 hs with
        | inl hu => exact StringSet.isSubset_iff.1 ha s hu
        | inr hv => exact StringSet.isSubset_iff.1 hb s hv

/-- Only known contents have a known join. -/
theorem join_eq_known {a b : Content} {members : StringSet} (h : a.join b = .known members) :
    ∃ u v, a = .known u ∧ b = .known v ∧ members = u.union v := by
  cases a with
  | unknown => cases h
  | known u =>
    cases b with
    | unknown => cases h
    | known v =>
      cases h
      exact ⟨u, v, rfl, rfl, rfl⟩

end Content

namespace Brick

variable {a b c : Brick}

/-- A range is not empty if the brick may be repeated as often as it must be. -/
theorem hasEmptyRange_eq_false_iff : a.hasEmptyRange = false ↔ .finite a.lo ≤ a.hi := by
  unfold hasEmptyRange
  rw [decide_eq_false_iff_not, not_lt]

/-- A brick that stands for something has a range that is not empty. -/
theorem not_hasEmptyRange (h : a.isBottom = false) : a.hasEmptyRange = false :=
  hasEmptyRange_eq_false_iff.2 (lo_le_hi h)

/-! ## The hull of two bricks -/

/-- Both contents over the hull of both ranges. -/
def hull (a b : Brick) : Brick := ⟨a.content.join b.content, min a.lo b.lo, max a.hi b.hi⟩

/-- A hull does not depend on the order of the two bricks. -/
theorem hull_comm (a b : Brick) : a.hull b = b.hull a := by
  unfold hull
  rw [Content.join_comm, min_comm, max_comm]

/-- A brick is inside its hull with any other one. -/
theorem inside_hull_left (a b : Brick) : a.Inside (a.hull b) := by
  exact ⟨Content.le_join_left _ _, min_le_left _ _, le_max_left _ _⟩

/-- What has two bricks inside has their hull inside. -/
theorem Inside.hull_inside (ha : a.Inside c) (hb : b.Inside c) : (a.hull b).Inside c := by
  exact ⟨Content.join_le ha.content_le hb.content_le, le_min ha.lo_le hb.lo_le,
    max_le ha.hi_le hb.hi_le⟩

/-- With a range that is not empty inside, a range is not empty. -/
theorem Inside.not_hasEmptyRange (h : a.Inside b) (ha : a.hasEmptyRange = false) :
    b.hasEmptyRange = false := by
  rw [hasEmptyRange_eq_false_iff] at ha ⊢
  have hlo : Bound.finite b.lo ≤ .finite a.lo := h.lo_le
  exact hlo.trans (ha.trans h.hi_le)

/-! ## The join as a least upper bound -/

/-- The join of two bricks that stand for something. -/
theorem join_eq (ha : a.isBottom = false) (hb : b.isBottom = false) : a.join b = a.hull b := by
  unfold join
  rw [ha, hb]
  rfl

/-- A brick for no string adds nothing to the one that it is joined with. -/
theorem join_of_isBottom_left (ha : a.isBottom = true) (b : Brick) : a.join b = b := by
  unfold join
  rw [if_pos ha]

/-- A brick for no string adds nothing to the one before it. -/
theorem join_of_isBottom_right (ha : a.isBottom = false) (hb : b.isBottom = true) :
    a.join b = a := by
  unfold join
  rw [ha, if_neg Bool.false_ne_true, if_pos hb]

/-- The join of two bricks that stand for something does not depend on their order. -/
theorem join_comm (ha : a.isBottom = false) (hb : b.isBottom = false) : a.join b = b.join a := by
  rw [join_eq ha hb, join_eq hb ha, hull_comm]

/-- The hull has a set without members only where both sets have none, and then both ranges are
zero. -/
theorem not_isBottom_hull (ha : a.isBottom = false) (hb : b.isBottom = false) :
    (a.hull b).isBottom = false := by
  rw [not_isBottom_iff]
  refine ⟨?_, ?_⟩
  · rw [← hasEmptyRange_eq_false_iff]
    exact (inside_hull_left a b).not_hasEmptyRange (not_hasEmptyRange ha)
  · intro members hmembers
    obtain ⟨u, v, hu, hv, rfl⟩ := Content.join_eq_known hmembers
    have hleft := (not_isBottom_iff.1 ha).2 u hu
    have hright := (not_isBottom_iff.1 hb).2 v hv
    show _ ↔ max a.hi b.hi = 0
    rw [StringSet.union_eq_empty_iff, hleft, hright, Bound.max_eq_zero_iff]

/-- A join is above its first operand. -/
theorem le_join_left (a b : Brick) : a.le (a.join b) = true := by
  by_cases ha : a.isBottom = true
  · exact le_of_isBottom ha _
  · rw [Bool.not_eq_true] at ha
    by_cases hb : b.isBottom = true
    · rw [join_of_isBottom_right ha hb]
      exact le_refl a
    · rw [Bool.not_eq_true] at hb
      rw [join_eq ha hb]
      exact (inside_hull_left a b).le (not_isBottom_hull ha hb)

/-- A join is above its second operand. -/
theorem le_join_right (a b : Brick) : b.le (a.join b) = true := by
  by_cases ha : a.isBottom = true
  · rw [join_of_isBottom_left ha]
    exact le_refl b
  · by_cases hb : b.isBottom = true
    · exact le_of_isBottom hb _
    · rw [Bool.not_eq_true] at ha hb
      rw [join_comm ha hb]
      exact le_join_left b a

/-- What is above two bricks is above their join. -/
theorem join_le (ha : a.le c = true) (hb : b.le c = true) : (a.join b).le c = true := by
  by_cases habot : a.isBottom = true
  · rw [join_of_isBottom_left habot]
    exact hb
  · rw [Bool.not_eq_true] at habot
    by_cases hbbot : b.isBottom = true
    · rw [join_of_isBottom_right habot hbbot]
      exact ha
    · rw [Bool.not_eq_true] at hbbot
      obtain ⟨hc, hainside⟩ := (le_iff_inside habot).1 ha
      obtain ⟨-, hbinside⟩ := (le_iff_inside hbbot).1 hb
      rw [join_eq habot hbbot]
      exact (hainside.hull_inside hbinside).le hc

end Brick

end StringBricks
