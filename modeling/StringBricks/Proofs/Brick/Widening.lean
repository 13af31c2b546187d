import StringBricks.Proofs.Brick.Join
import StringBricks.Proofs.NormalForm.Growth
import StringBricks.Brick.Widening

/-!
# What the widening of two bricks can be

Widening takes the hull of two bricks, as their join does, and then cuts off what is beyond the
limits (`Brick.widen_eq`); only for an empty range it takes the other operand as it is. So it never
fails. The brick that comes out has no larger minimum than either operand, its set is within the
size limit, and its range is within the width limit if it is bounded at all
(`Brick.limited_of_widen`).

Bricks for no string that have a range are taken into the hull too, where the join leaves them out.
Next to the filler they leave a brick for no string, and then the filler is lost
(`Brick.le_widen_iff`). In every other case the widening is above both operands.
-/

set_option autoImplicit false

namespace StringBricks

namespace Brick

variable {t : Thresholds} {a b c : Brick}

/-! ## Cutting off -/

/-- Whether the range is unbounded or beyond the width limit. -/
def isWide (t : Thresholds) (b : Brick) : Bool :=
  match b.hi with
  | .finite n => t.rangeWidth < n.toNat - b.lo.toNat
  | .infinite => true

/-- The brick with what is beyond the limits `t` given up: unknown content or too many strings for
the top brick, and a range that is too wide for `(0, ∞)`. -/
def cutOff (t : Thresholds) (b : Brick) : Brick :=
  match b.content with
  | .unknown => top
  | .known members =>
    if t.setSize < members.size then top
    else if b.isWide t then ⟨.known members, 0, .infinite⟩
    else b

/-- What cutting off comes to: the top brick, the same set with any range, or the brick itself. -/
theorem cutOff_cases (t : Thresholds) (b : Brick) :
    (b.cutOff t = top ∧ (b.content = .unknown ∨ t.setSize < b.content.variety)) ∨
      ∃ members, b.content = .known members ∧ members.size ≤ t.setSize ∧
        ((b.isWide t = true ∧ b.cutOff t = ⟨.known members, 0, .infinite⟩) ∨
          (b.isWide t = false ∧ b.cutOff t = b)) := by
  unfold cutOff
  cases hcontent : b.content with
  | unknown => exact .inl ⟨rfl, .inl rfl⟩
  | known members =>
    by_cases hsize : t.setSize < members.size
    · exact .inl ⟨if_pos hsize, .inr hsize⟩
    · refine .inr ⟨members, rfl, Nat.le_of_not_lt hsize, ?_⟩
      by_cases hwide : b.isWide t = true
      · exact .inl ⟨hwide, by simp [hsize, hwide]⟩
      · exact .inr ⟨Bool.not_eq_true _ ▸ hwide, by simp [hsize, hwide]⟩

/-- Cutting off makes nothing smaller. -/
theorem inside_cutOff (t : Thresholds) (b : Brick) : b.Inside (b.cutOff t) := by
  obtain ⟨htop, -⟩ | ⟨members, hcontent, -, ⟨-, hcut⟩ | ⟨-, hcut⟩⟩ := cutOff_cases t b
  · rw [htop]
    exact inside_top b
  · rw [hcut]
    exact ⟨hcontent ▸ Content.le_refl _, Nat.zero_le _, Bound.le_infinite _⟩
  · rw [hcut]
    exact Inside.refl b

/-- A range that is too wide is not zero. -/
theorem hi_ne_zero_of_isWide (h : b.isWide t = true) : b.hi ≠ 0 := by
  intro hhi
  have hzero : (0 : Bound) = .finite 0 := rfl
  simp [isWide, hhi, hzero] at h

/-- Cutting off leaves a brick for no string only of one whose set is within the size limit. -/
theorem isBottom_cutOff_iff (hb : b.hasEmptyRange = false) : (b.cutOff t).isBottom = true ↔
    b.isBottom = true ∧ b.content.variety ≤ t.setSize := by
  have hrange := hasEmptyRange_eq_false_iff.1 hb
  obtain ⟨htop, hlarge⟩ | ⟨members, hcontent, hsize, ⟨hwide, hcut⟩ | ⟨-, hcut⟩⟩ := cutOff_cases t b
  · rw [htop, not_isBottom_top]
    refine iff_of_false Bool.false_ne_true ?_
    rintro ⟨hbot, hvariety⟩
    cases hlarge with
    | inl hunknown =>
      have hnot : b.isBottom = false :=
        not_isBottom_iff.2 ⟨hrange, fun u hu => by simp [hunknown] at hu⟩
      simp [hnot] at hbot
    | inr hlarge => omega
  · -- neither range is zero, so both bricks stand for something exactly if the set has members
    have hhi := hi_ne_zero_of_isWide hwide
    have hcut' : (b.cutOff t).isBottom = false ↔ members ≠ .empty := by
      rw [hcut, not_isBottom_iff]
      simp
    have hb' : b.isBottom = false ↔ members ≠ .empty := by
      rw [not_isBottom_iff, hcontent]
      simp [hrange, hhi]
    have hvariety : b.content.variety ≤ t.setSize := by
      rw [hcontent]
      exact hsize
    rw [← Bool.not_eq_false, ← Bool.not_eq_false, hcut', hb', and_iff_left hvariety]
  · have hvariety : b.content.variety ≤ t.setSize := by
      rw [hcontent]
      exact hsize
    rw [hcut, and_iff_left hvariety]

/-! ## Widening as hull and cut -/

/-- The width that widening computes is beyond the limit exactly if the range is too wide. -/
theorem exceeds_of_sub {width : Bound} (h : b.hi.sub (.finite b.lo) = .ok width) :
    width.exceeds t.rangeWidth = b.isWide t := by
  obtain ⟨hhi, rfl⟩ | ⟨m, k, hhi, rfl, hsum⟩ := Bound.sub_eq_ok h
  · simp [isWide, hhi, Bound.exceeds]
  · have hk : m.toNat - b.lo.toNat = k.toNat := by omega
    simp [isWide, hhi, hk, Bound.exceeds]

/-- Two bricks with ranges are widened to their hull, with what is beyond the limits given up. -/
theorem widen_eq (t : Thresholds) (ha : a.hasEmptyRange = false) (hb : b.hasEmptyRange = false) :
    a.widen t b = .ok ((a.hull b).cutOff t) := by
  have hrange : .finite (a.hull b).lo ≤ (a.hull b).hi :=
    hasEmptyRange_eq_false_iff.1 ((inside_hull_left a b).not_hasEmptyRange ha)
  obtain ⟨width, hwidth⟩ := Bound.exists_sub_eq_ok hrange
  have hexceeds := exceeds_of_sub (t := t) hwidth
  have hwidth' : (max a.hi b.hi).sub (.finite (min a.lo b.lo)) = .ok width := hwidth
  have hcontent : (a.hull b).content = a.content.join b.content := rfl
  unfold widen cutOff
  rw [ha, hb, hcontent, ← hexceeds]
  cases hjoin : a.content.join b.content with
  | unknown => rfl
  | known members =>
    by_cases hsize : t.setSize < members.size
    · simp [hsize]
    · by_cases hwide : width.exceeds t.rangeWidth = true
      · simp [hsize, hwidth', hwide]
      · simp [hsize, hwidth', hwide, hull, hjoin]

/-- How the widening of two bricks comes about. -/
theorem widen_cases (t : Thresholds) (a b : Brick) :
    (a.hasEmptyRange = true ∧ a.widen t b = .ok b) ∨
      (b.hasEmptyRange = true ∧ a.widen t b = .ok a) ∨
      (a.hasEmptyRange = false ∧ b.hasEmptyRange = false ∧
        a.widen t b = .ok ((a.hull b).cutOff t)) := by
  by_cases ha : a.hasEmptyRange = true
  · exact .inl ⟨ha, by rw [widen, if_pos ha]⟩
  · by_cases hb : b.hasEmptyRange = true
    · exact .inr (.inl ⟨hb, by rw [widen, if_neg ha, if_pos hb]⟩)
    · rw [Bool.not_eq_true] at ha hb
      exact .inr (.inr ⟨ha, hb, widen_eq t ha hb⟩)

/-- Widening two bricks never fails. -/
theorem exists_widen_eq_ok (t : Thresholds) (a b : Brick) : ∃ c, a.widen t b = .ok c := by
  obtain ⟨-, h⟩ | ⟨-, h⟩ | ⟨-, -, h⟩ := widen_cases t a b
  · exact ⟨b, h⟩
  · exact ⟨a, h⟩
  · exact ⟨_, h⟩

/-! ## Above both operands -/

/-- Whether a brick for no string is taken into hulls with what it has, as it has a range and no
more strings than the size limit. -/
def IsHollow (t : Thresholds) (b : Brick) : Prop :=
  b.isBottom = true ∧ b.hasEmptyRange = false ∧ b.content.variety ≤ t.setSize

/-- Whether a brick is hollow is decided by its shape, its range and its size. -/
instance (t : Thresholds) (b : Brick) : Decidable (b.IsHollow t) :=
  inferInstanceAs (Decidable (_ ∧ _ ∧ _))

/-- A brick with an empty range stands for no string. -/
theorem isBottom_of_hasEmptyRange (h : a.hasEmptyRange = true) : a.isBottom = true := by
  rw [← Bool.not_eq_false]
  intro hbot
  simp [not_hasEmptyRange hbot] at h

/-- The filler adds nothing to a hull but the choice of no repetition. -/
theorem filler_hull (b : Brick) : filler.hull b = ⟨b.content, 0, b.hi⟩ := by
  have hcontent : (Content.known .empty).join b.content = b.content := by
    cases b.content with
    | unknown => rfl
    | known members =>
      have hunion : StringSet.empty.union members = members := by
        ext s
        simp
      simp [Content.join, hunion]
  have hlo : min 0 b.lo = 0 := min_eq_left (Nat.zero_le b.lo.toNat)
  have hhi : max 0 b.hi = b.hi := max_eq_right (Bound.zero_le _)
  simp [hull, filler, hcontent, hlo, hhi]

/-- A hollow brick stays hollow when it is widened with the filler. -/
theorem IsHollow.cutOff_hull (h : b.IsHollow t) : ((filler.hull b).cutOff t).isBottom = true := by
  obtain ⟨hbot, hrange, hsize⟩ := h
  have hhull : (filler.hull b).hasEmptyRange = false :=
    (inside_hull_left filler b).not_hasEmptyRange (not_hasEmptyRange not_isBottom_filler)
  rw [isBottom_cutOff_iff hhull, filler_hull]
  refine ⟨?_, hsize⟩
  rw [← Bool.not_eq_false, not_isBottom_iff]
  rintro ⟨-, hset⟩
  have hnot : b.isBottom = false := not_isBottom_iff.2 ⟨hasEmptyRange_eq_false_iff.1 hrange, hset⟩
  simp [hbot] at hnot

/-- Besides a brick for no string, only the filler has a hull for no string. -/
theorem eq_filler_of_isBottom_hull (ha : a.isBottom = false)
    (h : (a.hull b).isBottom = true) : a = filler := by
  obtain ⟨harange, haset⟩ := not_isBottom_iff.1 ha
  have hrange := (inside_hull_left a b).not_hasEmptyRange (not_hasEmptyRange ha)
  refine Decidable.byContradiction fun hne => ?_
  have hnot : (a.hull b).isBottom = false := by
    rw [not_isBottom_iff]
    refine ⟨hasEmptyRange_eq_false_iff.1 hrange, ?_⟩
    intro members hmembers
    obtain ⟨u, v, hu, -, rfl⟩ := Content.join_eq_known hmembers
    have hu' : u ≠ .empty := fun hempty => hne (eq_filler ha (hu.trans (congrArg _ hempty)))
    have hhi : a.hi ≠ 0 := fun hzero => hu' ((haset u hu).2 hzero)
    show _ ↔ max a.hi b.hi = 0
    simp [StringSet.union_eq_empty_iff, Bound.max_eq_zero_iff, hu', hhi]
  simp [hnot] at h

/-- Next to a brick that stands for something, a widening stands for no string only if that brick is
the filler and the other one is hollow. -/
theorem hollow_of_isBottom_cutOff (ha : a.isBottom = false) (hb : b.hasEmptyRange = false)
    (h : ((a.hull b).cutOff t).isBottom = true) : a = filler ∧ b.IsHollow t := by
  have hrange := (inside_hull_left a b).not_hasEmptyRange (not_hasEmptyRange ha)
  obtain ⟨hhull, hsize⟩ := (isBottom_cutOff_iff hrange).1 h
  have hbot : b.isBottom = true := by
    rw [← Bool.not_eq_false]
    intro hnot
    simp [not_isBottom_hull ha hnot] at hhull
  obtain rfl := eq_filler_of_isBottom_hull ha hhull
  rw [filler_hull] at hsize
  exact ⟨rfl, hbot, hb, hsize⟩

/-- What is cut off of a hull is above the first operand, unless that is the filler and the second
one is hollow. -/
theorem le_cutOff_hull_iff (hb : b.hasEmptyRange = false) :
    a.le ((a.hull b).cutOff t) = true ↔ ¬ (a = filler ∧ b.IsHollow t) := by
  constructor
  · -- above the filler nothing stands for no string
    rintro hle ⟨rfl, hollow⟩
    have hbot := isBottom_of_le hle hollow.cutOff_hull
    simp [not_isBottom_filler] at hbot
  · intro h
    by_cases ha : a.isBottom = true
    · exact le_of_isBottom ha _
    · rw [Bool.not_eq_true] at ha
      have hbot : ((a.hull b).cutOff t).isBottom = false := by
        rw [← Bool.not_eq_true]
        intro hbot
        exact h (hollow_of_isBottom_cutOff ha hb hbot)
      exact ((inside_hull_left a b).trans (inside_cutOff t _)).le hbot

/-- **A widening is above both operands, unless it loses the filler**: the widening of two bricks is
above both, except where one of them is the filler and the other stands for no string, but has a
range and no more strings than the size limit. -/
theorem le_widen_iff (h : a.widen t b = .ok c) : (a.le c = true ∧ b.le c = true) ↔
    ¬ (a = filler ∧ b.IsHollow t) ∧ ¬ (b = filler ∧ a.IsHollow t) := by
  have hfiller : filler.hasEmptyRange = false := not_hasEmptyRange not_isBottom_filler
  obtain ⟨ha, hwiden⟩ | ⟨hb, hwiden⟩ | ⟨ha, hb, hwiden⟩ := widen_cases t a b
  · cases hwiden.symm.trans h
    refine iff_of_true ⟨le_of_isBottom (isBottom_of_hasEmptyRange ha) _, le_refl b⟩ ⟨?_, ?_⟩
    · rintro ⟨rfl, -⟩
      simp [hfiller] at ha
    · simp [IsHollow, ha]
  · cases hwiden.symm.trans h
    refine iff_of_true ⟨le_refl a, le_of_isBottom (isBottom_of_hasEmptyRange hb) _⟩ ⟨?_, ?_⟩
    · simp [IsHollow, hb]
    · rintro ⟨rfl, -⟩
      simp [hfiller] at hb
  · cases hwiden.symm.trans h
    rw [le_cutOff_hull_iff hb, hull_comm, le_cutOff_hull_iff ha]

/-- A range that gets too wide, next to a set without members that may occur. -/
theorem le_widen_iff_wide :
    (of ["a"] 1 2).widen ⟨3, 4, 10⟩ (of [] 0 7) = .ok (of ["a"] 0 .infinite) ∧
    (¬ (of ["a"] 1 2 = filler ∧ (of [] 0 7).IsHollow ⟨3, 4, 10⟩) ∧
      ¬ (of [] 0 7 = filler ∧ (of ["a"] 1 2).IsHollow ⟨3, 4, 10⟩)) ∧
    (of ["a"] 1 2).le (of ["a"] 0 .infinite) = true ∧
    (of [] 0 7).le (of ["a"] 0 .infinite) = true := by
  have hwiden : (of ["a"] 1 2).widen ⟨3, 4, 10⟩ (of [] 0 7) = .ok (of ["a"] 0 .infinite) := rfl
  have hnot : ¬ (of ["a"] 1 2 = filler ∧ (of [] 0 7).IsHollow ⟨3, 4, 10⟩) ∧
      ¬ (of [] 0 7 = filler ∧ (of ["a"] 1 2).IsHollow ⟨3, 4, 10⟩) := by decide
  exact ⟨hwiden, hnot, (le_widen_iff hwiden).2 hnot⟩

/-- Widened with a brick that may not occur but has a member, the filler is lost. -/
theorem widen_loses_filler :
    filler.widen {} (of ["a"] 0 0) = .ok (of ["a"] 0 0) ∧
      filler.le (of ["a"] 0 0) = false ∧
      ¬ ∀ (t : Thresholds) (a b c : Brick), a.widen t b = .ok c → a.le c = true ∧ b.le c = true := by
  have hwiden : filler.widen {} (of ["a"] 0 0) = .ok (of ["a"] 0 0) := rfl
  have hle : filler.le (of ["a"] 0 0) = false := by decide
  refine ⟨hwiden, hle, ?_⟩
  intro hall
  have hbelow := (hall {} filler (of ["a"] 0 0) _ hwiden).1
  simp [hle] at hbelow

/-! ## Within the limits -/

/-- A brick that is within the limits `t` and need not occur more than `least` times. -/
structure Limited (t : Thresholds) (least : Nat) (c : Brick) : Prop where
  lo_le : c.lo.toNat ≤ least
  variety_le : c.content.variety ≤ max 1 t.setSize
  weight_le : NormalForm.weight c ≤ c.lo.toNat + t.rangeWidth

/-- The top brick is within all limits. -/
theorem limited_top (t : Thresholds) (least : Nat) : Limited t least top :=
  ⟨Nat.zero_le least, Nat.le_max_left 1 t.setSize, Nat.zero_le _⟩

/-- A range that is not too wide is within the width limit. -/
theorem weight_le_of_not_isWide (h : b.isWide t = false) :
    NormalForm.weight b ≤ b.lo.toNat + t.rangeWidth := by
  unfold isWide at h
  unfold NormalForm.weight
  cases hhi : b.hi with
  | infinite => exact Nat.le_add_right _ _
  | finite n =>
    rw [hhi, decide_eq_false_iff_not] at h
    show n.toNat ≤ b.lo.toNat + t.rangeWidth
    omega

/-- What is cut off is within the limits. -/
theorem limited_cutOff (t : Thresholds) (b : Brick) : Limited t b.lo.toNat (b.cutOff t) := by
  obtain ⟨htop, -⟩ | ⟨members, hcontent, hsize, hcut⟩ := cutOff_cases t b
  · rw [htop]
    exact limited_top t _
  · have hvariety : members.size ≤ max 1 t.setSize :=
      Nat.le_trans hsize (Nat.le_max_right 1 t.setSize)
    obtain ⟨-, hcut⟩ | ⟨hwide, hcut⟩ := hcut
    · rw [hcut]
      exact ⟨Nat.zero_le _, hvariety, Nat.zero_le _⟩
    · rw [hcut]
      refine ⟨Nat.le_refl _, ?_, weight_le_of_not_isWide hwide⟩
      rw [hcontent]
      exact hvariety

/-- The widening of two bricks is within the limits, with a minimum that is not larger than the
first one's. -/
theorem limited_of_widen (h : a.widen t b = .ok c) (ha : a.isBottom = false)
    (hb : b.isBottom = false) : Limited t a.lo.toNat c := by
  rw [widen_eq t (not_hasEmptyRange ha) (not_hasEmptyRange hb)] at h
  cases h
  have hlimited := limited_cutOff t (a.hull b)
  have hlo : (a.hull b).lo.toNat ≤ a.lo.toNat := (inside_hull_left a b).lo_le
  exact ⟨Nat.le_trans hlimited.lo_le hlo, hlimited.variety_le, hlimited.weight_le⟩

end Brick

end StringBricks
