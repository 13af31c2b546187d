import StringBricks.Proofs.Brick.Widening
import Mathlib.Data.Set.Card

/-!
# Repeated widening of a brick comes to rest

A brick that is widened again and again, each time with its join with some other brick, changes at
most as often as the limits allow: once for each string and each unit of width that still fit, once
to unknown content and once to an unbounded range (`Brick.widenings_settle`). What is left of these
is the room of a brick. A widening takes the hull and cuts it off, so the content and the range
either stay as they are or are left with less room, and the range does not grow back when the
content changes.

The other bricks are arbitrary. Those for no string are left out by the join, and for the rest only
a range that is not empty is needed, which the first brick has and hulls keep.
-/

set_option autoImplicit false

namespace StringBricks

/-- Where every change takes something from a number, there are at most as many changes as the
number says at the start. -/
theorem encard_changes_le {α : Type} {x : Nat → α} {room : α → Nat}
    (h : ∀ n, x (n + 1) = x n ∨ room (x (n + 1)) < room (x n)) :
    {n | x (n + 1) ≠ x n}.encard ≤ (room (x 0) : ℕ∞) := by
  have hanti : Antitone fun n => room (x n) := by
    apply antitone_nat_of_succ_le
    intro n
    cases h n with
    | inl heq => simp [heq]
    | inr hlt => omega
  have hdrop : ∀ n ∈ {n | x (n + 1) ≠ x n}, room (x (n + 1)) < room (x n) :=
    fun n hn => (h n).resolve_left hn
  -- no two changes leave the same
  have hstrict : StrictAntiOn (fun n => room (x (n + 1))) {n | x (n + 1) ≠ x n} := by
    intro m _ n hn hmn
    have hle : room (x n) ≤ room (x (m + 1)) := hanti hmn
    exact Nat.lt_of_lt_of_le (hdrop n hn) hle
  have hmaps : Set.MapsTo (fun n => room (x (n + 1))) {n | x (n + 1) ≠ x n}
      (Finset.range (room (x 0))) := by
    intro n hn
    have hle : room (x n) ≤ room (x 0) := hanti (Nat.zero_le n)
    simpa using Nat.lt_of_lt_of_le (hdrop n hn) hle
  calc {n | x (n + 1) ≠ x n}.encard
      ≤ (Finset.range (room (x 0)) : Set Nat).encard :=
        Set.encard_le_encard_of_injOn hmaps hstrict.injOn
    _ = room (x 0) := by rw [Set.encard_coe_eq_coe_finsetCard, Finset.card_range]

/-- How often a content can still change: once for each string below the size limit, and once to
unknown content. -/
def Content.room (t : Thresholds) : Content → Nat
  | .known members => t.setSize - members.size + 1
  | .unknown => 0

/-- A larger content within the size limit leaves less room. -/
theorem Content.room_lt {t : Thresholds} {c c' : Content} (h : c.le c' = true)
    (hsize : c' = .unknown ∨ c'.variety ≤ t.setSize) : c' = c ∨ c'.room t < c.room t := by
  cases c with
  | unknown => exact .inl (unknown_le_iff.1 h)
  | known u =>
    cases c' with
    | unknown => exact .inr (Nat.succ_pos _)
    | known v =>
      have hlimit : v.size ≤ t.setSize := hsize.resolve_left Content.noConfusion
      by_cases hgrow : v.size ≤ u.size
      · exact .inl (congrArg known (StringSet.eq_of_subset (StringSet.isSubset_iff.1 h) hgrow).symm)
      · refine .inr ?_
        simp only [room]
        omega

namespace Brick

variable {t : Thresholds} {a b c : Brick}

/-! ## The room of a brick -/

/-- How often a range can still change: once for each unit of width below the limit, and once to
`(0, ∞)`. -/
def rangeRoom (t : Thresholds) (b : Brick) : Nat :=
  match b.hi with
  | .finite n => t.rangeWidth - (n.toNat - b.lo.toNat) + 1
  | .infinite => min 1 b.lo.toNat

/-- How often a brick can still change. -/
def room (t : Thresholds) (b : Brick) : Nat := b.content.room t + b.rangeRoom t

/-- There is at most room for each member, each step of the range and its two ends. -/
theorem room_le (t : Thresholds) (b : Brick) : b.room t ≤ t.setSize + t.rangeWidth + 2 := by
  have hcontent : b.content.room t ≤ t.setSize + 1 := by
    unfold Content.room
    split <;> omega
  have hrange : b.rangeRoom t ≤ t.rangeWidth + 1 := by
    unfold rangeRoom
    split <;> omega
  unfold room
  omega

/-- A larger range that is not too wide, or is `(0, ∞)`, leaves less room. -/
theorem rangeRoom_lt (h : a.Inside c) (ha : a.hasEmptyRange = false)
    (hc : c.isWide t = false ∨ (c.lo = 0 ∧ c.hi = .infinite)) :
    (c.lo = a.lo ∧ c.hi = a.hi) ∨ c.rangeRoom t < a.rangeRoom t := by
  have hrange := hasEmptyRange_eq_false_iff.1 ha
  have hlo := Count.le_iff.1 h.lo_le
  have hhi := h.hi_le
  obtain hwide | ⟨hzero, hinfinite⟩ := hc
  · -- both ranges are bounded
    unfold isWide at hwide
    cases hcn : c.hi with
    | infinite => simp [hcn] at hwide
    | finite n =>
      rw [hcn] at hhi
      simp only [hcn, decide_eq_false_iff_not] at hwide
      cases han : a.hi with
      | infinite => simp [han] at hhi
      | finite m =>
        rw [han] at hhi hrange
        rw [Bound.finite_le_finite] at hhi hrange
        by_cases hsame : c.lo.toNat = a.lo.toNat ∧ n.toNat = m.toNat
        · exact .inl ⟨Count.ext hsame.1, congrArg Bound.finite (Count.ext hsame.2)⟩
        · refine .inr ?_
          simp only [rangeRoom, hcn, han]
          omega
  · have hnone : c.rangeRoom t = 0 := by simp [rangeRoom, hzero, hinfinite]
    rw [hzero, hinfinite, hnone]
    cases han : a.hi with
    | finite m => simp [rangeRoom, han]
    | infinite =>
      by_cases halo : a.lo.toNat = 0
      · exact .inl ⟨Count.ext halo.symm, rfl⟩
      · refine .inr ?_
        simp only [rangeRoom, han]
        omega

/-- What is cut off is within both limits or has given them up. -/
theorem cutOff_within (t : Thresholds) (b : Brick) :
    ((b.cutOff t).content = .unknown ∨ (b.cutOff t).content.variety ≤ t.setSize) ∧
      ((b.cutOff t).isWide t = false ∨ ((b.cutOff t).lo = 0 ∧ (b.cutOff t).hi = .infinite)) := by
  obtain ⟨htop, -⟩ | ⟨members, hcontent, hsize, ⟨-, hcut⟩ | ⟨hwide, hcut⟩⟩ := cutOff_cases t b
  · rw [htop]
    exact ⟨.inl rfl, .inr ⟨rfl, rfl⟩⟩
  · rw [hcut]
    exact ⟨.inr hsize, .inr ⟨rfl, rfl⟩⟩
  · rw [hcut, hcontent]
    exact ⟨.inr hsize, .inl hwide⟩

/-- A widening that changes a brick leaves it less room. -/
theorem room_lt_of_widen (h : a.widen t b = .ok c) (ha : a.hasEmptyRange = false) :
    c = a ∨ c.room t < a.room t := by
  obtain ⟨hempty, -⟩ | ⟨-, hwiden⟩ | ⟨-, -, hwiden⟩ := widen_cases t a b
  · simp [ha] at hempty
  · cases hwiden.symm.trans h
    exact .inl rfl
  · cases hwiden.symm.trans h
    have hinside := (inside_hull_left a b).trans (inside_cutOff t _)
    obtain ⟨hcontent, hrange⟩ := cutOff_within t (a.hull b)
    have hcontent' := Content.room_lt hinside.content_le hcontent
    have hrange' := rangeRoom_lt hinside ha hrange
    generalize (a.hull b).cutOff t = c at hcontent' hrange' ⊢
    unfold room
    obtain ⟨hlo, hhi⟩ | hless := hrange'
    · obtain hsame | hless := hcontent'
      · have heq : (⟨c.content, c.lo, c.hi⟩ : Brick) = a := by rw [hsame, hlo, hhi]
        exact .inl heq
      · have hkept : c.rangeRoom t = a.rangeRoom t := by simp [rangeRoom, hlo, hhi]
        omega
    · obtain hsame | hless' := hcontent'
      · rw [hsame]
        omega
      · omega

/-! ## Runs of widenings -/

/-- The brick that is widened `n` times, each time with its join with the next of the bricks `y`. -/
def widenings (t : Thresholds) (b : Brick) (y : Nat → Brick) : Nat → Except Fault Brick
  | 0 => .ok b
  | n + 1 => do
    let x ← widenings t b y n
    x.widen t (x.join (y n))

/-- A widening keeps a range that is not empty. -/
theorem not_hasEmptyRange_of_widen (h : a.widen t b = .ok c) (ha : a.hasEmptyRange = false) :
    c.hasEmptyRange = false := by
  obtain ⟨hempty, -⟩ | ⟨-, hwiden⟩ | ⟨-, -, hwiden⟩ := widen_cases t a b
  · simp [ha] at hempty
  · cases hwiden.symm.trans h
    exact ha
  · cases hwiden.symm.trans h
    exact ((inside_hull_left a b).trans (inside_cutOff t _)).not_hasEmptyRange ha

/-- A run of widenings has no fault. -/
theorem exists_widenings_eq_ok (t : Thresholds) (hb : b.hasEmptyRange = false) (y : Nat → Brick)
    (n : Nat) : ∃ c, widenings t b y n = .ok c ∧ c.hasEmptyRange = false := by
  induction n with
  | zero => exact ⟨b, rfl, hb⟩
  | succ n ih =>
    obtain ⟨x, hx, hrange⟩ := ih
    obtain ⟨c, hc⟩ := exists_widen_eq_ok t x (x.join (y n))
    refine ⟨c, ?_, not_hasEmptyRange_of_widen hc hrange⟩
    rw [widenings, hx]
    exact hc

/-- **Repeated widening settles within the limits**: from a brick that stands for something, widened
again and again with its join with arbitrary bricks, every widening succeeds, and no more of them
change the brick than the size limit and the width limit together and two. -/
theorem widenings_settle (hb : b.isBottom = false) (t : Thresholds) (y : Nat → Brick) :
    (∀ n, ∃ c, widenings t b y n = .ok c) ∧
      {n | widenings t b y (n + 1) ≠ widenings t b y n}.encard ≤
        (t.setSize + t.rangeWidth + 2 : Nat) := by
  choose x hx hrange using exists_widenings_eq_ok t (not_hasEmptyRange hb) y
  refine ⟨fun n => ⟨x n, hx n⟩, ?_⟩
  have hstep : ∀ n, (x n).widen t ((x n).join (y n)) = .ok (x (n + 1)) := by
    intro n
    have hnext := hx (n + 1)
    rw [widenings, hx n] at hnext
    exact hnext
  have hchanges : {n | widenings t b y (n + 1) ≠ widenings t b y n} = {n | x (n + 1) ≠ x n} := by
    ext n
    simp [hx]
  rw [hchanges]
  have hroom : (room t (x 0) : ℕ∞) ≤ (t.setSize + t.rangeWidth + 2 : Nat) :=
    Nat.cast_le.2 (room_le t (x 0))
  exact (encard_changes_le fun n => room_lt_of_widen (hstep n) (hrange n)).trans hroom

/-- A brick that is joined with more and more repetitions of another string. -/
theorem widenings_settle_growing :
    (of ["a"] 1 1).isBottom = false ∧
    (∀ n, ∃ c, widenings ⟨3, 2, 10⟩ (of ["a"] 1 1) (fun k => of ["b"] 0 (.finite (.ofNat k))) n =
      .ok c) ∧
    {n | widenings ⟨3, 2, 10⟩ (of ["a"] 1 1) (fun k => of ["b"] 0 (.finite (.ofNat k))) (n + 1) ≠
      widenings ⟨3, 2, 10⟩ (of ["a"] 1 1) (fun k => of ["b"] 0 (.finite (.ofNat k))) n}.encard ≤
        (7 : Nat) := by
  have hstart : (of ["a"] 1 1).isBottom = false := by decide
  exact ⟨hstart, widenings_settle hstart ⟨3, 2, 10⟩ _⟩

end Brick

end StringBricks
