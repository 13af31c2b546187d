import StringBricks.Proofs.Brick.Join

/-!
# The meet of bricks

The meet of two bricks intersects their ranges and joins two known sets. If one brick is below the
other it is below that one again (`Brick.meet_le_left`), and met with itself a brick is the same
(`Brick.meet_self`). The meet stands for what is built by a number of
repetitions that both ranges allow (`Brick.denotes_meet_iff`), except where a brick that may not
occur at all faces a known set that may: then it has the shape of a brick for no string, although
both stand for the empty one.
-/

set_option autoImplicit false

namespace StringBricks

namespace Bound

/-- The smaller of two bounds admits what both admit. -/
theorem admits_min_iff {a b : Bound} {k : Nat} : (min a b).Admits k ↔ a.Admits k ∧ b.Admits k := by
  cases le_total a b with
  | inl h =>
    rw [min_eq_left h]
    exact ⟨fun hk => ⟨hk, admits_of_le h hk⟩, And.left⟩
  | inr h =>
    rw [min_eq_right h]
    exact ⟨fun hk => ⟨admits_of_le h hk, hk⟩, And.right⟩

/-- A bound is at least what is below a number that it admits. -/
theorem finite_le_of_admits {a : Bound} {n : Count} {k : Nat} (hk : a.Admits k)
    (hn : n.toNat ≤ k) : .finite n ≤ a := by
  cases a with
  | infinite => exact le_infinite _
  | finite m => exact Nat.le_trans hn hk

end Bound

namespace Content

/-- Met with something below it, a content is below itself again. -/
theorem meet_le_left {a b : Content} (h : b.le a = true) : (a.meet b).le a = true := by
  cases a with
  | unknown => exact le_unknown _
  | known u =>
    cases b with
    | unknown => cases h
    | known v =>
      apply StringSet.isSubset_iff.2
      intro s hs
      exact (StringSet.mem_union.1 hs).elim id (StringSet.isSubset_iff.1 h s)

/-- Met with itself, a content is the same. -/
theorem meet_self (c : Content) : c.meet c = c := by
  cases c with
  | unknown => rfl
  | known members =>
    have hunion : members.union members = members := by
      ext s
      simp
    simp [meet, hunion]

/-- The meet spells what both contents spell. -/
theorem spells_meet {a b : Content} {k : Nat} {w : String} (ha : a.Spells k w) (hb : b.Spells k w) :
    (a.meet b).Spells k w := by
  cases a with
  | unknown => cases b <;> exact hb
  | known u =>
    cases b with
    | unknown => exact ha
    | known v =>
      have hle : (known u).le (known (u.union v)) = true := le_join_left (known u) (known v)
      exact spells_of_le hle ha

end Content

namespace Brick

variable {p q : Brick} {s : String}

/-- The meet of two bricks that stand for something. -/
theorem meet_eq (hp : p.isBottom = false) (hq : q.isBottom = false) :
    p.meet q = ⟨p.content.meet q.content, max p.lo q.lo, min p.hi q.hi⟩ := by
  unfold meet
  rw [hp, hq]
  rfl

/-- Met with a brick for no string, a brick leaves none. -/
theorem meet_of_isBottom (h : p.isBottom = true ∨ q.isBottom = true) : p.meet q = bottom := by
  unfold meet
  rw [if_pos (Bool.or_eq_true_iff.2 h)]

/-- Met with a brick below it, a brick is below itself again. -/
theorem meet_le_left (h : q.le p = true) : (p.meet q).le p = true := by
  by_cases hbot : p.isBottom = true ∨ q.isBottom = true
  · rw [meet_of_isBottom hbot]
    exact le_of_isBottom isBottom_bottom p
  · rw [not_or, Bool.not_eq_true, Bool.not_eq_true] at hbot
    obtain ⟨hp, hinside⟩ := (le_iff_inside hbot.2).1 h
    rw [meet_eq hp hbot.2]
    apply Inside.le _ hp
    exact ⟨Content.meet_le_left hinside.content_le, le_max_left _ _, min_le_left _ _⟩

/-- Met with itself, a brick that stands for something is the same. -/
theorem meet_self (h : p.isBottom = false) : p.meet p = p := by
  rw [meet_eq h h, Content.meet_self, max_self, min_self]

/-! ## The strings of a meet -/

/-- Whether a brick that may not occur at all faces another such brick, or one of unknown content.
-/
def Faces (p q : Brick) : Prop :=
  (p.hi = 0 → q.hi = 0 ∨ q.content = .unknown) ∧ (q.hi = 0 → p.hi = 0 ∨ p.content = .unknown)

/-- Whether two bricks face each other is decided by their bounds and contents. -/
instance (p q : Brick) : Decidable (p.Faces q) := inferInstanceAs (Decidable ((_ → _) ∧ (_ → _)))

/-- Whether `s` is built by `k` repetitions of the brick. -/
def Builds (b : Brick) (k : Nat) (s : String) : Prop :=
  b.lo.toNat ≤ k ∧ b.hi.Admits k ∧ b.content.Spells k s

/-- Whether both bricks build `s` by the same number of repetitions. -/
def BuildsAlike (p q : Brick) (s : String) : Prop :=
  p.Faces q ∧ ∃ k, p.Builds k s ∧ q.Builds k s

/-- Whether `s` is built by a number of repetitions that both ranges allow. Each repetition is a
string that one of the bricks allows, and one that the known set has if the other is unknown. -/
def BuildsWith (p q : Brick) (s : String) : Prop :=
  p.Faces q ∧ ∃ k, (p.lo.toNat ≤ k ∧ q.lo.toNat ≤ k) ∧ (p.hi.Admits k ∧ q.hi.Admits k) ∧
    (p.content.meet q.content).Spells k s

/-- The set of a meet is empty exactly if its range ends at zero, unless a brick that may not occur
at all faces a known set that may. -/
theorem faces_iff (hp : p.isBottom = false) (hq : q.isBottom = false) :
    p.Faces q ↔ ∀ a, p.content.meet q.content = .known a → (a = .empty ↔ min p.hi q.hi = 0) := by
  have hpset := (not_isBottom_iff.1 hp).2
  have hqset := (not_isBottom_iff.1 hq).2
  unfold Faces
  rw [Bound.min_eq_zero_iff]
  cases hpc : p.content with
  | unknown =>
    cases hqc : q.content with
    | unknown => simp [Content.meet]
    | known v =>
      have hv := hqset v hqc
      simp [Content.meet, hv]
  | known u =>
    have hu := hpset u hpc
    cases hqc : q.content with
    | unknown => simp [Content.meet, hu]
    | known v =>
      have hv := hqset v hqc
      by_cases hphi : p.hi = 0 <;> by_cases hqhi : q.hi = 0 <;>
        simp [Content.meet, StringSet.union_eq_empty_iff, hu, hv, hphi, hqhi]

/-- A meet stands for what is built by a number of repetitions that both ranges allow. -/
theorem denotes_meet_iff (hp : p.isBottom = false) (hq : q.isBottom = false) :
    (p.meet q).Denotes s ↔ p.BuildsWith q s := by
  rw [meet_eq hp hq]
  unfold Denotes BuildsWith
  rw [not_isBottom_iff, faces_iff hp hq]
  simp only [Count.toNat_max, Nat.max_le, Bound.admits_min_iff]
  constructor
  · rintro ⟨⟨-, hset⟩, k, hlo, hhi, hspells⟩
    exact ⟨hset, k, hlo, hhi, hspells⟩
  · rintro ⟨hset, k, hlo, hhi, hspells⟩
    refine ⟨⟨?_, hset⟩, k, hlo, hhi, hspells⟩
    apply Bound.finite_le_of_admits (Bound.admits_min_iff.2 hhi)
    rw [Count.toNat_max]
    exact Nat.max_le.2 hlo

/-- What two bricks build by the same number of repetitions they build together. -/
theorem BuildsAlike.buildsWith (h : p.BuildsAlike q s) : p.BuildsWith q s := by
  obtain ⟨hfaces, k, ⟨hplo, hphi, hp⟩, hqlo, hqhi, hq⟩ := h
  exact ⟨hfaces, k, ⟨hplo, hqlo⟩, ⟨hphi, hqhi⟩, Content.spells_meet hp hq⟩

end Brick

end StringBricks
