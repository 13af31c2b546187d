import StringBricks.Proofs.Domain
import StringBricks.Proofs.Env.Construction
import StringBricks.Proofs.Order

/-!
# Upper bounds

The join of two bricks is the least brick above both. For sequences and environments joins and
widenings are above their operands, although neither is computed by an operation that is monotone.
For sequences this holds of all operands. For environments it holds of those that arise: an entry
for no string would be below nothing that a join can make of it, but setting a variable never leaves
such an entry.
-/

set_option autoImplicit false

namespace StringBricks

/-- The join of two bricks is above both. -/
theorem Brick.joinCovers (t : Thresholds) (x y : Brick) : (Brick.domain t).JoinCovers x y :=
  ⟨Brick.le_join_left x y, Brick.le_join_right x y⟩

/-- **Bricks have least upper bounds**: the order of bricks is reflexive and transitive, the bottom
brick is below every other and the top brick above, and the join of two bricks is above both and
below everything else that is. Nothing is asked of the bricks. -/
theorem Brick.ordered_with_least_joins (t : Thresholds) :
    (Brick.domain t).IsOrdered ∧ ∀ a b, (Brick.domain t).JoinIsLeast a b :=
  ⟨Brick.isOrdered t, fun a b => ⟨Brick.joinCovers t a b, Brick.join_le⟩⟩

/-- A sequence above two others need not be above their join: the join has `a` in the second brick.
-/
example :
    let x : BrickSeq := ⟨[.literal "a"]⟩
    let y : BrickSeq := ⟨[.of ["a", "c"] 1 1, .literal "b"]⟩
    let z : BrickSeq := ⟨[.of ["a", "c"] 1 1, .of ["b"] 0 1]⟩
    x.le z = true ∧ y.le z = true ∧ (x.join y).le z = false := by decide

/-- The join of two sequences is above both. -/
theorem BrickSeq.joinCovers (t : Thresholds) (x y : BrickSeq) :
    (BrickSeq.domain t).JoinCovers x y :=
  ⟨BrickSeq.le_join_left x y, BrickSeq.le_join_right x y⟩

/-- The join of a consistent environment with another one is above both. -/
theorem Env.IsConsistent.joinCovers {a : Env} (ha : a.IsConsistent) (t : Thresholds) (b : Env) :
    (Env.domain t).JoinCovers a b :=
  ⟨(ha.le_join b).1, (ha.le_join b).2⟩

/-- Join and widening of sequences cover their operands. -/
theorem BrickSeq.covers (t : Thresholds) (x y : BrickSeq) : (BrickSeq.domain t).Covers x y where
  toJoinCovers := BrickSeq.joinCovers t x y
  join_comm := Bool.and_eq_true_iff.2
    ⟨BrickSeq.join_le_join_comm x y, BrickSeq.join_le_join_comm y x⟩
  exists_widen :=
    ⟨_, BrickSeq.widen_eq_ok t x y, BrickSeq.le_widened_left t x y, BrickSeq.le_widened_right t x y⟩

/-- Join and widening of consistent environments cover their operands. -/
theorem Env.covers (t : Thresholds) {a b : Env} (ha : a.IsConsistent) (hb : b.IsConsistent) :
    (Env.domain t).Covers a b where
  toJoinCovers := ha.joinCovers t b
  join_comm := by
    show (Env.domain t).equiv (a.join b) (b.join a) = true
    exact Bool.and_eq_true_iff.2 ⟨Env.join_le_join_comm a b, Env.join_le_join_comm b a⟩
  exists_widen := by
    obtain ⟨r, hr⟩ := Env.exists_widen_eq_ok t a b
    exact ⟨r, hr, hb.le_widen hr⟩

/-- Consistency cannot be dropped: with an entry for no string, an environment is not below its own
join. -/
example : (Env.domain {}).le ⟨.insert .empty "x" .bottom, false⟩
    ((Env.domain {}).join ⟨.insert .empty "x" .bottom, false⟩
      ⟨.insert .empty "x" .bottom, false⟩) = false := by decide

/-- **Join and widening cover both operands**: the join of two values is above both and counts as
equal to the join from the other side, and the widening has no fault and is above both. This holds
of all sequences and of all environments that arise. -/
theorem join_and_widening_cover (t : Thresholds) :
    (∀ x y : BrickSeq, (BrickSeq.domain t).Covers x y) ∧
      ∀ a b : Env, a.Arises → b.Arises → (Env.domain t).Covers a b := by
  refine ⟨BrickSeq.covers t, ?_⟩
  intro a b ha hb
  exact Env.covers t ha.isConsistent hb.isConsistent

/-- An environment with one variable and one that has another variable besides. -/
theorem join_and_widening_cover_pair :
    (Env.top.set "x" (.literal "a")).Arises ∧
      ((Env.top.set "x" (.literal "ab")).set "y" (.literal "c")).Arises ∧
        (Env.domain {}).Covers (Env.top.set "x" (.literal "a"))
          ((Env.top.set "x" (.literal "ab")).set "y" (.literal "c")) := by
  have hone : (Env.top.set "x" (.literal "a")).Arises := .set _ _ .top
  have htwo : ((Env.top.set "x" (.literal "ab")).set "y" (.literal "c")).Arises :=
    .set _ _ (.set _ _ .top)
  exact ⟨hone, htwo, (join_and_widening_cover {}).2 _ _ hone htwo⟩

end StringBricks
