import StringBricks.Proofs.Domain
import StringBricks.Proofs.Env.Lattice
import StringBricks.Brick.Domain
import StringBricks.BrickSeq.Domain

/-!
# The orders of bricks, sequences and environments

Each of the three orders is reflexive and transitive and has extrema, and a larger value stands for
more. This holds of all values, also of sequences that are not in normal form and of bricks of any
shape for no string.
-/

set_option autoImplicit false

namespace StringBricks

/-- The order of bricks has the laws of an order with extrema. -/
theorem Brick.isOrdered (t : Thresholds) : (Brick.domain t).IsOrdered where
  le_refl := Brick.le_refl
  le_trans := Brick.le_trans
  bottom_le := Brick.le_of_isBottom Brick.isBottom_bottom
  le_top := Brick.le_top
  isBottom_of_le_bottom h := Brick.isBottom_of_le h Brick.isBottom_bottom

/-- The order of sequences has the laws of an order with extrema. -/
theorem BrickSeq.isOrdered (t : Thresholds) : (BrickSeq.domain t).IsOrdered where
  le_refl := BrickSeq.le_refl
  le_trans := BrickSeq.le_trans
  bottom_le := BrickSeq.le_of_isBottom BrickSeq.isBottom_bottom
  le_top := BrickSeq.le_top
  isBottom_of_le_bottom h := BrickSeq.isBottom_of_le h BrickSeq.isBottom_bottom

/-- Only environments without a state are below the unreachable one. -/
theorem Env.isUnreachable_of_le_unreachable {a : Env} (h : a.le unreachable = true) :
    a.isUnreachable = true := by
  rw [← Bool.not_eq_false]
  intro ha
  cases reachable_of_le h ha

/-- The top environment is above every other one. -/
theorem Env.le_top (a : Env) : a.le top = true := by
  cases ha : a.isUnreachable with
  | true => exact le_of_isUnreachable ha top
  | false =>
    refine (le_iff ha).2 ⟨rfl, ?_⟩
    intro k
    rw [get_top]
    exact BrickSeq.le_top _

/-- The order of environments has the laws of an order with extrema. -/
theorem Env.isOrdered (t : Thresholds) : (Env.domain t).IsOrdered where
  le_refl := Env.le_refl
  le_trans := Env.le_trans
  bottom_le := Env.unreachable_le
  le_top := Env.le_top
  isBottom_of_le_bottom := Env.isUnreachable_of_le_unreachable

/-- **The orders are sound**: a sequence has all the strings of the sequences below it, and an
environment has all the stores of the environments below it. -/
theorem orders_sound :
    (∀ x y : BrickSeq, x.le y = true → ∀ w, x.Denotes w → y.Denotes w) ∧
      ∀ a b : Env, a.le b = true → ∀ σ, a.Denotes σ → b.Denotes σ := by
  constructor
  · intro x y hle w hw
    exact BrickSeq.denotes_of_le hle hw
  · intro a b hle σ hσ
    exact Env.denotes_of_le hle hσ

/-- A filler, two literals, and a brick that occurs once or twice. -/
def pieces : BrickSeq := ⟨[.filler, .literal "x", .literal "y", .of ["a"] 1 2]⟩

/-- Anything, then a brick that occurs up to three times, then one that need not occur. -/
def outline : BrickSeq := ⟨[.top, .of ["a", "b"] 1 3, .of ["z"] 0 1]⟩

/-- The order has to place bricks in each of its ways here: the filler is left out, the two literals
share the brick for every string, and nothing is placed on the last brick. -/
theorem orders_sound_pieces :
    (pieces.le outline = true ∧ pieces.Denotes "xya" ∧ outline.Denotes "xya") ∧
      (Env.top.set "v" pieces).le (Env.top.set "v" outline) = true ∧
        (Env.top.set "v" pieces).Denotes (Store.set (fun _ => "") "v" "xya") ∧
          (Env.top.set "v" outline).Denotes (Store.set (fun _ => "") "v" "xya") := by
  have hle : pieces.le outline = true := by decide
  have hw : pieces.Denotes "xya" := by
    have hlast : (Brick.of ["a"] 1 2).Denotes "a" := by
      refine ⟨by decide, 1, Nat.le_refl 1, Nat.le_succ 1, ?_⟩
      rw [Content.spells_one]
      exact StringSet.mem_ofList.2 List.mem_cons_self
    refine ⟨List.cons_ne_nil _ _, "", "xya", Brick.denotes_filler.2 rfl, ?_, rfl⟩
    refine ⟨"x", "ya", Brick.denotes_literal.2 rfl, ?_, rfl⟩
    refine ⟨"y", "a", Brick.denotes_literal.2 rfl, ?_, rfl⟩
    exact ⟨"a", "", hlast, rfl, rfl⟩
  have hle' : (Env.top.set "v" pieces).le (Env.top.set "v" outline) = true := by decide
  have hσ : (Env.top.set "v" pieces).Denotes (Store.set (fun _ => "") "v" "xya") :=
    Env.denotes_set (Env.denotes_top _) hw
  exact ⟨⟨hle, hw, orders_sound.1 _ _ hle _ hw⟩, hle', hσ, orders_sound.2 _ _ hle' _ hσ⟩

/-- **The orders have their laws**: the orders of sequences and of environments are reflexive and
transitive, the bottom value is below every other and only values for nothing are below it, and the
top value is above every other. -/
theorem order_laws (t : Thresholds) :
    (BrickSeq.domain t).IsOrdered ∧ (Env.domain t).IsOrdered :=
  ⟨BrickSeq.isOrdered t, Env.isOrdered t⟩

end StringBricks
