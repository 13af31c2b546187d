import StringBricks.Proofs.Order
import StringBricks.Proofs.UpperBounds
import StringBricks.Proofs.Solver.Invariant

/-!
# Searches that settle find post-fixpoints

If the ascent of a search settles, what is found is above the start and above its own image, for any
function, with or without faults, and after any number of narrowing steps. The only laws this needs
are that the order is transitive and that a join with the start is above both operands. Of the meet
that narrows nothing is needed.
-/

set_option autoImplicit false

namespace StringBricks

namespace Solver

variable {α : Type}

/-- Whether a search from `init` that settles, for whatever function, finds a value above `init` at
which the function has no fault and does not lead upwards. -/
def FindsPostfixpoints (s : Solver) (d : Domain α) (init : α) : Prop :=
  ∀ (f : α → Except Fault α) (peak r : α),
    (s.climb d init f).result = .ok ⟨peak, .settled⟩ → (s.solve d init f).result = .ok r →
      d.le init r = true ∧ ∃ y, f r = .ok y ∧ d.le y r = true

/-- Where joins with the start cover both operands, a stable value is a post-fixpoint. -/
theorem findsPostfixpoints_of_joinCovers {d : Domain α} {init : α} (hd : d.IsOrdered)
    (hjoin : ∀ y, d.JoinCovers init y) (s : Solver) : s.FindsPostfixpoints d init := by
  intro f peak r hsettled hr
  obtain ⟨y, hy, hle⟩ := stable_of_solve hsettled hr
  have hparts := (hjoin y).le_of_join_le hd hle
  exact ⟨hparts.1, y, hy, hparts.2⟩

/-- **Searches that settle find post-fixpoints**, for bricks, for sequences, and for environments
from every start that arises. -/
theorem settled_search_finds_postfixpoint (t : Thresholds) (s : Solver) :
    (∀ init : Brick, s.FindsPostfixpoints (Brick.domain t) init) ∧
      (∀ init : BrickSeq, s.FindsPostfixpoints (BrickSeq.domain t) init) ∧
        ∀ init : Env, init.Arises → s.FindsPostfixpoints (Env.domain t) init := by
  refine ⟨?_, ?_, ?_⟩
  · intro init
    exact findsPostfixpoints_of_joinCovers (Brick.isOrdered t) (Brick.joinCovers t init) s
  · intro init
    exact findsPostfixpoints_of_joinCovers (BrickSeq.isOrdered t) (BrickSeq.joinCovers t init) s
  · intro init hinit
    exact findsPostfixpoints_of_joinCovers (Env.isOrdered t) (hinit.isConsistent.joinCovers t) s

/-! ## A search with a fault and a descent -/

/-- The string `"a"` up to as many times as the bound says. -/
def upTo (hi : Bound) : Brick := ⟨.known (.singleton "a"), 0, hi⟩

/-- Allows one more repetition of `"a"` than `b` does, but no more than five, and has a fault at the
brick for every string. -/
def onceMoreUpToFive (b : Brick) : Except Fault Brick :=
  if b.isTop then .error .infiniteMinimum else .ok (upTo (min (b.hi + 1) 5))

/-- An environment in which only `x` is known, by a single brick. -/
def withX (b : Brick) : Env := Env.top.set "x" (.ofBrick b)

/-- The same for the variable `x`, with a fault where its value is not a single brick. -/
def onceMoreInX (env : Env) : Except Fault Env :=
  match (env.get "x").bricks with
  | [b] => (onceMoreUpToFive b).map withX
  | _ => .error .infiniteMinimum

/-- The ascent widens at once and gives up the upper bound, and the descent finds it again. -/
theorem settled_search_finds_postfixpoint_upToFive :
    ((Solver.climb ⟨1, 2, 10⟩ (Brick.domain ⟨2, 20, 10⟩) (upTo 1) onceMoreUpToFive).result =
        .ok ⟨upTo .infinite, .settled⟩ ∧
      (Solver.solve ⟨1, 2, 10⟩ (Brick.domain ⟨2, 20, 10⟩) (upTo 1) onceMoreUpToFive).result =
        .ok (upTo 5) ∧
      (upTo 1).le (upTo 5) = true ∧
      ∃ y, onceMoreUpToFive (upTo 5) = .ok y ∧ y.le (upTo 5) = true) ∧
    (withX (upTo 1)).Arises ∧
      (Solver.climb ⟨1, 2, 10⟩ (Env.domain ⟨2, 20, 10⟩) (withX (upTo 1)) onceMoreInX).result =
        .ok ⟨withX (upTo .infinite), .settled⟩ ∧
      (Solver.solve ⟨1, 2, 10⟩ (Env.domain ⟨2, 20, 10⟩) (withX (upTo 1)) onceMoreInX).result =
        .ok (withX (upTo 5)) ∧
      (withX (upTo 1)).le (withX (upTo 5)) = true ∧
      ∃ y, onceMoreInX (withX (upTo 5)) = .ok y ∧ y.le (withX (upTo 5)) = true := by
  have hfinds := settled_search_finds_postfixpoint ⟨2, 20, 10⟩ ⟨1, 2, 10⟩
  have harises : (withX (upTo 1)).Arises := .set _ _ .top
  refine ⟨⟨rfl, rfl, ?_⟩, harises, rfl, rfl, ?_⟩
  · exact hfinds.1 (upTo 1) onceMoreUpToFive (upTo .infinite) (upTo 5) rfl rfl
  · exact hfinds.2.2 (withX (upTo 1)) harises onceMoreInX (withX (upTo .infinite))
      (withX (upTo 5)) rfl rfl

end Solver

end StringBricks
