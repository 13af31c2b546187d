import StringBricks.Analysis

/-!
# Whether loops were settled

An analysis solves each loop once for every time it meets it. Here it is told whether all these
searches ended at a stable value, those for inner loops included.
-/

set_option autoImplicit false

namespace StringBricks

namespace Stmt

/-- Whether every loop that is solved in the analysis of the statement is settled. -/
def Settles (t : Thresholds) (solver : Solver) (s : Stmt) (env : Env) : Prop :=
  env.isUnreachable = false →
    match s with
    | seq s₁ s₂ =>
      s₁.Settles t solver env ∧ ∀ mid, s₁.analyze t solver env = .ok mid → s₂.Settles t solver mid
    | ite c s₁ s₂ => s₁.Settles t solver (env.assume c) ∧ s₂.Settles t solver (env.assume c.not)
    | loop c body =>
      let onceMore := fun x : Env => body.analyze t solver (x.assume c)
      (∃ x, (solver.climb (Env.domain t) env onceMore).result = .ok ⟨x, .settled⟩) ∧
        ∀ x ∈ (solver.solve (Env.domain t) env onceMore).calls, body.Settles t solver (x.assume c)
    | skip | assign _ _ | assume _ | havoc _ => True

end Stmt

end StringBricks
