import StringBricks.Env.Lattice
import StringBricks.Env.Evaluation
import StringBricks.Solver

/-!
# Analysis of programs

Runs a program on an abstract environment. A branch is run where its condition may hold, and the
outcomes are joined. A loop is left where its condition may fail, from an environment that holds
before each round.
-/

set_option autoImplicit false

namespace StringBricks

namespace Stmt

/-- The environment after `s`, with the widening limits `t` and loops solved by `solver`. -/
def analyze (t : Thresholds) (solver : Solver) (s : Stmt) (env : Env) : Except Fault Env :=
  if env.isUnreachable then .ok env
  else
    match s with
    | skip => .ok env
    | assign name e => .ok (env.assign name e)
    | seq s₁ s₂ => do analyze t solver s₂ (← analyze t solver s₁ env)
    | ite c s₁ s₂ => do
      let thenEnv ← analyze t solver s₁ (env.assume c)
      let elseEnv ← analyze t solver s₂ (env.assume c.not)
      return thenEnv.join elseEnv
    | loop c body => do
      let onceMore := fun x : Env => analyze t solver body (x.assume c)
      let head ← (solver.solve (Env.domain t) env onceMore).result
      return head.assume c.not
    | assume c => .ok (env.assume c)
    | havoc name => .ok (env.havoc name)

end Stmt

end StringBricks
