import StringBricks.Env.Basic
import StringBricks.BrickSeq.Language
import StringBricks.Program.Execution

/-!
# The stores of an environment

Which stores an environment stands for: none if it is unreachable, and else those that give each
variable one of the strings of its abstract value.
-/

set_option autoImplicit false

namespace StringBricks

namespace Env

/-- Whether the store is one of those that the environment stands for. -/
def Denotes (env : Env) (σ : Store) : Prop :=
  env.isUnreachable = false ∧ ∀ name, (env.get name).Denotes (σ name)

/-- The environment without bindings describes every store. -/
theorem denotes_top (σ : Store) : top.Denotes σ :=
  ⟨rfl, fun name => BrickSeq.denotes_top (σ name)⟩

end Env

end StringBricks
