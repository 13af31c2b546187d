import StringBricks.Env.Basic
import StringBricks.BrickSeq.Text

/-!
# Environments as text

An environment is written as its entries between braces, in ascending order of the names. Names are
written as they are.
-/

set_option autoImplicit false

namespace StringBricks

/-- The written form of an environment. -/
def Env.text (env : Env) : String :=
  if env.isUnreachable then "⊥"
  else
    "\x7b" ++
      Text.commaSeparated (env.values.entries.map fun (name, x) => name ++ " ↦ " ++ x.text) ++
        "\x7d"

end StringBricks
