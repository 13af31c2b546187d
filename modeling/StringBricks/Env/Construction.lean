import StringBricks.Analysis

/-!
# How environments come about

The environments that the operations of this library can lead to, and those among them that are made
by setting variables alone.
-/

set_option autoImplicit false

namespace StringBricks

namespace Env

/-- Made from the top or the unreachable environment by setting variables. -/
inductive MadeBySets : Env → Prop
  | top : MadeBySets top
  | unreachable : MadeBySets unreachable
  | set {env : Env} (name : String) (x : BrickSeq) : MadeBySets env → MadeBySets (env.set name x)

/-- Made by any of the operations on environments. -/
inductive Arises : Env → Prop
  | top : Arises top
  | unreachable : Arises unreachable
  | set {env : Env} (name : String) (x : BrickSeq) : Arises env → Arises (env.set name x)
  | assign {env : Env} (name : String) (e : Expr) : Arises env → Arises (env.assign name e)
  | havoc {env : Env} (name : String) : Arises env → Arises (env.havoc name)
  | assume {env : Env} (c : Cond) : Arises env → Arises (env.assume c)
  | join {a b : Env} : Arises a → Arises b → Arises (a.join b)
  | meet {a b : Env} : Arises a → Arises b → Arises (a.meet b)
  | widen {a b r : Env} (t : Thresholds) : Arises a → Arises b → a.widen t b = .ok r → Arises r
  | narrow {a b : Env} (t : Thresholds) : Arises a → Arises b → Arises ((domain t).narrow a b)
  | analyze {env r : Env} (t : Thresholds) (solver : Solver) (s : Stmt) :
      Arises env → s.analyze t solver env = .ok r → Arises r

end Env

end StringBricks
