import StringBricks.Env.Basic
import StringBricks.BrickSeq.Operations
import StringBricks.Program

/-!
# Expressions and conditions in an environment

The abstract value of an expression, what is known of a condition, and the environment after an
assignment or after a condition was found to hold.
-/

set_option autoImplicit false

namespace StringBricks

namespace Env

/-- The abstract value of an expression. In no state at all it has no value. -/
def eval (env : Env) (e : Expr) : BrickSeq :=
  if env.isUnreachable then .bottom
  else
    match e with
    | .var name => env.get name
    | .lit value => .literal value
    | .concat e₁ e₂ => (env.eval e₁).concat (env.eval e₂)
    | .substring e first past => (env.eval e).substring first past
    | .null | .replace _ _ _ | .input => .top

/-- What is known of a condition. Two strings are compared only if both are spelled out. In no state
at all every condition holds. -/
def verdict (env : Env) (c : Cond) : Verdict :=
  if env.isUnreachable then .holds
  else
    match c with
    | .always => .holds
    | .never => .fails
    | .contains haystack needle => (env.eval haystack).contains (env.eval needle)
    | .eq e₁ e₂ =>
      match (env.eval e₁).asLiteral?, (env.eval e₂).asLiteral? with
      | some s₁, some s₂ => .ofBool (s₁ = s₂)
      | _, _ => .unknown
    | .not c => (env.verdict c).negate
    | .and c₁ c₂ => (env.verdict c₁).and (env.verdict c₂)
    | .or c₁ c₂ => (env.verdict c₁).or (env.verdict c₂)

/-- The environment after `name` was given the value of `e`. -/
def assign (env : Env) (name : String) (e : Expr) : Env := env.set name (env.eval e)

/-- The environment after `name` was given any value. -/
def havoc (env : Env) (name : String) : Env := env.set name .top

/-- The environment after `c` was found to hold. A condition that fails leaves no state. An equality
with a variable binds that variable to the value of the other side; of two variables it is the left
one that is bound. -/
def assume (env : Env) (c : Cond) : Env :=
  if env.isUnreachable then env
  else if env.verdict c = .fails then unreachable
  else
    match c with
    | .eq (.var name) e => env.assign name e
    | .eq e (.var name) => env.assign name e
    | .and c₁ c₂ => (env.assume c₁).assume c₂
    | _ => env

variable {env : Env}

/-- In no state at all every condition holds. -/
theorem verdict_of_isUnreachable (h : env.isUnreachable = true) (c : Cond) :
    env.verdict c = .holds := by
  unfold verdict
  exact if_pos h

/-- Assuming a condition changes nothing where there is no state. -/
theorem assume_of_isUnreachable (h : env.isUnreachable = true) (c : Cond) : env.assume c = env := by
  unfold assume
  exact if_pos h

/-- Assigning a variable changes nothing where there is no state. -/
theorem assign_of_isUnreachable (h : env.isUnreachable = true) (name : String) (e : Expr) :
    env.assign name e = env :=
  set_of_isUnreachable h name _

/-- Forgetting a variable changes nothing where there is no state. -/
theorem havoc_of_isUnreachable (h : env.isUnreachable = true) (name : String) :
    env.havoc name = env :=
  set_of_isUnreachable h name _

end Env

end StringBricks
