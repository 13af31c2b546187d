import StringBricks.BrickSeq.Basic
import StringBricks.Bindings

/-!
# Environments

What is known of the variables at a point of a program: an abstract string for each variable, or
that the point cannot be reached. A variable without an entry may hold any string. Whether there is
a state is kept beside the entries, and setting a variable clears them when it leaves no state: an
environment that says it is unreachable could have entries, but none that is made by setting
variables does.
-/

set_option autoImplicit false

namespace StringBricks

/-- An abstract state of the variables: the entries, and whether there is no state at all. -/
structure Env where
  values : Bindings BrickSeq
  isUnreachable : Bool
deriving DecidableEq

namespace Env

/-- Nothing is known of any variable. -/
def top : Env := ⟨.empty, false⟩

/-- No state at all. -/
def unreachable : Env := ⟨.empty, true⟩

/-- Whether there are states and no variable has an entry. -/
def isTop (env : Env) : Bool := !env.isUnreachable && env.values.entries.isEmpty

/-- The abstract value of a variable. -/
def get (env : Env) (name : String) : BrickSeq :=
  if env.isUnreachable then .bottom else (env.values.get? name).getD .top

/-- Gives a variable an abstract value. One that stands for no string makes the state unreachable
and clears the entries, and the top value is kept by having no entry. -/
def set (env : Env) (name : String) (x : BrickSeq) : Env :=
  if env.isUnreachable then env
  else if x.isBottom then { env with values := .empty, isUnreachable := true }
  else if x.isTop then { env with values := env.values.erase name }
  else { env with values := env.values.insert name x }

/-- The names of the variables that have an entry. -/
def names (env : Env) : StringSet := env.values.names

variable {env : Env} {name : String} {x : BrickSeq}

/-- The environment without bindings has a state. -/
@[simp] theorem isUnreachable_top : top.isUnreachable = false := rfl

/-- The unreachable environment has none. -/
@[simp] theorem isUnreachable_unreachable : unreachable.isUnreachable = true := rfl

/-- No variable has a value where there is no state. -/
@[simp] theorem get_unreachable (name : String) : unreachable.get name = .bottom := rfl

/-- Without bindings every variable may be any string. -/
@[simp] theorem get_top (name : String) : top.get name = .top := rfl

/-- Where there is no state, setting a variable makes none. -/
@[simp] theorem set_unreachable (name : String) (x : BrickSeq) :
    unreachable.set name x = unreachable := rfl

/-- Without a state every variable has the bottom value, whatever its entry. -/
theorem get_of_isUnreachable (h : env.isUnreachable = true) (name : String) :
    env.get name = .bottom := if_pos h

/-- In a state a variable has the value of its entry. -/
theorem get_of_reachable (h : env.isUnreachable = false) (name : String) :
    env.get name = (env.values.get? name).getD .top := by
  rw [get, h]
  rfl

/-- Without a state nothing is set. -/
theorem set_of_isUnreachable (h : env.isUnreachable = true) (name : String) (x : BrickSeq) :
    env.set name x = env := if_pos h

/-- Setting a variable to a value that stands for no string leaves no state and no entries. -/
theorem set_of_isBottom (h : env.isUnreachable = false) (name : String) (hx : x.isBottom = true) :
    env.set name x = unreachable := by
  simp [set, h, hx, unreachable]

/-- The top value is set by removing the entry. -/
theorem set_of_isTop (h : env.isUnreachable = false) (name : String) (hx : x.isBottom = false)
    (htop : x.isTop = true) : env.set name x = ⟨env.values.erase name, false⟩ := by
  simp [set, h, hx, htop]

/-- Any other value is set by an entry. -/
theorem set_of_not_isTop (h : env.isUnreachable = false) (name : String) (hx : x.isBottom = false)
    (htop : x.isTop = false) : env.set name x = ⟨env.values.insert name x, false⟩ := by
  simp [set, h, hx, htop]

/-- Setting a variable leaves a state if there was one and the value stands for something. -/
@[simp] theorem isUnreachable_set (env : Env) (name : String) (x : BrickSeq) :
    (env.set name x).isUnreachable = (env.isUnreachable || x.isBottom) := by
  cases h : env.isUnreachable with
  | true => rw [set_of_isUnreachable h, h, Bool.true_or]
  | false =>
    cases hx : x.isBottom with
    | true => rw [set_of_isBottom h name hx, isUnreachable_unreachable, Bool.or_true]
    | false =>
      cases htop : x.isTop with
      | true => rw [set_of_isTop h name hx htop, Bool.or_false]
      | false => rw [set_of_not_isTop h name hx htop, Bool.or_false]

/-- A value that stands for something is what the variable then has, and no other variable is
changed. -/
theorem get_set (h : env.isUnreachable = false) (hx : x.isBottom = false) (name k : String) :
    (env.set name x).get k = if k = name then x else env.get k := by
  have hset : (env.set name x).isUnreachable = false := by
    rw [isUnreachable_set, h, hx, Bool.or_false]
  rw [get_of_reachable hset, get_of_reachable h]
  cases htop : x.isTop with
  | true =>
    rw [set_of_isTop h name hx htop, BrickSeq.isTop_iff.1 htop]
    by_cases hk : k = name <;> simp [hk]
  | false =>
    rw [set_of_not_isTop h name hx htop]
    by_cases hk : k = name <;> simp [hk]

end Env

end StringBricks
