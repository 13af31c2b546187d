import StringBricks.Env.Basic
import StringBricks.BrickSeq.Lattice
import StringBricks.Domain

/-!
# Order, join, meet and widening of environments

Environments are compared and combined variable by variable. The unreachable environment is below
every other one.
-/

set_option autoImplicit false

namespace StringBricks

namespace Env

/-- The names with an entry in either environment. -/
def jointNames (a b : Env) : List String := (a.names.union b.names).toList

/-- Combines the values of each variable. -/
def pointwise (op : BrickSeq → BrickSeq → BrickSeq) (a b : Env) : Env :=
  (jointNames a b).foldl (fun r name => r.set name (op (a.get name) (b.get name))) top

/-- Whether every variable is below. -/
def le (a b : Env) : Bool :=
  a.isUnreachable ||
    (!b.isUnreachable && (jointNames a b).all fun name => (a.get name).le (b.get name))

/-- An upper bound of `a` and `b`. -/
def join (a b : Env) : Env :=
  if a.isUnreachable then b
  else if b.isUnreachable then a
  else pointwise .join a b

/-- An approximation of the states that `a` and `b` share. -/
def meet (a b : Env) : Env :=
  if a.isUnreachable || b.isUnreachable then unreachable else pointwise .meet a b

/-- An upper bound of `a` and `b`, cut off at the limits `t`. -/
def widen (t : Thresholds) (a b : Env) : Except Fault Env :=
  if a.isUnreachable then .ok b
  else if b.isUnreachable then .ok a
  else (jointNames a b).foldlM (fun r name => do
    return r.set name (← (a.get name).widen t (b.get name))) top

/-- Environments as an abstract domain, with the widening limits `t`. -/
def domain (t : Thresholds) : Domain Env where
  bottom := unreachable
  top := top
  isBottom := isUnreachable
  isTop := isTop
  le := le
  join := join
  meet := meet
  widen := widen t

end Env

end StringBricks
