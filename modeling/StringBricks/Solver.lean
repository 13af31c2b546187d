import StringBricks.Domain
import StringBricks.Traced

/-!
# Solving for a stable value

Looks for a value above `init` that a function `f` on an abstract domain does not leave upwards. An
ascent from `init` joins at first and widens later, until a value is stable or the cap is reached. A
descent then narrows the value, and keeps only what is still stable. The first fault of `f` or of
widening ends the search.
-/

set_option autoImplicit false

namespace StringBricks

/-- How long each phase of the search goes on. -/
structure Solver where
  /-- The ascent widens from this step on. -/
  wideningDelay : Nat := 3
  /-- The largest number of steps of the descent. -/
  narrowingSteps : Nat := 2
  /-- The ascent gives up after more steps than this. -/
  iterationCap : Nat := 1000
deriving DecidableEq, Repr

namespace Solver

variable {α : Type}

/-- How an ascent ended: at a stable value, or because of the cap. -/
inductive Ending where
  | settled
  | capped
deriving DecidableEq, Repr

/-- What an ascent arrived at. -/
structure Ascent (α : Type) where
  value : α
  ending : Ending

/-- The value after `x` in an ascent, where `next` is an upper bound of `init` and the image of `x`:
`next` itself at first, and from the delay on the widening of `x` by it. -/
def advance (s : Solver) (d : Domain α) (steps : Nat) (x next : α) : Except Fault α :=
  if s.wideningDelay ≤ steps + 1 then d.widen x next else .ok next

/-- Goes up from `x`, with at most `rounds` more steps after the `steps` that were made. A value `x`
is stable if `init` joined with `f x` is below `x`. -/
def ascend (s : Solver) (d : Domain α) (init : α) (f : α → Except Fault α) :
    (rounds steps : Nat) → α → Traced α (Ascent α)
  | 0, _, x => return ⟨x, .capped⟩
  | rounds + 1, steps, x => do
    let next := d.join init (← .call f x)
    if d.le next x then
      return ⟨x, .settled⟩
    else
      ascend s d init f rounds (steps + 1) (← .ofResult (s.advance d steps x next))

/-- Goes down from `x` in at most `steps` steps. Stops at the first candidate that is above the
value before it or not stable. -/
def descend (d : Domain α) (init : α) (f : α → Except Fault α) : (steps : Nat) → α → Traced α α
  | 0, x => return x
  | steps + 1, x => do
    let next := d.narrow x (d.join init (← .call f x))
    if d.le x next then
      return x
    else
      let image ← .call f next
      if d.le (d.join init image) next then descend d init f steps next else return x

/-- The ascent from `init`. Its last step is the one that passes the cap. -/
def climb (s : Solver) (d : Domain α) (init : α) (f : α → Except Fault α) :
    Traced α (Ascent α) :=
  s.ascend d init f (s.iterationCap + 1) 0 init

/-- The value that is found above `init`, and the calls of `f` that were made. -/
def solve (s : Solver) (d : Domain α) (init : α) (f : α → Except Fault α) : Traced α α := do
  let peak ← s.climb d init f
  descend d init f s.narrowingSteps peak.value

end Solver

end StringBricks
