/-!
# Verdicts

The answer to "does this condition hold for every concrete value?" has three values.
-/

set_option autoImplicit false

namespace StringBricks

/-- What is known of a condition over a set of concrete values. -/
inductive Verdict where
  /-- It holds for every value. -/
  | holds
  /-- It holds for no value. -/
  | fails
  /-- Neither is known. -/
  | unknown
deriving DecidableEq, Repr

namespace Verdict

/-- The verdict for a known answer. -/
def ofBool : Bool → Verdict
  | true => holds
  | false => fails

/-- The verdict for the opposite question. -/
def negate : Verdict → Verdict
  | holds => fails
  | fails => holds
  | unknown => unknown

/-- Both conditions: one that fails decides, and two that hold. -/
def and : Verdict → Verdict → Verdict
  | fails, _ | _, fails => fails
  | holds, holds => holds
  | _, _ => unknown

/-- Either condition: one that holds decides, and two that fail. -/
def or : Verdict → Verdict → Verdict
  | holds, _ | _, holds => holds
  | fails, fails => fails
  | _, _ => unknown

/-- The answer for two control-flow paths together: the common one, if they agree. -/
def merge (a b : Verdict) : Verdict := if a = b then a else unknown

/-- Some value may satisfy the condition. -/
def mayHold (a : Verdict) : Bool := a != fails

/-- Some value may violate the condition. -/
def mayFail (a : Verdict) : Bool := a != holds

/-- A verdict in words. -/
def text : Verdict → String
  | holds => "satisfied"
  | fails => "not satisfied"
  | unknown => "unknown"

end Verdict

end StringBricks
