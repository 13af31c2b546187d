import StringBricks.Bound

/-!
# Faults

The only two ways in which building or combining abstract values can fail. Losing precision is not
a fault: it gives a larger value.
-/

set_option autoImplicit false

namespace StringBricks

/-- A breach of contract by whoever builds or combines values. -/
inductive Fault where
  /-- A brick was asked for with an infinite number of mandatory repetitions. -/
  | infiniteMinimum
  /-- Bounds could not be combined. -/
  | illFormed (cause : BoundError)
deriving DecidableEq, Repr

/-- The wording of a fault. -/
def Fault.message : Fault → String
  | .infiniteMinimum => "brick minimum cannot be infinite"
  | .illFormed cause => "ill-formed operands: " ++ cause.message

end StringBricks
