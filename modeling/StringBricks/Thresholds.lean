/-!
# Widening thresholds

Three limits beyond which widening gives up precision, so that ascending chains stay short.
-/

set_option autoImplicit false

namespace StringBricks

/-- The limits of widening. -/
structure Thresholds where
  /-- The widest range of repetitions that a brick may keep. -/
  rangeWidth : Nat := 10
  /-- The largest set of strings that a brick may keep. -/
  setSize : Nat := 20
  /-- The longest sequence of bricks that is widened brick by brick. -/
  length : Nat := 10
deriving DecidableEq, Repr

end StringBricks
