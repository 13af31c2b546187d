import StringBricks.BrickSeq.Basic
import StringBricks.BrickSeq.Alignment
import StringBricks.Brick.Widening

/-!
# Order, join, meet and widening of sequences

The order is decided by alignment. Join, meet and widening set padded sequences against each other
brick by brick. A join or widening that fails to cover its operands falls back to the top sequence.
-/

set_option autoImplicit false

namespace StringBricks

namespace BrickSeq

/-- Whether `x` is below `y`. -/
def le (x y : BrickSeq) : Bool :=
  x.isBottom || y.isTop || (!y.isBottom && Alignment.aligns x.bricks y.bricks)

/-- The bricks of `x` and `y` in pairs, both padded to the length of the longer one. -/
def paired (x y : BrickSeq) : List (Brick × Brick) :=
  (Alignment.pad x.bricks y.bricks).zip (Alignment.pad y.bricks x.bricks)

/-- The candidate if it is above both sequences, and top otherwise. -/
def covering (x y candidate : BrickSeq) : BrickSeq :=
  if x.le candidate && y.le candidate then candidate else top

/-- An upper bound of `x` and `y`. -/
def join (x y : BrickSeq) : BrickSeq :=
  if x.isBottom then y
  else if y.isBottom then x
  else if x.isTop || y.isTop then top
  else covering x y (normalized ((paired x y).map fun (a, b) => a.join b))

/-- An approximation of the strings that `x` and `y` share. -/
def meet (x y : BrickSeq) : BrickSeq :=
  if x.isBottom || y.isBottom then bottom
  else if x.isTop then y
  else if y.isTop then x
  else ⟨(paired x y).map fun (a, b) => a.meet b⟩

/-- An upper bound of `x` and `y`, cut off at the limits `t`. Sequences that are unrelated or too
long are given up. -/
def widen (t : Thresholds) (x y : BrickSeq) : Except Fault BrickSeq :=
  if x.isBottom then .ok y
  else if y.isBottom || x.isTop then .ok x
  else if y.isTop then .ok y
  else if !x.le y && !y.le x then .ok top
  else if t.length < x.length || t.length < y.length then .ok top
  else do
    let widened ← (paired x y).mapM fun (a, b) => a.widen t b
    return covering x y (normalized widened)

end BrickSeq

end StringBricks
