import StringBricks.NormalForm

/-!
# Sequences of bricks

A sequence of bricks stands for every concatenation of one string from each of its bricks, in order.
The empty sequence is the exception: it stands for no string, not for the empty one. So does every
sequence with a brick for no string.
-/

set_option autoImplicit false

namespace StringBricks

/-- An abstract string: bricks in order. -/
@[ext] structure BrickSeq where
  bricks : List Brick
deriving DecidableEq

namespace BrickSeq

/-- Every string. -/
def top : BrickSeq := ⟨[Brick.top]⟩

/-- No string. -/
def bottom : BrickSeq := ⟨[]⟩

/-- Exactly the string `s`. -/
def literal (s : String) : BrickSeq := ⟨[Brick.literal s]⟩

/-- The sequence of one brick. -/
def ofBrick (b : Brick) : BrickSeq := ⟨[b]⟩

/-- The sequence in normal form for a list of bricks. Fillers alone stand for the empty string. -/
def normalized (l : List Brick) : BrickSeq :=
  if l.any Brick.isBottom then bottom
  else if (normalize l).isEmpty && !l.isEmpty then literal ""
  else ⟨normalize l⟩

/-- The number of bricks. -/
def length (x : BrickSeq) : Nat := x.bricks.length

/-- Whether the sequence is the top brick alone. -/
def isTop (x : BrickSeq) : Bool :=
  match x.bricks with
  | [b] => b.isTop
  | _ => false

/-- Whether the sequence is empty or has a brick for no string. -/
def isBottom (x : BrickSeq) : Bool := x.bricks.isEmpty || x.bricks.any Brick.isBottom

/-- A sequence for some string has no brick for none. -/
theorem any_isBottom_of_not_isBottom {x : BrickSeq} (h : x.isBottom = false) :
    x.bricks.any Brick.isBottom = false :=
  (Bool.or_eq_false_iff.1 h).2

/-- The string that `x` stands for, if `x` is a single brick that spells it out. -/
def asLiteral? (x : BrickSeq) : Option String :=
  match x.bricks with
  | [b] =>
    match b.isSingle, b.content with
    | true, .known ⟨[s], _⟩ => some s
    | _, _ => none
  | _ => none

/-- The character that `x` stands for, if `x` is a literal of one character. -/
def asChar? (x : BrickSeq) : Option Char :=
  x.asLiteral?.bind fun s =>
    match s.toList with
    | [c] => some c
    | _ => none

/-- Only one sequence is the top brick alone. -/
theorem isTop_iff {x : BrickSeq} : x.isTop = true ↔ x = top := by
  obtain ⟨bricks⟩ := x
  match bricks with
  | [] => simp [isTop, top]
  | [b] => simp [isTop, top, Brick.isTop_iff]
  | _ :: _ :: _ => simp [isTop, top]

end BrickSeq

end StringBricks
