import StringBricks.Content
import StringBricks.Bound
import StringBricks.Fault

/-!
# Bricks

A brick stands for every concatenation of at least `lo` and at most `hi` strings that its content
allows. Three shapes stand for no string at all: a range with `hi` below `lo`, an empty set with a
range other than `(0, 0)`, and a non-empty set with the range `(0, 0)`. The empty set with the range
`(0, 0)` is the filler, which stands for the empty string.
-/

set_option autoImplicit false

namespace StringBricks

/-- A content that is repeated between `lo` and `hi` times. -/
structure Brick where
  content : Content
  lo : Count
  hi : Bound
deriving DecidableEq

namespace Brick

/-- A brick with the bounds `lo` and `hi`. The number of mandatory repetitions has to be finite. -/
def ofBounds (content : Content) (lo hi : Bound) : Except Fault Brick :=
  match lo with
  | .finite n => .ok ⟨content, n, hi⟩
  | .infinite => .error .infiniteMinimum

/-- The strings of a list, repeated. -/
def of (strings : List String) (lo : Count) (hi : Bound) : Brick :=
  ⟨.known (.ofList strings), lo, hi⟩

/-- Any strings, repeated. -/
def any (lo : Count) (hi : Bound) : Brick := ⟨.unknown, lo, hi⟩

/-- Exactly the string `s`. -/
def literal (s : String) : Brick := ⟨.known (.singleton s), 1, 1⟩

/-- Exactly the empty string, as nothing repeated no times. -/
def filler : Brick := ⟨.known .empty, 0, 0⟩

/-- Every string. -/
def top : Brick := any 0 .infinite

/-- No string. -/
def bottom : Brick := ⟨.known .empty, 1, 0⟩

/-- Whether a brick allows everything. -/
def isTop (b : Brick) : Bool := b.content = .unknown && b.lo = 0 && b.hi = .infinite

/-- Whether fewer repetitions are allowed than are mandatory. -/
def hasEmptyRange (b : Brick) : Bool := b.hi < .finite b.lo

/-- Whether no repetition is allowed and none is mandatory. -/
def hasZeroRange (b : Brick) : Bool := b.lo = 0 && b.hi = 0

/-- Whether the brick has one of the three shapes that stand for no string. -/
def isBottom (b : Brick) : Bool :=
  b.hasEmptyRange ||
    match b.content with
    | .known members => members.isEmpty != b.hasZeroRange
    | .unknown => false

/-- Whether a brick is the filler. -/
def isFiller (b : Brick) : Bool := b.content = .known .empty && b.hasZeroRange

/-- The number of repetitions, if there is only one choice. -/
def exactCount? (b : Brick) : Option Count :=
  b.hi.finite?.filter (· = b.lo)

/-- Whether the content occurs exactly once. -/
def isSingle (b : Brick) : Bool := b.exactCount? = some 1

/-- Whether the content occurs at least once. -/
def isGuaranteed (b : Brick) : Bool := 1 ≤ b.lo

/-- Only one brick allows everything. -/
theorem isTop_iff {b : Brick} : b.isTop = true ↔ b = top := by
  obtain ⟨content, lo, hi⟩ := b
  simp [isTop, top, any, and_assoc]

/-- Only one brick is the filler. -/
theorem isFiller_iff {b : Brick} : b.isFiller = true ↔ b = filler := by
  obtain ⟨content, lo, hi⟩ := b
  simp [isFiller, hasZeroRange, filler]

/-- A brick is single exactly if both its bounds are one. -/
theorem isSingle_iff {b : Brick} : b.isSingle = true ↔ b.lo = 1 ∧ b.hi = 1 := by
  obtain ⟨content, lo, hi⟩ := b
  cases hi with
  | infinite => simp [isSingle, exactCount?, Bound.finite?, OfNat.ofNat]
  | finite n =>
    have hone : (1 : Bound) = .finite 1 := rfl
    simp only [isSingle, exactCount?, Bound.finite?, hone, Bound.finite.injEq]
    by_cases h : n = lo
    · simp [Option.filter, h]
    · simp only [Option.filter, h, decide_false, Bool.false_eq_true, if_false]
      constructor
      · intro hfalse
        exact absurd hfalse (by simp)
      · rintro ⟨rfl, rfl⟩
        exact absurd rfl h

end Brick

end StringBricks
