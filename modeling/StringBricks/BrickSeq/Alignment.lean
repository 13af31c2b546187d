import StringBricks.Brick.Order

/-!
# Alignment of lists of bricks

Two ways to set two lists of bricks against each other. Padding brings a list to the length of a
longer one by putting in fillers, greedily from the left. The order looks at every way of assigning
the bricks of one list, in order, to the bricks of the other.
-/

set_option autoImplicit false

namespace StringBricks

namespace Alignment

/-- One brick for each brick of the second list: the next one of `mine` if it equals the brick there
or if no filler is needed any more, and a filler otherwise. -/
def padTo (needed : Nat) : List Brick → List Brick → List Brick
  | _, [] => []
  | [], _ :: theirs => Brick.filler :: padTo (needed - 1) [] theirs
  | b :: mine, c :: theirs =>
    if needed = 0 ∨ b = c then b :: padTo needed mine theirs
    else Brick.filler :: padTo (needed - 1) (b :: mine) theirs

/-- The list `mine` with as many fillers put in as it is shorter than `theirs`. -/
def pad (mine theirs : List Brick) : List Brick :=
  if theirs.length ≤ mine.length then mine
  else padTo (theirs.length - mine.length) mine theirs

/-- Which ends of the second list the empty list aligns below: one answer for each end, the longest
first. A brick that nothing is assigned to has to admit the empty string. -/
def emptyRow : List Brick → List Bool
  | [] => [true]
  | c :: right =>
    let rest := emptyRow right
    (Brick.filler.le c && rest.headD false) :: rest

/-- The answers for a list that starts with `b`, from the answers `below` for its tail. The brick
`b` is assigned to nothing, or to the first brick on the right: alone, or as one of several if that
is the brick for every string. -/
def row (b : Brick) : List Brick → List Bool → List Bool
  | [], below => [b.le Brick.filler && below.headD false]
  | c :: right, below =>
    let rest := row b right below.tail
    let alone := b.le c && below.tail.headD false
    let beside := (b.le Brick.filler || c.isTop) && below.headD false
    let skipped := Brick.filler.le c && rest.headD false
    (alone || beside || skipped) :: rest

/-- The answers for `left` against every end of `right`, the longest end first. -/
def table (left right : List Brick) : List Bool :=
  left.foldr (fun b below => row b right below) (emptyRow right)

/-- Whether the bricks on the left can be assigned to the bricks on the right so that each brick on
the right is above what it is assigned. -/
def aligns (left right : List Brick) : Bool := (table left right).headD false

/-- The answers against the ends of `right` come after the one against `c :: right`. -/
theorem tail_table (left : List Brick) (c : Brick) (right : List Brick) :
    (table left (c :: right)).tail = table left right := by
  induction left with
  | nil => rfl
  | cons b left ih =>
    show row b right (table left (c :: right)).tail = row b right (table left right)
    rw [ih]

/-- Nothing aligns with nothing. -/
@[simp] theorem aligns_nil_nil : aligns [] [] = true := rfl

/-- Against nothing, every brick on the right must allow the filler. -/
@[simp] theorem aligns_nil_cons (c : Brick) (right : List Brick) :
    aligns [] (c :: right) = (Brick.filler.le c && aligns [] right) := rfl

/-- Against nothing, every brick on the left must be below the filler. -/
@[simp] theorem aligns_cons_nil (b : Brick) (left : List Brick) :
    aligns (b :: left) [] = (b.le Brick.filler && aligns left []) := rfl

/-- Two first bricks face each other, or one of them is left out. -/
@[simp] theorem aligns_cons_cons (b : Brick) (left : List Brick) (c : Brick) (right : List Brick) :
    aligns (b :: left) (c :: right) =
      (b.le c && aligns left right ||
        (b.le Brick.filler || c.isTop) && aligns left (c :: right) ||
        Brick.filler.le c && aligns (b :: left) right) := by
  show (b.le c && (table left (c :: right)).tail.headD false ||
      (b.le Brick.filler || c.isTop) && (table left (c :: right)).headD false ||
      Brick.filler.le c && (row b right (table left (c :: right)).tail).headD false) = _
  rw [tail_table]
  rfl

end Alignment

end StringBricks
