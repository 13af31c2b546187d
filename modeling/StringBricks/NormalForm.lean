import StringBricks.Brick.Basic

/-!
# Normal form of a list of bricks

A list of bricks stands for the concatenations of one string from each. Five rules bring it to a
shorter list for the same strings:

1. drop the fillers;
2. merge neighbours that both occur once into their cross product;
3. turn a brick that occurs exactly `k` times into one occurrence of the `k`-fold product of its
   set;
4. merge neighbours over the same content by adding their ranges;
5. split a range `(m, M)` with `1 ≤ m < M` into `m` occurrences and the range `(0, M - m)`.

The first rule runs once. The other four, in the order 3, 5, 4, 2, make up a cycle, which is
repeated until it changes nothing, and at most `maxCycles` times. A list with a brick for no string
stands for no string itself and becomes the bottom brick alone.
-/

set_option autoImplicit false

namespace StringBricks

namespace NormalForm

/-- The list without its fillers. -/
def dropFillers (l : List Brick) : List Brick := l.filter fun b => !b.isFiller

/-- A brick that occurs exactly `k ≥ 2` times, as one occurrence of the `k`-fold product. -/
def collapse (b : Brick) : Brick :=
  match b.exactCount? with
  | some k => if 2 ≤ k.toNat then ⟨b.content.power k.toNat, 1, 1⟩ else b
  | none => b

/-- The brick alone, or its mandatory occurrences followed by the optional ones. -/
def split (b : Brick) : List Brick :=
  if b.isGuaranteed && .finite b.lo < b.hi && !b.isBottom then
    match b.hi.sub b.lo with
    | .ok rest => [collapse ⟨b.content, b.lo, b.lo⟩, ⟨b.content, 0, rest⟩]
    | .error _ => [b]
  else [b]

/-- Every brick of the list split. -/
def splitRanges (l : List Brick) : List Brick := l.flatMap split

/-- Two bricks over the same content as one, with their ranges added. -/
def mergeEqual? (a b : Brick) : Option Brick :=
  if a.content = b.content then some ⟨a.content, a.lo + b.lo, a.hi + b.hi⟩ else none

/-- Two bricks of known content that occur once as one. -/
def mergeSingle? (a b : Brick) : Option Brick :=
  if a.isSingle && b.isSingle then (a.content.cross? b.content).map (⟨·, 1, 1⟩) else none

/-- Merges neighbours from left to right, with `last` as the brick that is still open: what comes of
a merge may merge again. -/
def mergeFrom (merge? : Brick → Brick → Option Brick) (last : Brick) : List Brick → List Brick
  | [] => [last]
  | b :: l =>
    match merge? last b with
    | some merged => mergeFrom merge? merged l
    | none => last :: mergeFrom merge? b l

/-- The list with its neighbours merged, in one pass. -/
def mergeNeighbors (merge? : Brick → Brick → Option Brick) : List Brick → List Brick
  | [] => []
  | b :: l => mergeFrom merge? b l

/-- The list with neighbours over the same content merged. -/
def mergeEqual (l : List Brick) : List Brick := mergeNeighbors mergeEqual? l

/-- The list with neighbours that occur once merged. -/
def mergeSingles (l : List Brick) : List Brick := mergeNeighbors mergeSingle? l

/-- Whether some two neighbours can be merged. -/
def hasMergeableNeighbors (l : List Brick) : Bool :=
  (l.zip l.tail).any fun (a, b) => (mergeEqual? a b).isSome || (mergeSingle? a b).isSome

/-- One round of the rules that are repeated. -/
def cycle (l : List Brick) : List Brick :=
  mergeSingles (mergeEqual (splitRanges (l.map collapse)))

/-- Repeats the cycle until it changes nothing, at most `rounds` times. -/
def settle : Nat → List Brick → List Brick
  | 0, l => l
  | rounds + 1, l =>
    let next := cycle l
    if next = l then l else settle rounds next

/-- How often the cycle is repeated at most. -/
def maxCycles : Nat := 1000

/-- The normal form, with at most `rounds` cycles. -/
def normalizeWithin (rounds : Nat) (l : List Brick) : List Brick :=
  if l.any Brick.isBottom then [Brick.bottom] else settle rounds (dropFillers l)

end NormalForm

/-- The normal form of a list of bricks. -/
def normalize (l : List Brick) : List Brick := NormalForm.normalizeWithin NormalForm.maxCycles l

end StringBricks
