import StringBricks.BrickSeq.Basic
import StringBricks.Text.Slice
import StringBricks.Verdict

/-!
# String operations on sequences

Concatenation, substring and the containment test, each for all the strings of its operands at once.
Whatever cannot be told precisely is answered by the top sequence or by `unknown`.
-/

set_option autoImplicit false

namespace StringBricks

namespace Brick

/-- Whether every string of a brick contains the character `c`. -/
def mustContain (b : Brick) (c : Char) : Bool :=
  match b.content with
  | .known members => b.isGuaranteed && members.toList.all (·.toList.contains c)
  | .unknown => false

/-- Whether some string of a brick may contain the character `c`. -/
def mayContain (b : Brick) (c : Char) : Bool :=
  match b.content with
  | .known members => members.toList.any (·.toList.contains c)
  | .unknown => 0 < b.hi

end Brick

namespace BrickSeq

/-- The concatenations of a string of `x` and a string of `y`. -/
def concat (x y : BrickSeq) : BrickSeq :=
  if x.isBottom || y.isBottom then bottom else normalized (x.bricks ++ y.bricks)

/-- The slices from position `first` up to `past` of the strings of `x`. They are told if the normal
form starts with a brick of known content that occurs once and whose members all reach `past`: the
members are sliced and the other bricks are kept. In any other case the answer is the top
sequence. -/
def substring (x : BrickSeq) (first past : Nat) : BrickSeq :=
  if x.isBottom then bottom
  else
    match normalize x.bricks with
    | [] => top
    | b :: rest =>
      match b.content with
      | .known members =>
        if first ≤ past && b.isSingle && members.toList.all (past ≤ ·.length) then
          ⟨⟨.known (members.map (Text.slice · first past)), 1, 1⟩ :: rest⟩
        else top
      | .unknown => top

/-- Whether the strings of `x` contain those of `needle`. Decided only for a needle that is a single
character. No string at all contains whatever it is asked for. -/
def contains (x needle : BrickSeq) : Verdict :=
  if x.isBottom then .holds
  else
    match needle.asChar? with
    | none => .unknown
    | some c =>
      let bricks := normalize x.bricks
      if bricks.any (·.mustContain c) then .holds
      else if bricks.any (·.mayContain c) then .unknown
      else .fails

end BrickSeq

end StringBricks
