import StringBricks.Brick.Basic
import StringBricks.Text.Quoted

/-!
# Bricks as text

A brick is written as its content followed by its range: `["a", "b"](1,2)` for a known set, `K(0,3)`
for an unknown one. The brick for every string is `⊤`, and every brick for no string is `⊥`.
-/

set_option autoImplicit false

namespace StringBricks

/-- The members between brackets, or `K`. -/
def Content.text : Content → String
  | .known members => "[" ++ Text.commaSeparated (members.toList.map Text.quoted) ++ "]"
  | .unknown => "K"

/-- The written form of a brick. -/
def Brick.text (b : Brick) : String :=
  if b.isTop then "⊤"
  else if b.isBottom then "⊥"
  else b.content.text ++ "(" ++ toString b.lo.toNat ++ "," ++ b.hi.text ++ ")"

end StringBricks
