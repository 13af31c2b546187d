import StringBricks.BrickSeq.Basic
import StringBricks.Brick.Text

/-!
# Sequences as text

A sequence is written as its bricks between braces, as `⊤` if it is the top sequence, and as `⊥` if
it stands for no string.
-/

set_option autoImplicit false

namespace StringBricks

/-- The written form of a sequence. -/
def BrickSeq.text (x : BrickSeq) : String :=
  if x.isTop then "⊤"
  else if x.isBottom then "⊥"
  else "\x7b" ++ Text.commaSeparated (x.bricks.map Brick.text) ++ "\x7d"

end StringBricks
