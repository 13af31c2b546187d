import StringBricks.Text.Unprintable
import StringBricks.Text.Extending

/-!
# Visible characters

A character can be read off a page if it leaves a mark there that stands by itself.
-/

set_option autoImplicit false

namespace StringBricks.Text

/-- Whether the code point of `c` lies in one of the ranges. -/
def inRanges (ranges : List (Nat × Nat)) (c : Char) : Bool :=
  ranges.any fun (first, last) => first ≤ c.toNat && c.toNat ≤ last

/-- Whether `c` can be read off a page when it stands alone. -/
def isVisible (c : Char) : Bool := !inRanges unprintable c && !inRanges extendingMarks c

end StringBricks.Text
