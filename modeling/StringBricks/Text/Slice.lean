/-!
# Slices of a string

Positions in a string count characters.
-/

set_option autoImplicit false

namespace StringBricks.Text

/-- The characters of `s` at the positions from `first` up to but not including `past`. -/
def slice (s : String) (first past : Nat) : String :=
  String.ofList ((s.toList.drop first).take (past - first))

end StringBricks.Text
