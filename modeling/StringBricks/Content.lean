import StringBricks.StringSet

/-!
# The content of a brick

What may stand at one repetition of a brick: a member of a known finite set, or any string at all.
-/

set_option autoImplicit false

namespace StringBricks

/-- The strings that one repetition of a brick may contribute. -/
inductive Content where
  | known (members : StringSet)
  /-- Any string. -/
  | unknown
deriving DecidableEq

namespace Content

/-- Whether `c` allows the string `s`. -/
def Allows : Content → String → Prop
  | known members, s => s ∈ members
  | unknown, _ => True

/-- Both contents together; an unknown one absorbs. -/
def join : Content → Content → Content
  | known a, known b => known (a.union b)
  | _, _ => unknown

/-- An upper approximation of what both contents allow: an unknown one gives way, and two known
sets are joined rather than intersected. -/
def meet : Content → Content → Content
  | unknown, c | c, unknown => c
  | known a, known b => known (a.union b)

/-- Whether everything that the first content allows, the second allows too. -/
def le : Content → Content → Bool
  | _, unknown => true
  | unknown, known _ => false
  | known a, known b => a.isSubset b

/-- Concatenations of one member from each; undefined if either is unknown. -/
def cross? : Content → Content → Option Content
  | known a, known b => some (known (a.cross b))
  | _, _ => none

/-- Concatenations of `k` members, for `k` at least one. -/
def power : Content → Nat → Content
  | known a, k => known (a.power k)
  | unknown, _ => unknown

end Content

end StringBricks
