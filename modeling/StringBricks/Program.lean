/-!
# String programs

Expressions, conditions and statements over string variables, which are known by their names.
-/

set_option autoImplicit false

namespace StringBricks

/-- An expression whose value is a string. -/
inductive Expr where
  | var (name : String)
  | lit (value : String)
  | null
  | concat (left right : Expr)
  /-- The characters at the positions from `first` up to but not including `past`. -/
  | substring (e : Expr) (first past : Nat)
  | replace (e pattern replacement : Expr)
  /-- A string from outside the program. -/
  | input
deriving DecidableEq, Repr

/-- A condition on strings. -/
inductive Cond where
  | always
  | never
  | contains (haystack needle : Expr)
  | eq (left right : Expr)
  | not (c : Cond)
  | and (left right : Cond)
  | or (left right : Cond)
deriving DecidableEq, Repr

/-- A program. -/
inductive Stmt where
  | skip
  | assign (name : String) (e : Expr)
  | seq (first second : Stmt)
  | ite (c : Cond) (thenBranch elseBranch : Stmt)
  | loop (c : Cond) (body : Stmt)
  /-- Goes on only if the condition holds. -/
  | assume (c : Cond)
  /-- Gives a variable any value at all. -/
  | havoc (name : String)
deriving DecidableEq, Repr

/-- The statements of a list in order, nested to the right. The empty list does nothing, and a
single statement is itself. -/
def Stmt.block : List Stmt → Stmt
  | [] => skip
  | [s] => s
  | s :: rest => seq s (block rest)

/-- Whether no substring is taken in the expression. -/
def Expr.isSliceFree : Expr → Bool
  | var _ | lit _ | null | input => true
  | concat e₁ e₂ => e₁.isSliceFree && e₂.isSliceFree
  | substring _ _ _ => false
  | replace e₁ e₂ e₃ => e₁.isSliceFree && e₂.isSliceFree && e₃.isSliceFree

/-- Whether no substring is taken in the condition. -/
def Cond.isSliceFree : Cond → Bool
  | always | never => true
  | contains e₁ e₂ | eq e₁ e₂ => e₁.isSliceFree && e₂.isSliceFree
  | not c => c.isSliceFree
  | and c₁ c₂ | or c₁ c₂ => c₁.isSliceFree && c₂.isSliceFree

/-- Whether no substring is taken in the program. -/
def Stmt.isSliceFree : Stmt → Bool
  | skip | havoc _ => true
  | assign _ e => e.isSliceFree
  | seq s₁ s₂ => s₁.isSliceFree && s₂.isSliceFree
  | ite c s₁ s₂ => c.isSliceFree && s₁.isSliceFree && s₂.isSliceFree
  | loop c s => c.isSliceFree && s.isSliceFree
  | assume c => c.isSliceFree

end StringBricks
