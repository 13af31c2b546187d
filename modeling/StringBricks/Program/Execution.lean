import StringBricks.Program
import StringBricks.Text.Slice

/-!
# Execution of programs

What a program does to concrete strings, as relations: which strings an expression may yield, which
answers a condition may give, and in which stores a statement may end. Input, null and replacement
may yield any string each time. A run deals only with strings of at most `limit` characters, and has
no result where a longer one would arise or where a substring reaches beyond its string.
-/

set_option autoImplicit false

namespace StringBricks

/-- A string for every variable. -/
abbrev Store := String → String

/-- The store with one variable changed. -/
def Store.set (σ : Store) (name value : String) : Store :=
  fun x => if x = name then value else σ x

/-- Whether an expression may yield a string. -/
inductive Expr.Yields (limit : Nat) (σ : Store) : Expr → String → Prop
  | var {name : String} : (σ name).length ≤ limit → Yields limit σ (.var name) (σ name)
  | lit {s : String} : s.length ≤ limit → Yields limit σ (.lit s) s
  | null {s : String} : s.length ≤ limit → Yields limit σ .null s
  | concat {e₁ e₂ : Expr} {s₁ s₂ : String} :
      Yields limit σ e₁ s₁ → Yields limit σ e₂ s₂ → (s₁ ++ s₂).length ≤ limit →
      Yields limit σ (.concat e₁ e₂) (s₁ ++ s₂)
  | substring {e : Expr} {s : String} {first past : Nat} :
      Yields limit σ e s → first ≤ past → past ≤ s.length →
      Yields limit σ (.substring e first past) (Text.slice s first past)
  | replace {e₁ e₂ e₃ : Expr} {s : String} :
      s.length ≤ limit → Yields limit σ (.replace e₁ e₂ e₃) s
  | input {s : String} : s.length ≤ limit → Yields limit σ .input s

/-- Whether a condition may give an answer. -/
inductive Cond.Answers (limit : Nat) (σ : Store) : Cond → Bool → Prop
  | always : Answers limit σ .always true
  | never : Answers limit σ .never false
  | contains {e₁ e₂ : Expr} {s₁ s₂ : String} {b : Bool} :
      e₁.Yields limit σ s₁ → e₂.Yields limit σ s₂ → (b = true ↔ s₂.toList <:+: s₁.toList) →
      Answers limit σ (.contains e₁ e₂) b
  | eq {e₁ e₂ : Expr} {s₁ s₂ : String} :
      e₁.Yields limit σ s₁ → e₂.Yields limit σ s₂ → Answers limit σ (.eq e₁ e₂) (s₁ = s₂)
  | not {c : Cond} {b : Bool} : Answers limit σ c b → Answers limit σ (.not c) !b
  | and {c₁ c₂ : Cond} {b₁ b₂ : Bool} :
      Answers limit σ c₁ b₁ → Answers limit σ c₂ b₂ → Answers limit σ (.and c₁ c₂) (b₁ && b₂)
  | or {c₁ c₂ : Cond} {b₁ b₂ : Bool} :
      Answers limit σ c₁ b₁ → Answers limit σ c₂ b₂ → Answers limit σ (.or c₁ c₂) (b₁ || b₂)

/-- Whether a statement may lead from one store to another. -/
inductive Stmt.Runs (limit : Nat) : Stmt → Store → Store → Prop
  | skip {σ : Store} : Runs limit .skip σ σ
  | assign {name : String} {e : Expr} {s : String} {σ : Store} :
      e.Yields limit σ s → Runs limit (.assign name e) σ (σ.set name s)
  | seq {s₁ s₂ : Stmt} {σ₁ σ₂ σ₃ : Store} :
      Runs limit s₁ σ₁ σ₂ → Runs limit s₂ σ₂ σ₃ → Runs limit (.seq s₁ s₂) σ₁ σ₃
  | thenBranch {c : Cond} {s₁ s₂ : Stmt} {σ₁ σ₂ : Store} :
      c.Answers limit σ₁ true → Runs limit s₁ σ₁ σ₂ → Runs limit (.ite c s₁ s₂) σ₁ σ₂
  | elseBranch {c : Cond} {s₁ s₂ : Stmt} {σ₁ σ₂ : Store} :
      c.Answers limit σ₁ false → Runs limit s₂ σ₁ σ₂ → Runs limit (.ite c s₁ s₂) σ₁ σ₂
  | done {c : Cond} {s : Stmt} {σ : Store} :
      c.Answers limit σ false → Runs limit (.loop c s) σ σ
  | round {c : Cond} {s : Stmt} {σ₁ σ₂ σ₃ : Store} :
      c.Answers limit σ₁ true → Runs limit s σ₁ σ₂ → Runs limit (.loop c s) σ₂ σ₃ →
      Runs limit (.loop c s) σ₁ σ₃
  | assume {c : Cond} {σ : Store} : c.Answers limit σ true → Runs limit (.assume c) σ σ
  | havoc {name s : String} {σ : Store} :
      s.length ≤ limit → Runs limit (.havoc name) σ (σ.set name s)

end StringBricks
