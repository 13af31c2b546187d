import StringBricks.Proofs.Analysis.Results

/-!
# What a condition leaves known

Assuming a condition binds the variables of its equalities, one after the other, or leaves no state
(`Env.assume_cases`). So whatever was known of the other variables stays known. A variable that is
bound has the value of the other side of its equality from then on, also where more was known of it
before: the result is below the environment exactly if every variable that is bound is
(`Env.assume_le_iff`).
-/

set_option autoImplicit false

namespace StringBricks

/-! ## Variables that are bound -/

/-- What an equality binds, and to what: the side that is a variable, to the other side. Of two
variables the left one is bound. -/
def Expr.binding? : Expr → Expr → Option (String × Expr)
  | .var name, e | e, .var name => some (name, e)
  | _, _ => none

/-- What assuming a condition binds, in order. -/
def Cond.bindings : Cond → List (String × Expr)
  | .eq e₁ e₂ => (e₁.binding? e₂).toList
  | .and c₁ c₂ => c₁.bindings ++ c₂.bindings
  | _ => []

namespace Env

variable {env : Env} {c : Cond} {name k : String}

/-- The environment after the assignments of a list, in order. -/
def assignAll (env : Env) (l : List (String × Expr)) : Env :=
  l.foldl (fun r p => r.assign p.1 p.2) env

/-- Without assignments nothing changes. -/
@[simp] theorem assignAll_nil (env : Env) : env.assignAll [] = env := rfl

/-- The assignments of a list are made from its head on. -/
theorem assignAll_cons (env : Env) (p : String × Expr) (l : List (String × Expr)) :
    env.assignAll (p :: l) = (env.assign p.1 p.2).assignAll l := rfl

/-- The assignments of two lists are made one list after the other. -/
theorem assignAll_append (env : Env) (l m : List (String × Expr)) :
    env.assignAll (l ++ m) = (env.assignAll l).assignAll m :=
  List.foldl_append

/-- Where there is no state nothing is assigned. -/
theorem assignAll_of_isUnreachable (h : env.isUnreachable = true) (l : List (String × Expr)) :
    env.assignAll l = env := by
  induction l with
  | nil => rfl
  | cons p l ih => rw [assignAll_cons, assign_of_isUnreachable h, ih]

/-- A condition fails only in a state. -/
theorem reachable_of_fails (h : env.verdict c = .fails) : env.isUnreachable = false := by
  rw [← Bool.not_eq_true]
  intro hun
  rw [verdict_of_isUnreachable hun] at h
  cases h

/-- A condition that fails leaves no state. -/
theorem assume_of_fails (h : env.verdict c = .fails) : env.assume c = unreachable := by
  unfold assume
  rw [if_neg (Bool.eq_false_iff.1 (reachable_of_fails h)), if_pos h]

/-- Assuming a condition leaves no state, or it assigns what the condition binds, in order. -/
theorem assume_cases (env : Env) (c : Cond) :
    env.assume c = unreachable ∨ env.assume c = env.assignAll c.bindings := by
  induction c generalizing env with
  | eq e₁ e₂ =>
    by_cases hfails : env.verdict (.eq e₁ e₂) = .fails
    · exact .inl (assume_of_fails hfails)
    · right
      cases hun : env.isUnreachable with
      | true => rw [assume_of_isUnreachable hun, assignAll_of_isUnreachable hun]
      | false =>
        unfold assume
        rw [if_neg (Bool.eq_false_iff.1 hun), if_neg hfails]
        cases e₁ <;> cases e₂ <;> rfl
  | and c₁ c₂ ih₁ ih₂ =>
    by_cases hfails : env.verdict (.and c₁ c₂) = .fails
    · exact .inl (assume_of_fails hfails)
    · have hand : env.assume (.and c₁ c₂) = (env.assume c₁).assume c₂ := by
        cases hun : env.isUnreachable with
        | true =>
          rw [assume_of_isUnreachable hun, assume_of_isUnreachable hun, assume_of_isUnreachable hun]
        | false => rw [assume, if_neg (Bool.eq_false_iff.1 hun), if_neg hfails]
      rw [hand]
      cases ih₁ env with
      | inl hun =>
        left
        rw [hun]
        exact assume_of_isUnreachable rfl c₂
      | inr hfirst =>
        apply (ih₂ (env.assume c₁)).imp_right
        intro hsecond
        rw [hsecond, hfirst]
        exact (assignAll_append env c₁.bindings c₂.bindings).symm
  | always | never | contains _ _ | not _ | or _ _ =>
    unfold assume
    split
    · exact .inr rfl
    · split
      · exact .inl rfl
      · exact .inr rfl

/-! ## What is not bound stays known -/

/-- Setting a variable leaves every other one as it was, if it does not lead to the unreachable
environment. -/
theorem get_set_of_ne {x : BrickSeq} (h : env.set name x ≠ unreachable) (hk : k ≠ name) :
    (env.set name x).get k = env.get k := by
  cases hun : env.isUnreachable with
  | true => rw [set_of_isUnreachable hun]
  | false =>
    have hx : x.isBottom = false := by
      rw [← Bool.not_eq_true]
      intro hx
      exact h (set_of_isBottom hun name hx)
    rw [get_set hun hx, if_neg hk]

/-- Assignments leave the variables that they do not assign as they were, if they do not lead to the
unreachable environment. -/
theorem get_assignAll {l : List (String × Expr)} (h : env.assignAll l ≠ unreachable)
    (hk : ∀ p ∈ l, p.1 ≠ k) : (env.assignAll l).get k = env.get k := by
  induction l generalizing env with
  | nil => rfl
  | cons p l ih =>
    rw [assignAll_cons] at h ⊢
    have hfirst : env.assign p.1 p.2 ≠ unreachable := by
      intro hun
      rw [hun, assignAll_of_isUnreachable rfl] at h
      exact h rfl
    rw [ih h fun q hq => hk q (List.mem_cons_of_mem p hq)]
    exact get_set_of_ne hfirst (hk p List.mem_cons_self).symm

/-- Assuming a condition leaves no state, or it leaves the variables that it does not bind as they
were. -/
theorem get_assume (h : env.assume c ≠ unreachable) (hk : ∀ p ∈ c.bindings, p.1 ≠ k) :
    (env.assume c).get k = env.get k := by
  have hassume := (assume_cases env c).resolve_left h
  rw [hassume] at h ⊢
  exact get_assignAll h hk

/-! ## What is bound -/

/-- Setting a variable to a value below the one it has makes the environment smaller. -/
theorem set_le {x : BrickSeq} (h : x.le (env.get name) = true) :
    (env.set name x).le env = true := by
  cases hun : (env.set name x).isUnreachable with
  | true => exact le_of_isUnreachable hun env
  | false =>
    refine (le_iff hun).2 ?_
    rw [isUnreachable_set, Bool.or_eq_false_iff] at hun
    refine ⟨hun.1, ?_⟩
    intro k
    rw [get_set hun.1 hun.2]
    split
    · next hk => exact hk ▸ h
    · exact BrickSeq.le_refl _

/-- Whether each assignment of a list, when its turn comes, gives its variable a value below the one
it has. -/
def Tightens : List (String × Expr) → Env → Prop
  | [], _ => True
  | p :: l, env => (env.eval p.2).le (env.get p.1) = true ∧ Tightens l (env.assign p.1 p.2)

/-- Assignments of smaller values make the environment smaller. -/
theorem assignAll_le {l : List (String × Expr)} (h : Tightens l env) :
    (env.assignAll l).le env = true := by
  induction l generalizing env with
  | nil => exact le_refl env
  | cons p l ih =>
    rw [assignAll_cons]
    exact le_trans (ih h.2) (set_le h.1)

/-- Where it leaves a state, assuming a condition goes below the environment exactly if every
variable that it binds does. -/
theorem assume_le_iff_of_bindings (h : (env.assume c).isUnreachable = false) :
    (env.assume c).le env = true ↔
      ∀ p ∈ c.bindings, ((env.assume c).get p.1).le (env.get p.1) = true := by
  rw [le_iff h]
  constructor
  · intro hle p _
    exact hle.2 p.1
  · intro hbound
    refine ⟨?_, ?_⟩
    · rw [← Bool.not_eq_true]
      intro hun
      rw [assume_of_isUnreachable hun, hun] at h
      cases h
    · intro k
      by_cases hk : ∃ p ∈ c.bindings, p.1 = k
      · obtain ⟨p, hp, rfl⟩ := hk
        exact hbound p hp
      · have hne : env.assume c ≠ unreachable := by
          intro heq
          rw [heq] at h
          cases h
        rw [get_assume hne fun p hp hpk => hk ⟨p, hp, hpk⟩]
        exact BrickSeq.le_refl _

/-- **What was known is lost by binding, if at all**: assuming a condition that leaves a state
leaves every variable that it does not bind as it was. It goes below the environment exactly if
every variable that it binds goes below the value it had. This is so whenever each equality in turn
gives its variable a value below the one it has, as it does if nothing was known of the variable. -/
theorem assume_le_iff (env : Env) (c : Cond) :
    (env.assume c ≠ unreachable → ∀ k, (∀ p ∈ c.bindings, p.1 ≠ k) →
      (env.assume c).get k = env.get k) ∧
    ((env.assume c).le env = true ↔
      ∀ p ∈ c.bindings, ((env.assume c).get p.1).le (env.get p.1) = true) ∧
    (Tightens c.bindings env → (env.assume c).le env = true) := by
  refine ⟨fun h k hk => get_assume h hk, ?_⟩
  cases hun : (env.assume c).isUnreachable with
  | true =>
    have hle := le_of_isUnreachable hun env
    refine ⟨iff_of_true hle ?_, fun _ => hle⟩
    intro p _
    rw [get_of_isUnreachable hun]
    exact BrickSeq.le_of_isBottom BrickSeq.isBottom_bottom _
  | false =>
    refine ⟨assume_le_iff_of_bindings hun, ?_⟩
    intro h
    cases assume_cases env c with
    | inl heq => exact heq ▸ unreachable_le env
    | inr heq => exact heq ▸ assignAll_le h

/-- Two strings are left for `x`, one for `z`, and nothing is known of `y`. -/
def partlyKnown : Env := (top.set "x" (.ofBrick (.of ["a", "b"] 1 1))).set "z" (.literal "c")

/-- Compares `x` and `y` with literals. -/
def comparisons : Cond := .and (.eq (.var "x") (.lit "a")) (.eq (.lit "d") (.var "y"))

/-- One string is left for `x` then, and one for `y`. -/
theorem assume_le_iff_comparisons :
    partlyKnown.assume comparisons ≠ unreachable ∧ (∀ p ∈ comparisons.bindings, p.1 ≠ "z") ∧
    (partlyKnown.assume comparisons).get "z" = partlyKnown.get "z" ∧
    Tightens comparisons.bindings partlyKnown ∧
    (partlyKnown.assume comparisons).le partlyKnown = true := by
  have hstate : partlyKnown.assume comparisons ≠ unreachable := by decide
  have hz : ∀ p ∈ comparisons.bindings, p.1 ≠ "z" := by decide
  have htightens : Tightens comparisons.bindings partlyKnown := ⟨by decide, by decide, trivial⟩
  have hassume := assume_le_iff partlyKnown comparisons
  exact ⟨hstate, hz, hassume.1 hstate "z" hz, htightens, hassume.2.2 htightens⟩

/-- The value of the other side of an equality is taken although more was known. -/
theorem assume_forgets :
    ¬ ((top.set "x" (.literal "a")).assume (.eq (.var "x") .input)).le
      (top.set "x" (.literal "a")) = true := by decide

end Env

end StringBricks
