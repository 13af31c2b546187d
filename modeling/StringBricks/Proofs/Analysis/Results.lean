import StringBricks.Proofs.Env.Lattice
import StringBricks.Proofs.Solver
import StringBricks.Analysis.Settling

/-!
# The analysis statement by statement

How the result for a statement comes from the results for its parts, in any environment. Nothing in
an analysis fails, so there is a result for every program (`Stmt.widening_and_analysis_total`).
-/

set_option autoImplicit false

namespace StringBricks

namespace Stmt

variable {t : Thresholds} {sv : Solver} {s₁ s₂ body : Stmt} {c : Cond} {env mid r : Env}

/-- Before the first round of a loop and after each one: the body where the condition may hold. -/
def onceMore (t : Thresholds) (sv : Solver) (c : Cond) (body : Stmt) (x : Env) : Except Fault Env :=
  body.analyze t sv (x.assume c)

/-! ## Results of the parts -/

/-- Where there is no state, a program leaves the environment as it is. -/
theorem analyze_of_isUnreachable (h : env.isUnreachable = true) (s : Stmt) :
    s.analyze t sv env = .ok env := by
  cases s <;> exact if_pos h

/-- A program that does nothing leaves the environment as it is. -/
theorem analyze_skip (env : Env) : skip.analyze t sv env = .ok env := by
  exact ite_self _

/-- The analysis of an assignment assigns. -/
theorem analyze_assign (name : String) (e : Expr) (env : Env) :
    (assign name e).analyze t sv env = .ok (env.assign name e) := by
  cases henv : env.isUnreachable with
  | true => rw [analyze_of_isUnreachable henv, Env.assign_of_isUnreachable henv]
  | false => exact if_neg (Bool.eq_false_iff.1 henv)

/-- The analysis of an assumption assumes its condition. -/
theorem analyze_assume (c : Cond) (env : Env) :
    (assume c).analyze t sv env = .ok (env.assume c) := by
  cases henv : env.isUnreachable with
  | true => rw [analyze_of_isUnreachable henv, Env.assume_of_isUnreachable henv]
  | false => exact if_neg (Bool.eq_false_iff.1 henv)

/-- The analysis of a variable that may become any value forgets it. -/
theorem analyze_havoc (name : String) (env : Env) :
    (havoc name).analyze t sv env = .ok (env.havoc name) := by
  cases henv : env.isUnreachable with
  | true => rw [analyze_of_isUnreachable henv, Env.havoc_of_isUnreachable henv]
  | false => exact if_neg (Bool.eq_false_iff.1 henv)

/-- The second of two programs is analyzed on the result of the first. -/
theorem analyze_seq (h : s₁.analyze t sv env = .ok mid) :
    (seq s₁ s₂).analyze t sv env = s₂.analyze t sv mid := by
  cases henv : env.isUnreachable with
  | true =>
    rw [analyze_of_isUnreachable henv] at h
    cases h
    rw [analyze_of_isUnreachable henv, analyze_of_isUnreachable henv]
  | false =>
    have hseq : (seq s₁ s₂).analyze t sv env = s₁.analyze t sv env >>= s₂.analyze t sv :=
      if_neg (Bool.eq_false_iff.1 henv)
    rw [hseq, h]
    rfl

/-- The result of a branching joins the results of its branches. -/
theorem analyze_ite {r₁ r₂ : Env} (h₁ : s₁.analyze t sv (env.assume c) = .ok r₁)
    (h₂ : s₂.analyze t sv (env.assume c.not) = .ok r₂) :
    (ite c s₁ s₂).analyze t sv env = .ok (r₁.join r₂) := by
  cases henv : env.isUnreachable with
  | true =>
    rw [Env.assume_of_isUnreachable henv, analyze_of_isUnreachable henv] at h₁ h₂
    cases h₁
    cases h₂
    rw [analyze_of_isUnreachable henv, Env.join_of_isUnreachable_left henv]
  | false =>
    have hite : (ite c s₁ s₂).analyze t sv env = (do
        let thenEnv ← s₁.analyze t sv (env.assume c)
        let elseEnv ← s₂.analyze t sv (env.assume c.not)
        return thenEnv.join elseEnv) :=
      if_neg (Bool.eq_false_iff.1 henv)
    rw [hite, h₁, h₂]
    rfl

/-- A loop is left where its condition may fail, from what the search for it finds. -/
theorem analyze_loop {head : Env} (henv : env.isUnreachable = false)
    (h : (sv.solve (Env.domain t) env (onceMore t sv c body)).result = .ok head) :
    (loop c body).analyze t sv env = .ok (head.assume c.not) := by
  have hloop : (loop c body).analyze t sv env = (do
      let head ← (sv.solve (Env.domain t) env (onceMore t sv c body)).result
      return head.assume c.not) :=
    if_neg (Bool.eq_false_iff.1 henv)
  rw [hloop, h]
  rfl

/-- The analysis of a program has a result. -/
theorem exists_analyze_eq_ok (t : Thresholds) (sv : Solver) (s : Stmt) (env : Env) :
    ∃ r, s.analyze t sv env = .ok r := by
  induction s generalizing env with
  | skip => exact ⟨env, analyze_skip env⟩
  | assign name e => exact ⟨_, analyze_assign name e env⟩
  | assume c => exact ⟨_, analyze_assume c env⟩
  | havoc name => exact ⟨_, analyze_havoc name env⟩
  | seq s₁ s₂ ih₁ ih₂ =>
    obtain ⟨mid, hmid⟩ := ih₁ env
    obtain ⟨r, hr⟩ := ih₂ mid
    exact ⟨r, (analyze_seq hmid).trans hr⟩
  | ite c s₁ s₂ ih₁ ih₂ =>
    obtain ⟨r₁, hr₁⟩ := ih₁ (env.assume c)
    obtain ⟨r₂, hr₂⟩ := ih₂ (env.assume c.not)
    exact ⟨r₁.join r₂, analyze_ite hr₁ hr₂⟩
  | loop c body ih =>
    cases henv : env.isUnreachable with
    | true => exact ⟨env, analyze_of_isUnreachable henv _⟩
    | false =>
      obtain ⟨head, hhead⟩ := Solver.exists_solve_result (d := Env.domain t)
        (fun x : Env => ih (x.assume c)) (Env.exists_widen_eq_ok t) sv env
      exact ⟨head.assume c.not, analyze_loop henv hhead⟩

/-- **Nothing fails**: two bricks have a widening whatever their ranges and the limits, so have two
sequences of bricks, and so there is a result for every program in every environment, however long
the phases of the search for a stable value go on. -/
theorem widening_and_analysis_total (t : Thresholds) :
    (∀ a b : Brick, ∃ c, a.widen t b = .ok c) ∧
    (∀ x y : BrickSeq, ∃ r, x.widen t y = .ok r) ∧
    ∀ (sv : Solver) (s : Stmt) (env : Env), ∃ r, s.analyze t sv env = .ok r := by
  refine ⟨Brick.exists_widen_eq_ok t, BrickSeq.exists_widen_eq_ok t, ?_⟩
  intro sv s env
  exact exists_analyze_eq_ok t sv s env

/-! ## Settling of the parts -/

/-- Where there is no state, no loop is solved. -/
theorem settles_of_isUnreachable (h : env.isUnreachable = true) (s : Stmt) :
    s.Settles t sv env := by
  cases s <;> exact fun hstate => Bool.noConfusion (h.symm.trans hstate)

/-- There is no loop in a program that does nothing. -/
theorem settles_skip (env : Env) : skip.Settles t sv env := fun _ => trivial

/-- There is no loop in an assignment. -/
theorem settles_assign (name : String) (e : Expr) (env : Env) :
    (assign name e).Settles t sv env := fun _ => trivial

/-- There is no loop in an assumption. -/
theorem settles_assume (c : Cond) (env : Env) : (assume c).Settles t sv env := fun _ => trivial

/-- There is no loop in forgetting a variable. -/
theorem settles_havoc (name : String) (env : Env) : (havoc name).Settles t sv env :=
  fun _ => trivial

/-- The loops of two programs settle if those of the first do, and those of the second after it. -/
theorem settles_seq (h : s₁.analyze t sv env = .ok mid) :
    (seq s₁ s₂).Settles t sv env ↔ s₁.Settles t sv env ∧ s₂.Settles t sv mid := by
  cases henv : env.isUnreachable with
  | true =>
    rw [analyze_of_isUnreachable henv] at h
    cases h
    exact iff_of_true (settles_of_isUnreachable henv _)
      ⟨settles_of_isUnreachable henv _, settles_of_isUnreachable henv _⟩
  | false =>
    constructor
    · intro hsettles
      exact ⟨(hsettles henv).1, (hsettles henv).2 mid h⟩
    · intro hsettles _
      refine ⟨hsettles.1, ?_⟩
      intro mid' hmid'
      have heq : mid = mid' := Except.ok.inj (h.symm.trans hmid')
      rw [← heq]
      exact hsettles.2

/-- The loops of a branching settle if those of its branches do. -/
theorem settles_ite : (ite c s₁ s₂).Settles t sv env ↔
    s₁.Settles t sv (env.assume c) ∧ s₂.Settles t sv (env.assume c.not) := by
  cases henv : env.isUnreachable with
  | true =>
    rw [Env.assume_of_isUnreachable henv, Env.assume_of_isUnreachable henv]
    exact iff_of_true (settles_of_isUnreachable henv _)
      ⟨settles_of_isUnreachable henv _, settles_of_isUnreachable henv _⟩
  | false => exact ⟨fun hsettles => hsettles henv, fun hsettles _ => hsettles⟩

/-- A loop settles if its own ascent does, and those of its body wherever the search calls it. -/
theorem settles_loop (henv : env.isUnreachable = false) : (loop c body).Settles t sv env ↔
    (∃ x, (sv.climb (Env.domain t) env (onceMore t sv c body)).result = .ok ⟨x, .settled⟩) ∧
      ∀ x ∈ (sv.solve (Env.domain t) env (onceMore t sv c body)).calls,
        body.Settles t sv (x.assume c) :=
  ⟨fun hsettles => hsettles henv, fun hsettles _ => hsettles⟩

end Stmt

end StringBricks
