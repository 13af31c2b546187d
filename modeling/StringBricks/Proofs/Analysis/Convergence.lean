import StringBricks.Proofs.Analysis.Results
import StringBricks.Proofs.Env.Convergence
import Mathlib.Order.Directed
import Mathlib.Data.Finset.Order

/-!
# The analysis of every program converges

From some cap on, the analysis of a program has the same result for all larger caps, and no loop is
left because of the cap. An outer loop is solved for the function that its inner loops have in the
end: the search makes finitely many calls, so one cap is large enough for all the inner searches
that it depends on.
-/

set_option autoImplicit false

namespace StringBricks

namespace Stmt

variable {t : Thresholds} {sv : Solver}

/-- A loop converges if its body converges in every environment. -/
theorem loop_converges {c : Cond} {body : Stmt} {env : Env} (henv : env.isUnreachable = false)
    (hbody : ∀ x : Env, ∃ (n : Nat) (r : Env), ∀ cap, n ≤ cap →
      body.analyze t { sv with iterationCap := cap } x = .ok r ∧
        body.Settles t { sv with iterationCap := cap } x) :
    ∃ (n : Nat) (r : Env), ∀ cap, n ≤ cap →
      (loop c body).analyze t { sv with iterationCap := cap } env = .ok r ∧
        (loop c body).Settles t { sv with iterationCap := cap } env := by
  choose n r hr using fun x : Env => hbody (x.assume c)
  -- the function that the body has in the end
  have hlimit : ∀ x : Env, ∃ y, (Except.ok (r x) : Except Fault Env) = .ok y := fun x => ⟨r x, rfl⟩
  have hwiden := Env.exists_widen_eq_ok t
  obtain ⟨n', p, found, hsearch⟩ := Solver.exists_settled_search (d := Env.domain t) hlimit hwiden
    (Env.acc_climbs sv t (fun x => .ok (r x)) henv)
  obtain ⟨head, hhead⟩ : ∃ head, found.result = .ok head := by
    rw [← (hsearch n' (Nat.le_refl n')).2]
    exact Solver.exists_solve_result (d := Env.domain t) hlimit hwiden _ env
  -- a cap that is large enough for the body at every call
  obtain ⟨m, hm⟩ := (found.calls.map n).toFinset.exists_le
  refine ⟨max n' m, head.assume c.not, ?_⟩
  intro cap hcap
  obtain ⟨hclimb, hsolve⟩ := hsearch cap (Nat.le_trans (Nat.le_max_left n' m) hcap)
  have hcalls : ∀ x ∈ found.calls, n x ≤ cap := by
    intro x hx
    have hx' : n x ≤ m := by
      apply hm
      rw [List.mem_toFinset, List.mem_map]
      exact ⟨x, hx, rfl⟩
    apply Nat.le_trans hx'
    exact Nat.le_trans (Nat.le_max_right n' m) hcap
  have hsame : ∀ x ∈ found.calls,
      .ok (r x) = onceMore t { sv with iterationCap := cap } c body x := by
    intro x hx
    exact (hr x cap (hcalls x hx)).1.symm
  rw [← hsolve] at hsame
  have hcongr := Solver.solve_congr hlimit hwiden hsame
  rw [hsolve] at hcongr
  constructor
  · apply analyze_loop henv
    rw [hcongr.2]
    exact hhead
  · refine (settles_loop henv).2 ⟨⟨p, ?_⟩, ?_⟩
    · rw [hcongr.1]
      exact hclimb
    · rw [hcongr.2]
      intro x hx
      exact (hr x cap (hcalls x hx)).2

/-- **The analysis converges**: for every program and every environment there is a cap from which on
the result is the same for all larger caps, and every ascent of the analysis, those for inner loops
included, ends at a stable value and not because of the cap. -/
theorem analyze_converges (t : Thresholds) (sv : Solver) (s : Stmt) (env : Env) :
    ∃ (n : Nat) (r : Env), ∀ cap, n ≤ cap →
      s.analyze t { sv with iterationCap := cap } env = .ok r ∧
        s.Settles t { sv with iterationCap := cap } env := by
  induction s generalizing env with
  | skip => exact ⟨0, env, fun _ _ => ⟨analyze_skip env, settles_skip env⟩⟩
  | assign name e =>
    exact ⟨0, _, fun _ _ => ⟨analyze_assign name e env, settles_assign name e env⟩⟩
  | assume c => exact ⟨0, _, fun _ _ => ⟨analyze_assume c env, settles_assume c env⟩⟩
  | havoc name => exact ⟨0, _, fun _ _ => ⟨analyze_havoc name env, settles_havoc name env⟩⟩
  | seq s₁ s₂ ih₁ ih₂ =>
    obtain ⟨n₁, mid, h₁⟩ := ih₁ env
    obtain ⟨n₂, r, h₂⟩ := ih₂ mid
    refine ⟨max n₁ n₂, r, ?_⟩
    intro cap hcap
    have hfirst := h₁ cap (Nat.le_trans (Nat.le_max_left n₁ n₂) hcap)
    have hsecond := h₂ cap (Nat.le_trans (Nat.le_max_right n₁ n₂) hcap)
    constructor
    · rw [analyze_seq hfirst.1]
      exact hsecond.1
    · rw [settles_seq hfirst.1]
      exact ⟨hfirst.2, hsecond.2⟩
  | ite c s₁ s₂ ih₁ ih₂ =>
    obtain ⟨n₁, r₁, h₁⟩ := ih₁ (env.assume c)
    obtain ⟨n₂, r₂, h₂⟩ := ih₂ (env.assume c.not)
    refine ⟨max n₁ n₂, r₁.join r₂, ?_⟩
    intro cap hcap
    have hthen := h₁ cap (Nat.le_trans (Nat.le_max_left n₁ n₂) hcap)
    have helse := h₂ cap (Nat.le_trans (Nat.le_max_right n₁ n₂) hcap)
    constructor
    · exact analyze_ite hthen.1 helse.1
    · rw [settles_ite]
      exact ⟨hthen.2, helse.2⟩
  | loop c body ih =>
    cases henv : env.isUnreachable with
    | true =>
      exact ⟨0, env, fun _ _ => ⟨analyze_of_isUnreachable henv _, settles_of_isUnreachable henv _⟩⟩
    | false => exact loop_converges henv ih

end Stmt

end StringBricks
