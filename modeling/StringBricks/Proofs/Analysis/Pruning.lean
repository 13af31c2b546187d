import StringBricks.Proofs.Env.Assumption
import StringBricks.Proofs.Env.Construction
import StringBricks.Proofs.Env.Pointwise

/-!
# Branches and loops that are decided

A condition that is known to hold or to fail decides which way a program goes, and its analysis is
the analysis of that way alone (`Stmt.analyze_of_verdict`). The other branch is run on no state and
leaves none, so the join gives back the first one as it is. A loop whose condition fails is not
entered: no step of its search leaves the environment. The ascent has nothing to join, and the
descent meets the environment with itself.

Nothing is asked of the environment. Its values need not be in normal form, and an entry for no
string leaves the meet without a state, which is not stable.
-/

set_option autoImplicit false

namespace StringBricks

namespace Env

variable {a env : Env} {c : Cond}

/-- The negation of a condition that holds leaves no state. -/
theorem assume_not_of_holds (hstate : env.isUnreachable = false) (h : env.verdict c = .holds) :
    env.assume c.not = unreachable := by
  apply assume_of_fails
  rw [verdict, if_neg (Bool.eq_false_iff.1 hstate), h]
  rfl

/-- The negation of a condition that fails binds nothing. -/
theorem assume_not_of_fails (h : env.verdict c = .fails) : env.assume c.not = env := by
  have hstate := Bool.eq_false_iff.1 (reachable_of_fails h)
  have hnot : env.verdict c.not ≠ .fails := by
    rw [verdict, if_neg hstate, h]
    decide
  unfold assume
  rw [if_neg hstate, if_neg hnot]

/-- The unreachable environment adds nothing to another one. -/
@[simp] theorem unreachable_join (a : Env) : unreachable.join a = a :=
  join_of_isUnreachable_left rfl a

/-- The unreachable environment adds nothing to one that is cleared. -/
theorem IsCleared.join_unreachable (ha : a.IsCleared) : a.join unreachable = a := by
  cases hun : a.isUnreachable with
  | true => rw [join_of_isUnreachable_left hun, ha.eq_unreachable hun]
  | false => exact join_of_isUnreachable_right hun rfl

/-- Met with itself, an environment is below the meet, unless it has an entry for no string. -/
theorem le_meet_self (a : Env) : a.meet a = unreachable ∨ a.le (a.meet a) = true := by
  obtain ⟨hun, -⟩ | hmeet := meet_cases a a
  · exact .inl hun
  · refine .inr ?_
    cases ha : a.isUnreachable with
    | true => exact le_of_isUnreachable ha _
    | false =>
      rw [le_iff ha]
      refine ⟨hmeet.isProper.reachable, ?_⟩
      intro k
      have hproper := hmeet.isProper k
      rw [hmeet.get_eq] at hproper ⊢
      have hk : (a.get k).isBottom = false := by
        rw [← Bool.not_eq_true]
        intro hbot
        simp [BrickSeq.isBottom_meet (.inl hbot)] at hproper
      rw [BrickSeq.meet_self hk]
      exact BrickSeq.le_refl _

end Env

namespace Stmt

variable {t : Thresholds} {sv : Solver} {s₁ s₂ body : Stmt} {c : Cond} {env : Env}

/-! ## Loops that are not entered -/

/-- Where a condition leaves no state, the body of its loop leaves none. -/
theorem onceMore_of_assume {x : Env} (h : x.assume c = .unreachable) :
    onceMore t sv c body x = .ok .unreachable := by
  rw [onceMore, h]
  exact analyze_of_isUnreachable rfl body

/-- The ascent for a loop that is not entered settles at once. -/
theorem not_climbs_of_fails (h : env.verdict c = .fails) (steps : Nat) (x : Env) :
    ¬ Solver.Climbs sv (Env.domain t) env (onceMore t sv c body) steps env x := by
  rintro ⟨y, hy, hle, -⟩
  cases (onceMore_of_assume (Env.assume_of_fails h)).symm.trans hy
  have hle' : (env.join .unreachable).le env = false := hle
  rw [(Env.isCleared_of_reachable (Env.reachable_of_fails h)).join_unreachable, Env.le_refl] at hle'
  cases hle'

/-- The descent for a loop that is not entered does not go on. -/
theorem not_descends_of_fails (h : env.verdict c = .fails) (x : Env) :
    ¬ Solver.Descends (Env.domain t) env (onceMore t sv c body) env x := by
  rintro ⟨y, hy, rfl, hle, z, hz, hstable⟩
  cases (onceMore_of_assume (Env.assume_of_fails h)).symm.trans hy
  have hstate := Env.reachable_of_fails h
  have hjoin : env.join .unreachable = env := (Env.isCleared_of_reachable hstate).join_unreachable
  have hnext : (Env.domain t).narrow env ((Env.domain t).join env .unreachable) = env.meet env :=
    congrArg env.meet hjoin
  rw [hnext] at hle hz hstable
  cases Env.le_meet_self env with
  | inl hun =>
    -- without a state the body adds nothing, and what is left is `env` itself
    rw [hun] at hz hstable
    cases (onceMore_of_assume (Env.assume_of_isUnreachable rfl c)).symm.trans hz
    have hstable' : (env.join .unreachable).le .unreachable = true := hstable
    rw [hjoin] at hstable'
    cases Env.reachable_of_le hstable' hstate
  | inr hmeet =>
    have hle' : env.le (env.meet env) = false := hle
    rw [hmeet] at hle'
    cases hle'

/-- The search for a loop that is not entered finds the environment before it. -/
theorem solve_of_fails (t : Thresholds) (sv : Solver) (body : Stmt) (h : env.verdict c = .fails) :
    (sv.solve (Env.domain t) env (onceMore t sv c body)).result = .ok env := by
  obtain ⟨head, hhead⟩ := Solver.exists_solve_result (d := Env.domain t)
    (fun x : Env => exists_analyze_eq_ok t sv body (x.assume c)) (Env.exists_widen_eq_ok t) sv env
  have heq := Solver.eq_init_of_solve (not_climbs_of_fails h) (not_descends_of_fails h) hhead
  rw [heq] at hhead
  exact hhead

/-! ## Programs that are decided -/

/-- **A known verdict prunes the analysis**: where a condition is known to hold, a branching is
analyzed as its first branch under the condition, and where it is known to fail, as its second
branch, and a loop leaves the environment as it is. -/
theorem analyze_of_verdict (t : Thresholds) (sv : Solver) (c : Cond) (s₁ s₂ : Stmt) (env : Env) :
    (env.verdict c = .holds →
      (ite c s₁ s₂).analyze t sv env = s₁.analyze t sv (env.assume c)) ∧
    (env.verdict c = .fails →
      (ite c s₁ s₂).analyze t sv env = s₂.analyze t sv env ∧
        (loop c s₁).analyze t sv env = .ok env) := by
  refine ⟨?_, ?_⟩
  · intro h
    cases hun : env.isUnreachable with
    | true =>
      rw [Env.assume_of_isUnreachable hun, analyze_of_isUnreachable hun,
        analyze_of_isUnreachable hun]
    | false =>
      obtain ⟨r, hr⟩ := exists_analyze_eq_ok t sv s₁ (env.assume c)
      have helse : s₂.analyze t sv (env.assume c.not) = .ok .unreachable := by
        rw [Env.assume_not_of_holds hun h]
        exact analyze_of_isUnreachable rfl s₂
      -- the first branch may leave no state either, but then it leaves no entries
      have hcleared : r.IsCleared := by
        apply Env.keptBySets_isCleared.analyze hr
        exact Env.keptBySets_isCleared.assume (Env.isCleared_of_reachable hun) c
      rw [analyze_ite hr helse, hr, hcleared.join_unreachable]
  · intro h
    refine ⟨?_, ?_⟩
    · obtain ⟨r, hr⟩ := exists_analyze_eq_ok t sv s₂ env
      have hthen : s₁.analyze t sv (env.assume c) = .ok .unreachable := by
        rw [Env.assume_of_fails h]
        exact analyze_of_isUnreachable rfl s₁
      have helse : s₂.analyze t sv (env.assume c.not) = .ok r := by
        rw [Env.assume_not_of_fails h, hr]
      rw [analyze_ite hthen helse, hr, Env.unreachable_join]
    · rw [analyze_loop (Env.reachable_of_fails h) (solve_of_fails t sv s₁ h),
        Env.assume_not_of_fails h]

/-- Whether the variable `x` contains a string. -/
def mentions (needle : String) : Cond := .contains (.var "x") (.lit needle)

/-- The string in `x` contains `"b"` but not `"z"`, which the loop would append. -/
theorem analyze_of_verdict_abc :
    ((Env.top.set "x" (.literal "abc")).verdict (mentions "b") = .holds ∧
      (ite (mentions "b") (assign "x" (.lit "b")) skip).analyze {} {}
          (Env.top.set "x" (.literal "abc")) =
        (assign "x" (.lit "b")).analyze {} {}
          ((Env.top.set "x" (.literal "abc")).assume (mentions "b"))) ∧
    ((Env.top.set "x" (.literal "abc")).verdict (mentions "z") = .fails ∧
      (ite (mentions "z") (assign "x" (.concat (.var "x") (.lit "z"))) skip).analyze {} {}
          (Env.top.set "x" (.literal "abc")) =
        skip.analyze {} {} (Env.top.set "x" (.literal "abc")) ∧
      (loop (mentions "z") (assign "x" (.concat (.var "x") (.lit "z")))).analyze {} {}
          (Env.top.set "x" (.literal "abc")) = .ok (Env.top.set "x" (.literal "abc"))) := by
  have hholds : (Env.top.set "x" (.literal "abc")).verdict (mentions "b") = .holds := by decide
  have hfails : (Env.top.set "x" (.literal "abc")).verdict (mentions "z") = .fails := by decide
  exact ⟨⟨hholds, (analyze_of_verdict {} {} _ _ _ _).1 hholds⟩,
    hfails, (analyze_of_verdict {} {} _ _ _ _).2 hfails⟩

end Stmt

end StringBricks
