import StringBricks.Proofs.Analysis.Results
import StringBricks.Env.Construction

/-!
# What environments come about

Every operation on environments works by setting variables, so what setting keeps every operation
keeps (`Env.KeptBySets`). Whatever environment arises is made by setting variables alone
(`Env.Arises.madeBySets`), and it has no entries if there is no state (`Env.Arises.isCleared`).
Setting a variable to a value for no string leaves no state, so in a state that arises every
variable may hold some string (`Env.Arises.isConsistent`).
-/

set_option autoImplicit false

namespace StringBricks

namespace Env

variable {a b env r : Env} {P : Env → Prop}

/-! ## What setting variables keeps -/

/-- The property holds at the start, with a state or without, and setting a variable keeps it. -/
structure KeptBySets (P : Env → Prop) : Prop where
  top : P top
  unreachable : P unreachable
  set {env : Env} (name : String) (x : BrickSeq) : P env → P (env.set name x)

namespace KeptBySets

/-- What setting keeps, setting variables one after the other keeps. -/
theorem foldl_set (h : KeptBySets P) (henv : P env) (value : String → BrickSeq)
    (names : List String) : P (names.foldl (fun r name => r.set name (value name)) env) := by
  induction names generalizing env with
  | nil => exact henv
  | cons name names ih => exact ih (h.set name _ henv)

/-- What setting keeps holds of what is combined name by name. -/
theorem pointwise (h : KeptBySets P) (op : BrickSeq → BrickSeq → BrickSeq) (a b : Env) :
    P (pointwise op a b) :=
  h.foldl_set h.top _ _

/-- What setting keeps, joins keep. -/
theorem join (h : KeptBySets P) (ha : P a) (hb : P b) : P (a.join b) := by
  unfold Env.join
  split
  · exact hb
  · split
    · exact ha
    · exact h.pointwise .join a b

/-- What setting keeps holds of every meet. -/
theorem meet (h : KeptBySets P) (a b : Env) : P (a.meet b) := by
  unfold Env.meet
  split
  · exact h.unreachable
  · exact h.pointwise .meet a b

/-- What setting keeps, widenings keep. -/
theorem widen (h : KeptBySets P) {t : Thresholds} (ha : P a) (hb : P b) (hr : a.widen t b = .ok r) :
    P r := by
  cases hun : a.isUnreachable with
  | true =>
    cases (widen_of_isUnreachable_left t hun b).symm.trans hr
    exact hb
  | false =>
    cases hun' : b.isUnreachable with
    | true =>
      cases (widen_of_isUnreachable_right t hun hun').symm.trans hr
      exact ha
    | false =>
      cases (widen_eq_pointwise t hun hun').symm.trans hr
      exact h.pointwise _ _ _

/-- What setting keeps, assuming a condition keeps: it sets the variables of its equalities. -/
theorem assume (h : KeptBySets P) (henv : P env) (c : Cond) : P (env.assume c) := by
  induction c generalizing env with
  | eq e₁ e₂ =>
    unfold Env.assume
    split
    · exact henv
    · split
      · exact h.unreachable
      · split
        · exact h.set _ _ henv
        · exact h.set _ _ henv
        · next heq => cases heq
        · exact henv
  | and c₁ c₂ ih₁ ih₂ =>
    unfold Env.assume
    split
    · exact henv
    · split
      · exact h.unreachable
      · exact ih₂ (ih₁ henv)
  | always | never | contains _ _ | not _ | or _ _ =>
    unfold Env.assume
    split
    · exact henv
    · split
      · exact h.unreachable
      · exact henv

/-- What setting keeps, the analysis of a program keeps. The environment for a loop is one that each
step of the search for it keeps. -/
theorem analyze (h : KeptBySets P) {t : Thresholds} {sv : Solver} {s : Stmt}
    (hs : s.analyze t sv env = .ok r) (henv : P env) : P r := by
  induction s generalizing env r with
  | skip =>
    cases (Stmt.analyze_skip env).symm.trans hs
    exact henv
  | assign name e =>
    cases (Stmt.analyze_assign name e env).symm.trans hs
    exact h.set _ _ henv
  | assume c =>
    cases (Stmt.analyze_assume c env).symm.trans hs
    exact h.assume henv c
  | havoc name =>
    cases (Stmt.analyze_havoc name env).symm.trans hs
    exact h.set _ _ henv
  | seq s₁ s₂ ih₁ ih₂ =>
    obtain ⟨mid, hmid⟩ := Stmt.exists_analyze_eq_ok t sv s₁ env
    rw [Stmt.analyze_seq hmid] at hs
    exact ih₂ hs (ih₁ hmid henv)
  | ite c s₁ s₂ ih₁ ih₂ =>
    obtain ⟨r₁, hr₁⟩ := Stmt.exists_analyze_eq_ok t sv s₁ (env.assume c)
    obtain ⟨r₂, hr₂⟩ := Stmt.exists_analyze_eq_ok t sv s₂ (env.assume c.not)
    cases (Stmt.analyze_ite hr₁ hr₂).symm.trans hs
    exact h.join (ih₁ hr₁ (h.assume henv c)) (ih₂ hr₂ (h.assume henv c.not))
  | loop c body ih =>
    cases hun : env.isUnreachable with
    | true =>
      cases (Stmt.analyze_of_isUnreachable hun _).symm.trans hs
      exact henv
    | false =>
      obtain ⟨head, hhead⟩ := Solver.exists_solve_result (d := Env.domain t)
        (fun x : Env => Stmt.exists_analyze_eq_ok t sv body (x.assume c))
        (Env.exists_widen_eq_ok t) sv env
      cases (Stmt.analyze_loop hun hhead).symm.trans hs
      refine h.assume ?_ c.not
      apply Solver.invariant_of_solve _ (fun _ _ => h.join) (fun x y _ _ => h.meet x y)
        (fun _ _ _ => h.widen) henv hhead
      intro x y hx hy
      exact ih hy (h.assume hx c)

/-- What setting keeps holds of whatever environment arises. -/
theorem of_arises (h : KeptBySets P) (henv : env.Arises) : P env := by
  induction henv with
  | top => exact h.top
  | unreachable => exact h.unreachable
  | set name x _ ih | assign name _ _ ih | havoc name _ ih => exact h.set name _ ih
  | assume c _ ih => exact h.assume ih c
  | join _ _ iha ihb => exact h.join iha ihb
  | meet _ _ _ _ => exact h.meet _ _
  | widen t _ _ hr iha ihb => exact h.widen iha ihb hr
  | narrow t _ _ _ _ => exact h.meet _ _
  | analyze t sv s _ hr ih => exact h.analyze hr ih

end KeptBySets

/-! ## Environments that arise -/

/-- Being made by setting variables is kept by setting variables. -/
theorem keptBySets_madeBySets : KeptBySets MadeBySets :=
  ⟨.top, .unreachable, fun name x h => h.set name x⟩

/-- Having no entries without a state is kept by setting variables. -/
theorem keptBySets_isCleared : KeptBySets IsCleared :=
  ⟨isCleared_of_reachable rfl, isCleared_unreachable, fun name x h => h.set name x⟩

/-- Setting a variable leaves no state, or every variable may still hold some string. -/
theorem IsConsistent.set (h : env.IsConsistent) (name : String) (x : BrickSeq) :
    (env.set name x).IsConsistent := by
  intro hset k
  rw [isUnreachable_set, Bool.or_eq_false_iff] at hset
  rw [get_set hset.1 hset.2]
  split
  · exact hset.2
  · exact h hset.1 k

/-- Consistency is kept by setting variables. -/
theorem keptBySets_isConsistent : KeptBySets IsConsistent where
  top _ _ := BrickSeq.not_isBottom_top
  unreachable h := by cases h
  set name x h := h.set name x

/-- Whatever setting keeps holds of environments made by setting variables. -/
theorem MadeBySets.of_keptBySets (henv : env.MadeBySets) (h : KeptBySets P) : P env := by
  induction henv with
  | top => exact h.top
  | unreachable => exact h.unreachable
  | set name x _ ih => exact h.set name x ih

/-- In a state made by setting variables every variable may hold some string. -/
theorem MadeBySets.isConsistent (h : env.MadeBySets) : env.IsConsistent :=
  h.of_keptBySets keptBySets_isConsistent

/-- Every environment that arises is made by setting variables. -/
theorem Arises.madeBySets (h : env.Arises) : env.MadeBySets := keptBySets_madeBySets.of_arises h

/-- An environment that arises has no entries if there is no state. -/
theorem Arises.isCleared (h : env.Arises) : env.IsCleared := keptBySets_isCleared.of_arises h

/-- In a state that arises every variable may hold some string. -/
theorem Arises.isConsistent (h : env.Arises) : env.IsConsistent :=
  keptBySets_isConsistent.of_arises h

end Env

end StringBricks
