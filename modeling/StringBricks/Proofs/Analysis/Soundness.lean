import StringBricks.Proofs.Analysis.Results
import StringBricks.Proofs.Env.Evaluation

/-!
# The analysis is sound

If every loop that is solved in an analysis settles, the result stands for every store in which a
run of the program can end. The environment found for a loop is stable, so it stands for the store
before each round and after the last one. Where the ascent for a loop is cut off by the cap, stores
may be missing.
-/

set_option autoImplicit false

namespace StringBricks

namespace Stmt

variable {t : Thresholds} {sv : Solver} {c : Cond} {s body : Stmt} {env head : Env} {σ σ' : Store}

/-! ## Loops -/

/-- A stable environment for a loop stands for the stores after the body. -/
theorem denotes_of_stable (h : Solver.Stable (Env.domain t) env (onceMore t sv c body) head)
    (hbody : ∃ r, body.analyze t sv (head.assume c) = .ok r ∧ r.Denotes σ) : head.Denotes σ := by
  obtain ⟨y, hy, hle⟩ := h
  obtain ⟨r, hr, hσ⟩ := hbody
  have heq : r = y := Except.ok.inj (hr.symm.trans hy)
  rw [heq] at hσ
  apply Env.denotes_of_le hle
  exact Env.denotes_join_right env hσ

/-- Every run of a loop from a store of a stable environment ends in a store of it that leaves the
loop. The induction is on the rounds. -/
theorem denotes_after_loop (hc : c.isSliceFree = true)
    (h : Solver.Stable (Env.domain t) env (onceMore t sv c body) head)
    (hbody : ∀ σ σ', (head.assume c).Denotes σ → body.Runs Count.cap σ σ' →
      ∃ r, body.analyze t sv (head.assume c) = .ok r ∧ r.Denotes σ')
    (hrun : (loop c body).Runs Count.cap σ σ') (hσ : head.Denotes σ) :
    (head.assume c.not).Denotes σ' := by
  generalize hs : loop c body = s at hrun
  induction hrun with
  | done hanswer =>
    cases hs
    exact Env.denotes_assume hσ hc (.not hanswer)
  | round hanswer hround _ _ ih =>
    cases hs
    have hbefore := Env.denotes_assume hσ hc hanswer
    apply ih
    · exact denotes_of_stable h (hbody _ _ hbefore hround)
    · rfl
  | skip | assign _ | seq _ _ | thenBranch _ _ | elseBranch _ _ | assume _ | havoc _ => cases hs

/-! ## Programs -/

/-- **The analysis is sound**: if every loop that is solved in the analysis of a program settles, a
run from a store of the environment ends in a store of the result. -/
theorem analyze_sound (hs : s.isSliceFree = true) (hσ : env.Denotes σ)
    (hsettles : s.Settles t sv env) (hrun : s.Runs Count.cap σ σ') :
    ∃ r, s.analyze t sv env = .ok r ∧ r.Denotes σ' := by
  induction s generalizing env σ σ' with
  | skip =>
    cases hrun
    exact ⟨env, analyze_skip env, hσ⟩
  | assign name e =>
    cases hrun with
    | assign hw => exact ⟨_, analyze_assign name e env, Env.denotes_assign hσ hs hw name⟩
  | seq s₁ s₂ ih₁ ih₂ =>
    rw [isSliceFree, Bool.and_eq_true] at hs
    cases hrun with
    | seq hfirst hsecond =>
      obtain ⟨mid, hmid⟩ := exists_analyze_eq_ok t sv s₁ env
      have hparts := (settles_seq hmid).1 hsettles
      obtain ⟨mid', hmid', hmiddle⟩ := ih₁ hs.1 hσ hparts.1 hfirst
      have heq : mid = mid' := Except.ok.inj (hmid.symm.trans hmid')
      rw [← heq] at hmiddle
      rw [analyze_seq hmid]
      exact ih₂ hs.2 hmiddle hparts.2 hsecond
  | ite c s₁ s₂ ih₁ ih₂ =>
    rw [isSliceFree, Bool.and_eq_true, Bool.and_eq_true] at hs
    obtain ⟨⟨hc, hs₁⟩, hs₂⟩ := hs
    have hparts := settles_ite.1 hsettles
    obtain ⟨r₁, hr₁⟩ := exists_analyze_eq_ok t sv s₁ (env.assume c)
    obtain ⟨r₂, hr₂⟩ := exists_analyze_eq_ok t sv s₂ (env.assume c.not)
    refine ⟨r₁.join r₂, analyze_ite hr₁ hr₂, ?_⟩
    cases hrun with
    | thenBranch hanswer hbranch =>
      have hthen := Env.denotes_assume hσ hc hanswer
      obtain ⟨r, hr, hend⟩ := ih₁ hs₁ hthen hparts.1 hbranch
      have heq : r = r₁ := Except.ok.inj (hr.symm.trans hr₁)
      rw [heq] at hend
      exact Env.denotes_join_left hend r₂
    | elseBranch hanswer hbranch =>
      have helse := Env.denotes_assume (c := c.not) hσ hc (.not hanswer)
      obtain ⟨r, hr, hend⟩ := ih₂ hs₂ helse hparts.2 hbranch
      have heq : r = r₂ := Except.ok.inj (hr.symm.trans hr₂)
      rw [heq] at hend
      exact Env.denotes_join_right r₁ hend
  | loop c body ih =>
    rw [isSliceFree, Bool.and_eq_true] at hs
    have hf := fun x : Env => exists_analyze_eq_ok t sv body (x.assume c)
    have hwiden := Env.exists_widen_eq_ok t
    obtain ⟨⟨peak, hpeak⟩, hcalls⟩ := (settles_loop hσ.1).1 hsettles
    obtain ⟨head, hhead⟩ := Solver.exists_solve_result (d := Env.domain t) hf hwiden sv env
    have hfound := Solver.stable_of_settled hf hwiden hpeak hhead
    have hstart : head.Denotes σ := by
      obtain ⟨y, -, hle⟩ := hfound.1
      apply Env.denotes_of_le hle
      exact Env.denotes_join_left hσ y
    refine ⟨head.assume c.not, analyze_loop hσ.1 hhead, ?_⟩
    apply denotes_after_loop hs.1 hfound.1 _ hrun hstart
    intro σ₁ σ₂ hbefore hround
    apply ih hs.2 hbefore _ hround
    exact hcalls head hfound.2
  | assume c =>
    cases hrun with
    | assume hanswer => exact ⟨_, analyze_assume c env, Env.denotes_assume hσ hs hanswer⟩
  | havoc name =>
    cases hrun with
    | havoc _ => exact ⟨_, analyze_havoc name env, Env.denotes_set hσ (BrickSeq.denotes_top _)⟩

/-! ## Two loops -/

/-- A condition that may give either answer in any store. -/
def asksForMore : Cond := .contains .input (.lit "?")

/-- Either answer may be given in every store. -/
theorem answers_asksForMore (σ : Store) (b : Bool) : asksForMore.Answers Count.cap σ b := by
  have hmark : Expr.Yields Count.cap σ (.lit "?") "?" := .lit (by decide)
  cases b with
  | true =>
    have hinput : Expr.Yields Count.cap σ .input "?" := .input (by decide)
    exact .contains hinput hmark (iff_of_true rfl List.infix_rfl)
  | false =>
    have hinput : Expr.Yields Count.cap σ .input "" := .input (by decide)
    exact .contains hinput hmark (by decide)

/-- Goes back and forth between two strings. -/
def toggleLoop : Stmt :=
  loop asksForMore
    (ite (.eq (.var "x") (.lit "a")) (assign "x" (.lit "b")) (assign "x" (.lit "a")))

/-- The analysis of the loop settles, and its result has the store after one round. -/
theorem analyze_sound_toggleLoop :
    toggleLoop.isSliceFree = true ∧
      (Env.top.set "x" (.literal "a")).Denotes (Store.set (fun _ => "") "x" "a") ∧
      toggleLoop.Settles {} {} (Env.top.set "x" (.literal "a")) ∧
      toggleLoop.Runs Count.cap (Store.set (fun _ => "") "x" "a")
        ((Store.set (fun _ => "") "x" "a").set "x" "b") ∧
      ∃ r, toggleLoop.analyze {} {} (Env.top.set "x" (.literal "a")) = .ok r ∧
        r.Denotes ((Store.set (fun _ => "") "x" "a").set "x" "b") := by
  have hslice : toggleLoop.isSliceFree = true := by decide
  have hstart : (Env.top.set "x" (.literal "a")).Denotes (Store.set (fun _ => "") "x" "a") :=
    Env.denotes_set (Env.denotes_top _) (BrickSeq.denotes_literal.2 rfl)
  have hsettles : toggleLoop.Settles {} {} (Env.top.set "x" (.literal "a")) := by
    refine (settles_loop hstart.1).2 ⟨⟨_, rfl⟩, ?_⟩
    intro x _
    exact settles_ite.2 ⟨settles_assign _ _ _, settles_assign _ _ _⟩
  have hanswer : (Cond.eq (.var "x") (.lit "a")).Answers Count.cap
      (Store.set (fun _ => "") "x" "a") true := by
    have hx : Expr.Yields Count.cap (Store.set (fun _ => "") "x" "a") (.var "x") "a" :=
      .var (by decide)
    exact .eq hx (.lit (by decide))
  have hrun : toggleLoop.Runs Count.cap (Store.set (fun _ => "") "x" "a")
      ((Store.set (fun _ => "") "x" "a").set "x" "b") :=
    .round (answers_asksForMore _ true) (.thenBranch hanswer (.assign (.lit (by decide))))
      (.done (answers_asksForMore _ false))
  exact ⟨hslice, hstart, hsettles, hrun, analyze_sound hslice hstart hsettles hrun⟩

/-- Makes a string longer and longer. -/
def appendLoop : Stmt := loop asksForMore (assign "x" (.concat (.var "x") (.lit "a")))

/-- An ascent that is cut off by the cap may end below some store: with a cap of zero, the string
after two rounds is not in the result. -/
theorem capped_analysis_loses_store :
    appendLoop.isSliceFree = true ∧
      (Env.top.set "x" (.literal "")).Denotes (Store.set (fun _ => "") "x" "") ∧
      appendLoop.Runs Count.cap (Store.set (fun _ => "") "x" "")
        (((Store.set (fun _ => "") "x" "").set "x" "a").set "x" "aa") ∧
      ∃ r, appendLoop.analyze {} ⟨3, 2, 0⟩ (Env.top.set "x" (.literal "")) = .ok r ∧
        ¬ r.Denotes (((Store.set (fun _ => "") "x" "").set "x" "a").set "x" "aa") := by
  refine ⟨by decide, ?_, ?_, Env.top.set "x" ⟨[.of ["", "a"] 1 1]⟩, rfl, ?_⟩
  · exact Env.denotes_set (Env.denotes_top _) (BrickSeq.denotes_literal.2 rfl)
  · have hround : ∀ (σ : Store) (w w' : String), σ "x" = w → w ++ "a" = w' →
        w.length ≤ Count.cap → w'.length ≤ Count.cap →
        (assign "x" (.concat (.var "x") (.lit "a"))).Runs Count.cap σ (σ.set "x" w') := by
      intro σ w w' hw hw' hlen hlen'
      subst hw hw'
      exact .assign (.concat (.var hlen) (.lit (by decide)) hlen')
    have hfirst := hround (Store.set (fun _ => "") "x" "") "" "a" rfl
      (by decide) (by decide) (by decide)
    have hsecond := hround ((Store.set (fun _ => "") "x" "").set "x" "a") "a" "aa" rfl
      (by decide) (by decide) (by decide)
    exact .round (answers_asksForMore _ true) hfirst
      (.round (answers_asksForMore _ true) hsecond (.done (answers_asksForMore _ false)))
  · intro h
    have hx : (BrickSeq.ofBrick (.of ["", "a"] 1 1)).Denotes "aa" := h.2 "x"
    have hmem := Brick.denotes_once.1 (BrickSeq.denotes_ofBrick.1 hx)
    have hlist := StringSet.mem_ofList.1 hmem
    simp at hlist

end Stmt

end StringBricks
