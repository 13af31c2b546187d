import StringBricks.Proofs.Env.Lattice
import StringBricks.Brick.Domain
import StringBricks.BrickSeq.Domain
import StringBricks.Proofs.Solver.Invariant

/-!
# Calls and faults of a search

A search calls its function a bounded number of times, for any function: once for each step of the
ascent, the one that passes the cap included (`Solver.ascend_of_le_cap`), and twice for each step of
the descent. It fails exactly if a call had a fault, with the fault of that call, and calls nothing
after it (`Solver.search_ends_and_reports`). The widenings of the three domains have no faults of
their own. What computations do with their faults is put together along their binds
(`Traced.Reports.bind`).
-/

set_option autoImplicit false

namespace StringBricks

namespace Traced

variable {α β γ δ : Type} {f : α → Except Fault δ} {m : Traced α β} {k : β → Traced α γ}

/-! ## The number of calls -/

/-- Two steps in a row make at most the calls of the one and those of the other. -/
theorem length_calls_bind_le {n p : Nat} (hm : m.calls.length ≤ n)
    (hk : ∀ b, (k b).calls.length ≤ p) : (m >>= k).calls.length ≤ n + p := by
  cases hr : m.result with
  | error fault =>
    rw [bind_of_error hr]
    exact Nat.le_add_right_of_le hm
  | ok b =>
    rw [bind_of_ok hr, List.length_append]
    exact Nat.add_le_add hm (hk b)

/-- A call before a step makes at most one more. -/
theorem length_calls_call_bind_le {n : Nat} (hk : ∀ y, (k y).calls.length ≤ n)
    (f : α → Except Fault β) (x : α) : (call f x >>= k).calls.length ≤ n + 1 := by
  rw [Nat.add_comm]
  exact length_calls_bind_le (Nat.le_refl 1) hk

/-- What is computed without a call adds none to a step. -/
theorem length_calls_ofResult_bind_le {n : Nat} (hk : ∀ b, (k b).calls.length ≤ n)
    (r : Except Fault β) : (ofResult r >>= k).calls.length ≤ n := by
  rw [← Nat.zero_add n]
  exact length_calls_bind_le (Nat.le_refl 0) hk

/-! ## Faults -/

/-- Whether no call at one of the arguments has a fault. -/
def Faultless (f : α → Except Fault δ) (l : List α) : Prop := ∀ x ∈ l, ∃ y, f x = .ok y

/-- An argument that is asked for without a failure fails for no reason. -/
theorem Faultless.ne_error {l : List α} (hl : Faultless f l) {x : α} (hx : x ∈ l)
    (fault : Fault) : f x ≠ .error fault := by
  obtain ⟨y, hy⟩ := hl x hx
  rw [hy]
  exact nofun

/-- Arguments asked for one after the other are fine if both halves are. -/
theorem Faultless.append {l l' : List α} (hl : Faultless f l) (hl' : Faultless f l') :
    Faultless f (l ++ l') := by
  intro x hx
  cases List.mem_append.1 hx with
  | inl hx => exact hl x hx
  | inr hx => exact hl' x hx

/-- Whether a computation that calls `f` tells of its calls as they went: it has a result and no
call had a fault, or it has the fault of its last call, and no other call had one. -/
inductive Reports (f : α → Except Fault δ) (m : Traced α β) : Prop
  | done {b : β} (hresult : m.result = .ok b) (hcalls : Faultless f m.calls)
  | failed {fault : Fault} {earlier : List α} {x : α} (hresult : m.result = .error fault)
      (hcalls : m.calls = earlier ++ [x]) (hearlier : Faultless f earlier)
      (hx : f x = .error fault)

/-- A value is a report without failures. -/
theorem reports_pure (b : β) : (pure b : Traced α β).Reports f :=
  .done rfl fun _ hx => absurd hx List.not_mem_nil

/-- So is a result that is no failure. -/
theorem reports_ofResult {b : β} {r : Except Fault β} (h : r = .ok b) :
    (ofResult r : Traced α β).Reports f :=
  .done h fun _ hx => absurd hx List.not_mem_nil

/-- A call reports its own failure. -/
theorem reports_call (f : α → Except Fault δ) (x : α) : (call f x).Reports f := by
  cases hx : f x with
  | ok y =>
    refine .done hx fun c hc => ?_
    rw [List.mem_singleton.1 hc]
    exact ⟨y, hx⟩
  | error fault => exact .failed hx rfl (fun _ hy => absurd hy List.not_mem_nil) hx

/-- What goes on from a result keeps the calls that were made for it in front of its own. -/
theorem Reports.bind (hm : m.Reports f) (hk : ∀ b, m.result = .ok b → (k b).Reports f) :
    (m >>= k).Reports f := by
  cases hm with
  | failed hresult hcalls hearlier hx =>
    rw [bind_of_error hresult]
    exact .failed rfl hcalls hearlier hx
  | @done b hresult hcalls =>
    rw [bind_of_ok hresult]
    cases hk b hresult with
    | done hresult' hcalls' => exact .done hresult' (hcalls.append hcalls')
    | @failed fault earlier x hresult' hcalls' hearlier hx =>
      have hlast : m.calls ++ (k b).calls = (m.calls ++ earlier) ++ [x] := by
        rw [List.append_assoc, hcalls']
      exact .failed hresult' hlast (hcalls.append hearlier) hx

/-- A computation that reports fails exactly with the faults of its calls. -/
theorem Reports.error_iff (hm : m.Reports f) (fault : Fault) :
    m.result = .error fault ↔ ∃ x ∈ m.calls, f x = .error fault := by
  cases hm with
  | done hresult hcalls =>
    constructor
    · intro h
      rw [hresult] at h
      cases h
    · rintro ⟨x, hx, hfault⟩
      exact absurd hfault (hcalls.ne_error hx fault)
  | @failed _ earlier last hresult hcalls hearlier hlast =>
    rw [hresult, hcalls]
    constructor
    · intro h
      cases h
      exact ⟨last, List.mem_append_right _ List.mem_cons_self, hlast⟩
    · rintro ⟨x, hx, hfault⟩
      cases List.mem_append.1 hx with
      | inl hx => exact absurd hfault (hearlier.ne_error hx fault)
      | inr hx =>
        rw [List.mem_singleton.1 hx, hlast] at hfault
        cases hfault
        rfl

/-- A call with a fault is the last one. -/
theorem Reports.eq_nil_of_fault (hm : m.Reports f) {earlier later : List α} {x : α} {fault : Fault}
    (hcalls : m.calls = earlier ++ x :: later) (hx : f x = .error fault) : later = [] := by
  have hmem : ∀ rest, x ∈ earlier ++ x :: rest := fun rest =>
    List.mem_append_right _ List.mem_cons_self
  cases hm with
  | done _ hall =>
    rw [hcalls] at hall
    exact absurd hx (hall.ne_error (hmem later) fault)
  | @failed _ before last _ hall hbefore _ =>
    cases later.eq_nil_or_concat with
    | inl hnil => exact hnil
    | inr hconcat =>
      -- All calls but the last had no fault, and the call at `x` is one of them.
      obtain ⟨rest, last', rfl⟩ := hconcat
      have heq : before ++ [last] = (earlier ++ x :: rest) ++ [last'] := by
        rw [← hall, hcalls, List.concat_eq_append, List.append_assoc, List.cons_append]
      rw [(List.append_inj' heq rfl).1] at hbefore
      exact absurd hx (hbefore.ne_error (hmem rest) fault)

end Traced

namespace Solver

variable {α : Type} {s : Solver} {d : Domain α} {init : α} {f : α → Except Fault α}

/-! ## Ascents and descents -/

/-- The cap is tested after each step: an ascent stops once it has made more steps than the cap. -/
theorem ascend_of_le_cap {steps : Nat} (h : steps ≤ s.iterationCap) (x : α) :
    s.ascend d init f (s.iterationCap + 1 - steps) steps x = (do
      let next := d.join init (← .call f x)
      if d.le next x then
        return ⟨x, .settled⟩
      else
        let x' ← .ofResult (s.advance d steps x next)
        if s.iterationCap < steps + 1 then
          return ⟨x', .capped⟩
        else
          s.ascend d init f (s.iterationCap + 1 - (steps + 1)) (steps + 1) x') := by
  have hrounds : s.iterationCap + 1 - steps = (s.iterationCap - steps) + 1 := by omega
  rw [hrounds, ascend, Nat.add_sub_add_right]
  by_cases hlast : s.iterationCap < steps + 1
  · have hzero : s.iterationCap - steps = 0 := by omega
    simp only [hzero, if_pos hlast]
    rfl
  · simp only [if_neg hlast]

/-- An ascent makes one call for each step that is left up to the cap, and one for the step that
passes it. -/
theorem length_calls_ascend_le {steps : Nat} (h : steps ≤ s.iterationCap) (x : α) :
    (s.ascend d init f (s.iterationCap + 1 - steps) steps x).calls.length ≤
      s.iterationCap - steps + 1 := by
  induction hleft : s.iterationCap - steps using Nat.strong_induction_on generalizing steps x with
  | _ left ih =>
    rw [ascend_of_le_cap h]
    refine Traced.length_calls_call_bind_le ?_ f x
    intro y
    dsimp only
    split
    · exact Nat.zero_le _
    · refine Traced.length_calls_ofResult_bind_le ?_ _
      intro x'
      split
      · exact Nat.zero_le _
      · next hcap =>
        have hrest := ih (left - 1) (by omega) (Nat.le_of_not_lt hcap) x' (by omega)
        rwa [Nat.sub_add_cancel (by omega)] at hrest

/-- A descent makes at most two calls in each step, for a candidate and for its image. -/
theorem length_calls_descend_le (steps : Nat) (x : α) :
    (descend d init f steps x).calls.length ≤ 2 * steps := by
  induction steps generalizing x with
  | zero => exact Nat.le_refl 0
  | succ steps ih =>
    rw [descend]
    refine Traced.length_calls_call_bind_le (n := 2 * steps + 1) ?_ f x
    intro y
    dsimp only
    split
    · exact Nat.zero_le _
    · refine Traced.length_calls_call_bind_le ?_ f _
      intro image
      split
      · exact ih _
      · exact Nat.zero_le _

/-- An ascent reports if widening has no faults of its own. -/
theorem reports_ascend (hwiden : ∀ x y, ∃ r, d.widen x y = .ok r) (s : Solver) (init : α)
    (f : α → Except Fault α) (rounds steps : Nat) (x : α) :
    (s.ascend d init f rounds steps x).Reports f := by
  induction rounds generalizing steps x with
  | zero => exact Traced.reports_pure _
  | succ rounds ih =>
    rw [ascend]
    refine (Traced.reports_call f x).bind ?_
    intro y _
    dsimp only
    split
    · exact Traced.reports_pure _
    · obtain ⟨x', hx'⟩ := exists_advance_eq_ok hwiden s steps x (d.join init y)
      exact (Traced.reports_ofResult hx').bind fun x' _ => ih (steps + 1) x'

/-- A descent reports, as it widens nothing. -/
theorem reports_descend (d : Domain α) (init : α) (f : α → Except Fault α) (steps : Nat) (x : α) :
    (descend d init f steps x).Reports f := by
  induction steps generalizing x with
  | zero => exact Traced.reports_pure _
  | succ steps ih =>
    rw [descend]
    refine (Traced.reports_call f x).bind ?_
    intro y _
    dsimp only
    split
    · exact Traced.reports_pure _
    · refine (Traced.reports_call f _).bind ?_
      intro image _
      split
      · exact ih _
      · exact Traced.reports_pure _

/-! ## Searches -/

/-- Whether a search from `init` ends after few enough calls, fails exactly with the faults of its
calls, and makes no call after one with a fault, for whatever function. -/
def EndsAndReports (s : Solver) (d : Domain α) (init : α) : Prop :=
  ∀ f : α → Except Fault α,
    (s.solve d init f).calls.length ≤ s.iterationCap + 1 + 2 * s.narrowingSteps ∧
      (∀ fault, (s.solve d init f).result = .error fault ↔
        ∃ x ∈ (s.solve d init f).calls, f x = .error fault) ∧
      ∀ earlier x later fault, (s.solve d init f).calls = earlier ++ x :: later →
        f x = .error fault → later = []

/-- A search makes no more calls than its ascent and its descent may. -/
theorem length_calls_solve_le (s : Solver) (d : Domain α) (init : α) (f : α → Except Fault α) :
    (s.solve d init f).calls.length ≤ s.iterationCap + 1 + 2 * s.narrowingSteps := by
  have hclimb : (s.climb d init f).calls.length ≤ s.iterationCap + 1 :=
    length_calls_ascend_le (Nat.zero_le s.iterationCap) init
  exact Traced.length_calls_bind_le hclimb fun peak => length_calls_descend_le _ peak.value

/-- The bound is met: one call for the step that passes the cap, and two for a candidate that is
given up. -/
example : (solve ⟨3, 1, 0⟩ (Brick.domain {}) (.literal "a") fun b =>
    .ok (if b.isSingle then .any 0 5 else .literal "a")).calls.length = 3 := by decide

/-- Where widening never fails, a search ends and reports the first failure of the function. -/
theorem endsAndReports_of_widen (hwiden : ∀ x y, ∃ r, d.widen x y = .ok r) (s : Solver)
    (init : α) : s.EndsAndReports d init := by
  intro f
  have hreports : (s.solve d init f).Reports f :=
    (reports_ascend hwiden s init f _ _ _).bind fun _ _ => reports_descend d init f _ _
  refine ⟨length_calls_solve_le s d init f, hreports.error_iff, ?_⟩
  intro earlier x later fault hcalls hx
  exact hreports.eq_nil_of_fault hcalls hx

/-- **Searches end and report faults**, for bricks, for sequences and for environments, from every
start and for every function: they make no more calls than both phases allow, and fail exactly if a
call had a fault, which then is theirs and the last one. -/
theorem search_ends_and_reports (t : Thresholds) (s : Solver) :
    (∀ init : Brick, s.EndsAndReports (Brick.domain t) init) ∧
      (∀ init : BrickSeq, s.EndsAndReports (BrickSeq.domain t) init) ∧
        ∀ init : Env, s.EndsAndReports (Env.domain t) init :=
  ⟨endsAndReports_of_widen (Brick.exists_widen_eq_ok t) s,
    endsAndReports_of_widen (BrickSeq.exists_widen_eq_ok t) s,
    endsAndReports_of_widen (Env.exists_widen_eq_ok t) s⟩

end Solver

end StringBricks
