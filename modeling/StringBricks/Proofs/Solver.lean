import StringBricks.Proofs.Solver.Invariant
import Mathlib.Order.OrderIsoNat

/-!
# What the solver finds

The function and the widening are taken to be without faults here. Then the solver has a result. If
the ascent settles, that result is stable and the function was called there
(`Solver.stable_of_settled`). A search depends on its function only through the calls it makes
(`Solver.solve_congr`). If no ascent goes on for ever, it settles, and it is the same search for
every cap from some cap on (`Solver.exists_settled_search`).
-/

set_option autoImplicit false

namespace StringBricks

namespace Traced

variable {α β γ : Type}

/-- After a call without a fault, a computation goes on with its value. -/
theorem call_bind {f : α → Except Fault β} {x : α} {y : β} (h : f x = .ok y)
    (k : β → Traced α γ) : (call f x >>= k) = ⟨x :: (k y).calls, (k y).result⟩ :=
  bind_of_ok (m := call f x) h k

/-- After a result without a fault, a computation goes on with it, and no call is made. -/
theorem ofResult_bind {m : Except Fault β} {y : β} (h : m = .ok y) (k : β → Traced α γ) :
    (ofResult m >>= k) = k y :=
  bind_of_ok (m := ofResult m) h k

end Traced

namespace Solver

variable {α : Type} {s : Solver} {d : Domain α} {init : α} {f g : α → Except Fault α}

/-! ## Ascents step by step -/

/-- An ascent either stops at a value or goes on from it. -/
theorem stable_or_climbs (hf : ∀ x, ∃ y, f x = .ok y) (hwiden : ∀ x y, ∃ r, d.widen x y = .ok r)
    (s : Solver) (init : α) (steps : Nat) (x : α) :
    Stable d init f x ∨ ∃ x', Climbs s d init f steps x x' := by
  obtain ⟨y, hy⟩ := hf x
  by_cases hle : d.le (d.join init y) x = true
  · exact .inl ⟨y, hy, hle⟩
  · rw [Bool.not_eq_true] at hle
    obtain ⟨x', hx'⟩ := exists_advance_eq_ok hwiden s steps x (d.join init y)
    exact .inr ⟨x', y, hy, hle, hx'⟩

/-- At a stable value an ascent makes one call and is settled. -/
theorem ascend_of_stable {x : α} (h : Stable d init f x) (rounds steps : Nat) :
    s.ascend d init f (rounds + 1) steps x = ⟨[x], .ok ⟨x, .settled⟩⟩ := by
  obtain ⟨y, hf, hle⟩ := h
  rw [ascend, Traced.call_bind hf]
  simp only [hle, if_true]
  rfl

/-- Where an ascent goes on, it makes one call before those of the rest. -/
theorem ascend_of_climbs {steps : Nat} {x x' : α} (h : Climbs s d init f steps x x')
    (rounds : Nat) :
    s.ascend d init f (rounds + 1) steps x =
      ⟨x :: (s.ascend d init f rounds (steps + 1) x').calls,
        (s.ascend d init f rounds (steps + 1) x').result⟩ := by
  obtain ⟨y, hf, hle, hnext⟩ := h
  rw [ascend, Traced.call_bind hf]
  simp only [hle, Bool.false_eq_true, if_false]
  rw [Traced.ofResult_bind hnext]

/-- Whether an ascent goes on from a value depends on the function at that value alone. -/
theorem climbs_congr {steps : Nat} {x x' : α} (h : Climbs s d init f steps x x')
    (hx : f x = g x) : Climbs s d init g steps x x' := by
  obtain ⟨y, hy, hle, hnext⟩ := h
  exact ⟨y, hx.symm.trans hy, hle, hnext⟩

section Total

variable (hf : ∀ x, ∃ y, f x = .ok y) (hwiden : ∀ x y, ∃ r, d.widen x y = .ok r)

include hf hwiden

/-- An ascent has a result. -/
theorem exists_ascend_result (s : Solver) (init : α) (rounds steps : Nat) (x : α) :
    ∃ peak, (s.ascend d init f rounds steps x).result = .ok peak := by
  induction rounds generalizing steps x with
  | zero => exact ⟨_, rfl⟩
  | succ rounds ih =>
    cases stable_or_climbs hf hwiden s init steps x with
    | inl hstable =>
      rw [ascend_of_stable hstable]
      exact ⟨_, rfl⟩
    | inr hclimbs =>
      obtain ⟨x', hx'⟩ := hclimbs
      rw [ascend_of_climbs hx']
      exact ih (steps + 1) x'

/-- Where an ascent settles the function was called. -/
theorem mem_calls_of_ascend {rounds steps : Nat} {x r : α}
    (h : (s.ascend d init f rounds steps x).result = .ok ⟨r, .settled⟩) :
    r ∈ (s.ascend d init f rounds steps x).calls := by
  induction rounds generalizing steps x with
  | zero => cases h
  | succ rounds ih =>
    cases stable_or_climbs hf hwiden s init steps x with
    | inl hstable =>
      rw [ascend_of_stable hstable] at h ⊢
      cases h
      exact List.mem_cons_self
    | inr hclimbs =>
      obtain ⟨x', hx'⟩ := hclimbs
      rw [ascend_of_climbs hx'] at h ⊢
      exact List.mem_cons_of_mem x (ih h)

/-- An ascent depends only on its calls. -/
theorem ascend_congr {rounds steps : Nat} {x : α}
    (h : ∀ c ∈ (s.ascend d init f rounds steps x).calls, f c = g c) :
    s.ascend d init g rounds steps x = s.ascend d init f rounds steps x := by
  induction rounds generalizing steps x with
  | zero => rfl
  | succ rounds ih =>
    cases stable_or_climbs hf hwiden s init steps x with
    | inl hstable =>
      rw [ascend_of_stable hstable] at h ⊢
      have hx := h x List.mem_cons_self
      obtain ⟨y, hy, hle⟩ := hstable
      exact ascend_of_stable ⟨y, hx.symm.trans hy, hle⟩ rounds steps
    | inr hclimbs =>
      obtain ⟨x', hx'⟩ := hclimbs
      rw [ascend_of_climbs hx'] at h ⊢
      have hx := h x List.mem_cons_self
      rw [ascend_of_climbs (climbs_congr hx' hx), ih fun c hc => h c (List.mem_cons_of_mem x hc)]

/-- An ascent that cannot go on for ever settles, and is the same with more rounds. The cap does not
matter to the steps. The induction is on the steps that are left. -/
theorem exists_settled_ascent {steps : Nat} {x : α}
    (h : Acc (fun q p : Nat × α => q.1 = p.1 + 1 ∧ Climbs s d init f p.1 p.2 q.2) (steps, x)) :
    ∃ (n : Nat) (calls : List α) (r : α), ∀ cap rounds, n ≤ rounds →
      { s with iterationCap := cap }.ascend d init f rounds steps x =
        ⟨calls, .ok ⟨r, .settled⟩⟩ := by
  generalize hp : (steps, x) = p at h
  induction h generalizing steps x with
  | intro p _ ih =>
    subst hp
    cases stable_or_climbs hf hwiden s init steps x with
    | inl hstable =>
      refine ⟨1, [x], x, ?_⟩
      intro cap rounds hrounds
      obtain ⟨k, rfl⟩ := Nat.exists_eq_add_of_le' hrounds
      exact ascend_of_stable hstable k steps
    | inr hclimbs =>
      obtain ⟨x', hx'⟩ := hclimbs
      obtain ⟨n, calls, r, hrest⟩ := ih (steps + 1, x') ⟨rfl, hx'⟩ rfl
      refine ⟨n + 1, x :: calls, r, ?_⟩
      intro cap rounds hrounds
      obtain ⟨k, rfl⟩ := Nat.exists_eq_add_of_le' (Nat.le_trans (Nat.le_add_left 1 n) hrounds)
      have hclimbs : Climbs { s with iterationCap := cap } d init f steps x x' := hx'
      rw [ascend_of_climbs hclimbs, hrest cap k (Nat.le_of_succ_le_succ hrounds)]

end Total

/-! ## Descents step by step -/

/-- One step of a descent: it stops, or finds its candidate not to be stable, or goes on. -/
theorem descend_succ {x y image : α} (hy : f x = .ok y)
    (himage : f (d.narrow x (d.join init y)) = .ok image) (steps : Nat) :
    descend d init f (steps + 1) x =
      if d.le x (d.narrow x (d.join init y)) then ⟨[x], .ok x⟩
      else if d.le (d.join init image) (d.narrow x (d.join init y)) then
        ⟨x :: d.narrow x (d.join init y) ::
            (descend d init f steps (d.narrow x (d.join init y))).calls,
          (descend d init f steps (d.narrow x (d.join init y))).result⟩
      else ⟨[x, d.narrow x (d.join init y)], .ok x⟩ := by
  rw [descend, Traced.call_bind hy]
  by_cases hle : d.le x (d.narrow x (d.join init y)) = true
  · simp only [hle, if_true]
    rfl
  · simp only [hle, Bool.false_eq_true, if_false]
    rw [Traced.call_bind himage]
    split
    · rfl
    · rfl

section Total

variable (hf : ∀ x, ∃ y, f x = .ok y)

include hf

/-- A descent has a result, which is where it started or was called. -/
theorem descend_result (init : α) (steps : Nat) (x : α) :
    ∃ r, (descend d init f steps x).result = .ok r ∧
      (r = x ∨ r ∈ (descend d init f steps x).calls) := by
  induction steps generalizing x with
  | zero => exact ⟨x, rfl, .inl rfl⟩
  | succ steps ih =>
    obtain ⟨y, hy⟩ := hf x
    obtain ⟨image, himage⟩ := hf (d.narrow x (d.join init y))
    rw [descend_succ hy himage]
    split
    · exact ⟨x, rfl, .inl rfl⟩
    · split
      · obtain ⟨r, hr, hcall⟩ := ih (d.narrow x (d.join init y))
        refine ⟨r, hr, .inr (List.mem_cons_of_mem x ?_)⟩
        cases hcall with
        | inl heq => exact heq ▸ List.mem_cons_self
        | inr hmem => exact List.mem_cons_of_mem _ hmem
      · exact ⟨x, rfl, .inl rfl⟩

/-- A descent depends only on its calls. -/
theorem descend_congr {steps : Nat} {x : α}
    (h : ∀ c ∈ (descend d init f steps x).calls, f c = g c) :
    descend d init g steps x = descend d init f steps x := by
  induction steps generalizing x with
  | zero => rfl
  | succ steps ih =>
    obtain ⟨y, hy⟩ := hf x
    obtain ⟨image, himage⟩ := hf (d.narrow x (d.join init y))
    have hdescent := descend_succ hy himage steps
    have hx : f x = g x := by
      apply h
      rw [hdescent]
      split
      · exact List.mem_cons_self
      · split
        · exact List.mem_cons_self
        · exact List.mem_cons_self
    by_cases hle : d.le x (d.narrow x (d.join init y)) = true
    · rw [hdescent, if_pos hle, descend, Traced.call_bind (hx.symm.trans hy)]
      simp only [hle, if_true]
      rfl
    · rw [hdescent, if_neg hle] at h ⊢
      have hnext : f (d.narrow x (d.join init y)) = g (d.narrow x (d.join init y)) := by
        apply h
        split
        · exact List.mem_cons_of_mem x List.mem_cons_self
        · exact List.mem_cons_of_mem x List.mem_cons_self
      rw [descend_succ (hx.symm.trans hy) (hnext.symm.trans himage), if_neg hle]
      by_cases hstable : d.le (d.join init image) (d.narrow x (d.join init y)) = true
      · rw [if_pos hstable] at h ⊢
        rw [if_pos hstable]
        rw [ih fun c hc => h c (List.mem_cons_of_mem x (List.mem_cons_of_mem _ hc))]
      · rw [if_neg hstable, if_neg hstable]

end Total

/-! ## Whole searches -/

/-- A search is its ascent and then its descent from the peak. -/
theorem solve_of_climb {peak : Ascent α} (h : (s.climb d init f).result = .ok peak) :
    s.solve d init f =
      ⟨(s.climb d init f).calls ++ (descend d init f s.narrowingSteps peak.value).calls,
        (descend d init f s.narrowingSteps peak.value).result⟩ :=
  Traced.bind_of_ok h _

section Total

variable (hf : ∀ x, ∃ y, f x = .ok y) (hwiden : ∀ x y, ∃ r, d.widen x y = .ok r)

include hf hwiden

/-- A search has a result. -/
theorem exists_solve_result (s : Solver) (init : α) :
    ∃ r, (s.solve d init f).result = .ok r := by
  obtain ⟨peak, hpeak⟩ :=
    exists_ascend_result hf hwiden s init (s.iterationCap + 1) 0 init
  obtain ⟨r, hr, -⟩ := descend_result (d := d) hf init s.narrowingSteps peak.value
  rw [solve_of_climb hpeak]
  exact ⟨r, hr⟩

/-- If the ascent settles, what is found is stable, and the function was called there. -/
theorem stable_of_settled {p r : α} (hsettled : (s.climb d init f).result = .ok ⟨p, .settled⟩)
    (h : (s.solve d init f).result = .ok r) :
    Stable d init f r ∧ r ∈ (s.solve d init f).calls := by
  refine ⟨stable_of_solve hsettled h, ?_⟩
  have hpeak := mem_calls_of_ascend hf hwiden hsettled
  obtain ⟨r', hr', hcall⟩ := descend_result (d := d) hf init s.narrowingSteps p
  rw [solve_of_climb hsettled] at h ⊢
  have heq : r' = r := Except.ok.inj (hr'.symm.trans h)
  rw [heq] at hcall
  rw [List.mem_append]
  cases hcall with
  | inl hp => exact .inl (hp ▸ hpeak)
  | inr hmem => exact .inr hmem

/-- A search depends only on its calls. -/
theorem solve_congr (h : ∀ c ∈ (s.solve d init f).calls, f c = g c) :
    s.climb d init g = s.climb d init f ∧ s.solve d init g = s.solve d init f := by
  obtain ⟨peak, hpeak⟩ :=
    exists_ascend_result hf hwiden s init (s.iterationCap + 1) 0 init
  rw [solve_of_climb hpeak] at h
  have hclimb : s.climb d init g = s.climb d init f :=
    ascend_congr hf hwiden fun c hc => h c (List.mem_append_left _ hc)
  have hdescend := descend_congr hf fun c hc => h c (List.mem_append_right _ hc)
  have hpeak' : (s.climb d init g).result = .ok peak := by
    rw [hclimb]
    exact hpeak
  refine ⟨hclimb, ?_⟩
  rw [solve_of_climb hpeak, solve_of_climb hpeak', hclimb, hdescend]

/-- If the ascent from `init` cannot go on for ever, the search is the same for every cap from some
cap on, and its ascent settles. -/
theorem exists_settled_search
    (h : Acc (fun q p : Nat × α => q.1 = p.1 + 1 ∧ Climbs s d init f p.1 p.2 q.2) (0, init)) :
    ∃ (n : Nat) (r : α) (found : Traced α α), ∀ cap, n ≤ cap →
      ({ s with iterationCap := cap }.climb d init f).result = .ok ⟨r, .settled⟩ ∧
        { s with iterationCap := cap }.solve d init f = found := by
  obtain ⟨n, calls, r, hascent⟩ := exists_settled_ascent hf hwiden h
  refine ⟨n, r, ⟨calls ++ (descend d init f s.narrowingSteps r).calls,
    (descend d init f s.narrowingSteps r).result⟩, ?_⟩
  intro cap hcap
  have hclimb := hascent cap (cap + 1) (Nat.le_succ_of_le hcap)
  have hpeak : ({ s with iterationCap := cap }.climb d init f).result = .ok ⟨r, .settled⟩ :=
    congrArg Traced.result hclimb
  refine ⟨hpeak, ?_⟩
  rw [solve_of_climb hpeak]
  exact congrArg (fun c : Traced α (Ascent α) =>
    Traced.mk (c.calls ++ (descend d init f s.narrowingSteps r).calls)
      (descend d init f s.narrowingSteps r).result) hclimb

end Total

end Solver

end StringBricks
