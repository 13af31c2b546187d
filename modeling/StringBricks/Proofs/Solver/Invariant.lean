import StringBricks.Solver

/-!
# What a search keeps

Here the function and the widening may have faults, and nothing else is known of them. A search with
a result has met no fault. What its steps keep holds of the result (`Solver.invariant_of_solve`),
and if the ascent settles, the result is stable: the descent only goes on to stable values, however
little the meet has to do with the order (`Solver.stable_of_solve`).
-/

set_option autoImplicit false

namespace StringBricks

/-- A computation with a result has a result for its first part, and the rest goes on from there. -/
theorem Traced.exists_of_bind {α β γ : Type} {m : Traced α β} {k : β → Traced α γ} {c : γ}
    (h : (m >>= k).result = .ok c) : ∃ b, m.result = .ok b ∧ (k b).result = .ok c := by
  cases hm : m.result with
  | error fault =>
    rw [bind_of_error hm] at h
    cases h
  | ok b =>
    rw [bind_of_ok hm] at h
    exact ⟨b, rfl, h⟩

namespace Solver

variable {α : Type} {s : Solver} {d : Domain α} {init : α} {f : α → Except Fault α}
variable {P : α → Prop}

/-! ## Ascents -/

/-- Whether `init` joined with the image of `x` is below `x`. -/
def Stable (d : Domain α) (init : α) (f : α → Except Fault α) (x : α) : Prop :=
  ∃ y, f x = .ok y ∧ d.le (d.join init y) x = true

/-- Whether an ascent that has made `steps` steps goes on from `x` to `x'`. -/
def Climbs (s : Solver) (d : Domain α) (init : α) (f : α → Except Fault α) (steps : Nat)
    (x x' : α) : Prop :=
  ∃ y, f x = .ok y ∧ d.le (d.join init y) x = false ∧
    s.advance d steps x (d.join init y) = .ok x'

/-- Where widening never fails, no step of the ascent does. -/
theorem exists_advance_eq_ok (hwiden : ∀ x y, ∃ r, d.widen x y = .ok r) (s : Solver) (steps : Nat)
    (x next : α) : ∃ x', s.advance d steps x next = .ok x' := by
  unfold advance
  split
  · exact hwiden x next
  · exact ⟨next, rfl⟩

/-- An ascent with a result stops at a stable value or goes on from the value it climbs to. -/
theorem ascend_cases {rounds steps : Nat} {x : α} {peak : Ascent α}
    (h : (s.ascend d init f (rounds + 1) steps x).result = .ok peak) :
    (Stable d init f x ∧ peak = ⟨x, .settled⟩) ∨
      ∃ x', Climbs s d init f steps x x' ∧
        (s.ascend d init f rounds (steps + 1) x').result = .ok peak := by
  rw [ascend] at h
  obtain ⟨y, hy, h⟩ := Traced.exists_of_bind h
  by_cases hle : d.le (d.join init y) x = true
  · simp only [hle, if_true] at h
    cases h
    exact .inl ⟨⟨y, hy, hle⟩, rfl⟩
  · simp only [hle, Bool.false_eq_true, if_false] at h
    obtain ⟨x', hx', h⟩ := Traced.exists_of_bind h
    exact .inr ⟨x', ⟨y, hy, Bool.not_eq_true _ ▸ hle, hx'⟩, h⟩

/-- What the steps of an ascent keep holds where it ends, and where it settles is stable. -/
theorem invariant_of_ascend (hstep : ∀ steps x x', P x → Climbs s d init f steps x x' → P x')
    {rounds steps : Nat} {x : α} {peak : Ascent α} (hx : P x)
    (h : (s.ascend d init f rounds steps x).result = .ok peak) :
    P peak.value ∧ (peak.ending = .settled → Stable d init f peak.value) := by
  induction rounds generalizing steps x with
  | zero =>
    cases h
    exact ⟨hx, Ending.noConfusion⟩
  | succ rounds ih =>
    cases ascend_cases h with
    | inl hstops =>
      obtain ⟨hstable, rfl⟩ := hstops
      exact ⟨hx, fun _ => hstable⟩
    | inr hclimbs =>
      obtain ⟨x', hclimbs, hrest⟩ := hclimbs
      exact ih (hstep steps x x' hx hclimbs) hrest

/-! ## Descents -/

/-- Whether a descent goes on from `x` to `x'`. -/
def Descends (d : Domain α) (init : α) (f : α → Except Fault α) (x x' : α) : Prop :=
  ∃ y, f x = .ok y ∧ x' = d.narrow x (d.join init y) ∧ d.le x x' = false ∧ Stable d init f x'

/-- A descent from a stable element leads to a stable one. -/
theorem Descends.stable {x x' : α} (h : Descends d init f x x') : Stable d init f x' := by
  obtain ⟨-, -, -, -, hstable⟩ := h
  exact hstable

/-- A descent with a result stops where it is or goes on to a stable value. -/
theorem descend_cases {steps : Nat} {x r : α}
    (h : (descend d init f (steps + 1) x).result = .ok r) :
    r = x ∨ ∃ x', Descends d init f x x' ∧ (descend d init f steps x').result = .ok r := by
  rw [descend] at h
  obtain ⟨y, hy, h⟩ := Traced.exists_of_bind h
  by_cases hle : d.le x (d.narrow x (d.join init y)) = true
  · simp only [hle, if_true] at h
    cases h
    exact .inl rfl
  · simp only [hle, Bool.false_eq_true, if_false] at h
    obtain ⟨image, himage, h⟩ := Traced.exists_of_bind h
    by_cases hstable : d.le (d.join init image) (d.narrow x (d.join init y)) = true
    · simp only [hstable, if_true] at h
      exact .inr ⟨_, ⟨y, hy, rfl, Bool.not_eq_true _ ▸ hle, image, himage, hstable⟩, h⟩
    · simp only [hstable, Bool.false_eq_true, if_false] at h
      cases h
      exact .inl rfl

/-- What the steps of a descent keep holds where it ends. -/
theorem invariant_of_descend (hstep : ∀ x x', P x → Descends d init f x x' → P x') {steps : Nat}
    {x r : α} (hx : P x) (h : (descend d init f steps x).result = .ok r) : P r := by
  induction steps generalizing x with
  | zero =>
    cases h
    exact hx
  | succ steps ih =>
    cases descend_cases h with
    | inl hstops => exact hstops ▸ hx
    | inr hdescends =>
      obtain ⟨x', hdescends, hrest⟩ := hdescends
      exact ih (hstep x x' hx hdescends) hrest

/-! ## Searches -/

/-- A search with a result has an ascent with a result and a descent from there. -/
theorem exists_of_solve {r : α} (h : (s.solve d init f).result = .ok r) :
    ∃ peak, (s.climb d init f).result = .ok peak ∧
      (descend d init f s.narrowingSteps peak.value).result = .ok r :=
  Traced.exists_of_bind h

/-- What holds at the start and is kept by the function and by the operations of the domain holds of
what is found. -/
theorem invariant_of_solve (hf : ∀ x y, P x → f x = .ok y → P y)
    (hjoin : ∀ x y, P x → P y → P (d.join x y)) (hmeet : ∀ x y, P x → P y → P (d.meet x y))
    (hwiden : ∀ x y r, P x → P y → d.widen x y = .ok r → P r) (hinit : P init) {r : α}
    (h : (s.solve d init f).result = .ok r) : P r := by
  obtain ⟨peak, hpeak, hdescent⟩ := exists_of_solve h
  have hclimbs : ∀ steps x x', P x → Climbs s d init f steps x x' → P x' := by
    rintro steps x x' hx ⟨y, hy, -, hnext⟩
    have hjoined := hjoin init y hinit (hf x y hx hy)
    unfold advance at hnext
    split at hnext
    · exact hwiden x _ x' hx hjoined hnext
    · cases hnext
      exact hjoined
  have hdescends : ∀ x x', P x → Descends d init f x x' → P x' := by
    rintro x x' hx ⟨y, hy, rfl, -, -⟩
    exact hmeet x _ hx (hjoin init y hinit (hf x y hx hy))
  exact invariant_of_descend hdescends (invariant_of_ascend hclimbs hinit hpeak).1 hdescent

/-- A search that can take no step finds its start. -/
theorem eq_init_of_solve (hclimbs : ∀ steps x', ¬ Climbs s d init f steps init x')
    (hdescends : ∀ x', ¬ Descends d init f init x') {r : α}
    (h : (s.solve d init f).result = .ok r) : r = init := by
  obtain ⟨peak, hpeak, hdescent⟩ := exists_of_solve h
  have hpeak' : peak.value = init := by
    refine (invariant_of_ascend (P := fun x => x = init) ?_ rfl hpeak).1
    rintro steps _ x' rfl hstep
    exact absurd hstep (hclimbs steps x')
  refine invariant_of_descend (P := fun x => x = init) ?_ hpeak' hdescent
  rintro _ x' rfl hstep
  exact absurd hstep (hdescends x')

/-- If the ascent settles, what is found is stable. -/
theorem stable_of_solve {p r : α} (hsettled : (s.climb d init f).result = .ok ⟨p, .settled⟩)
    (h : (s.solve d init f).result = .ok r) : Stable d init f r := by
  obtain ⟨peak, hpeak, hdescent⟩ := exists_of_solve h
  have heq : peak = ⟨p, .settled⟩ := Except.ok.inj (hpeak.symm.trans hsettled)
  rw [heq] at hdescent
  have hascent := invariant_of_ascend (P := fun _ => True) (fun _ _ _ _ _ => trivial) trivial
    hsettled
  apply invariant_of_descend (P := Stable d init f) _ (hascent.2 rfl) hdescent
  intro x x' _ hdescends
  exact hdescends.stable

end Solver

end StringBricks
