import StringBricks.Proofs.Brick.Meet
import StringBricks.Proofs.BrickSeq.Meet
import StringBricks.Proofs.Env.Pointwise
import StringBricks.Proofs.Order
import StringBricks.Proofs.Solver
import StringBricks.Proofs.Solver.Postfixpoint

/-!
# Narrowing

A descent goes on to a candidate that is stable and not above the value before it: it never asks
whether the candidate is below that value. So what it finds is below the peak of the ascent if the
meets are below their first operands (`Solver.descend_le`). Meets of bricks with smaller ones always
are, and meets of sequences if padding finds an alignment that shows it. Without that, a search can
narrow to a value that is not below the peak (`Solver.narrowing_leaves_peak`).
-/

set_option autoImplicit false

namespace StringBricks

/-- Whether the bricks of every variable face bricks above them. -/
def Env.FacesBelow (a b : Env) : Prop := ∀ name, (a.get name).FacesBelow (b.get name)

/-- Met with an environment whose bricks are below those that they face, an environment is below
itself again. -/
theorem Env.meet_le_left {a b : Env} (h : a.FacesBelow b) : (a.meet b).le a = true := by
  cases meet_cases a b with
  | inl hun =>
    rw [hun.1]
    exact unreachable_le a
  | inr hmeet =>
    have ha : a.isUnreachable = false := by
      rw [← Bool.not_eq_true]
      intro hun
      have hmeet' := hmeet.isProper.reachable
      simp [meet, hun] at hmeet'
    refine (le_iff hmeet.isProper.reachable).2 ⟨ha, ?_⟩
    intro name
    rw [hmeet.get_eq]
    exact BrickSeq.meet_le_left (h name)

/-- Only the variables that have an entry need to be looked at. -/
theorem Env.facesBelow_of_names {a b : Env} (ha : a.isUnreachable = false)
    (h : ∀ name ∈ a.names.toList, (a.get name).FacesBelow (b.get name)) : a.FacesBelow b := by
  intro name
  by_cases hname : name ∈ a.names
  · exact h name hname
  · rw [get_eq_top ha hname]
    exact .inr (.inl BrickSeq.isTop_top)

namespace Solver

variable {α : Type} {s : Solver} {d : Domain α} {init : α} {f : α → Except Fault α}

/-! ## Descents -/

/-- A descent from a stable value has a result below it, if the stable values at which it calls the
function meet their images below themselves. -/
theorem descend_le (hd : d.IsOrdered) (hf : ∀ x, ∃ y, f x = .ok y) {steps : Nat} {x : α}
    (hx : Stable d init f x)
    (hmeet : ∀ c ∈ (descend d init f steps x).calls, ∀ y, f c = .ok y →
      d.le (d.join init y) c = true → d.le (d.narrow c (d.join init y)) c = true) :
    ∃ r, (descend d init f steps x).result = .ok r ∧ d.le r x = true := by
  induction steps generalizing x with
  | zero => exact ⟨x, rfl, hd.le_refl x⟩
  | succ steps ih =>
    obtain ⟨y, hy, hle⟩ := hx
    obtain ⟨image, himage⟩ := hf (d.narrow x (d.join init y))
    rw [descend_succ hy himage] at hmeet ⊢
    by_cases hstops : d.le x (d.narrow x (d.join init y)) = true
    · rw [if_pos hstops]
      exact ⟨x, rfl, hd.le_refl x⟩
    · rw [if_neg hstops] at hmeet ⊢
      by_cases hstable : d.le (d.join init image) (d.narrow x (d.join init y)) = true
      · rw [if_pos hstable] at hmeet ⊢
        have hbelow := hmeet x List.mem_cons_self y hy hle
        obtain ⟨r, hr, hrle⟩ := ih ⟨image, himage, hstable⟩ fun c hc =>
          hmeet c (List.mem_cons_of_mem x (List.mem_cons_of_mem _ hc))
        exact ⟨r, hr, hd.le_trans hrle hbelow⟩
      · rw [if_neg hstable]
        exact ⟨x, rfl, hd.le_refl x⟩

/-! ## Searches -/

/-- The steps of narrowing do not matter to an ascent. -/
theorem ascend_withNarrowing (n rounds steps : Nat) (x : α) :
    { s with narrowingSteps := n }.ascend d init f rounds steps x =
      s.ascend d init f rounds steps x := by
  induction rounds generalizing steps x with
  | zero => rfl
  | succ rounds ih =>
    simp only [ascend, ih]
    rfl

/-- The search for a function without faults, with at most `n` steps of narrowing. -/
def solveNarrowing (s : Solver) (n : Nat) (d : Domain α) (init : α) (f : α → α) : Traced α α :=
  { s with narrowingSteps := n }.solve d init (.ok ∘ f)

/-- Whether the ascent for a function without faults ends at a stable value. -/
def Settles (s : Solver) (d : Domain α) (init : α) (f : α → α) : Prop :=
  ∃ peak, (s.climb d init (.ok ∘ f)).result = .ok ⟨peak, .settled⟩

/-- Whether what is found with at most `n` steps of narrowing is below what is found without. -/
def NarrowingRefines (s : Solver) (n : Nat) (d : Domain α) (init : α) (f : α → α) : Prop :=
  ∃ r₀ r, (s.solveNarrowing 0 d init f).result = .ok r₀ ∧
    (s.solveNarrowing n d init f).result = .ok r ∧ d.le r r₀ = true

/-- A search that settles and goes down from there. -/
theorem solveNarrowing_of_settled {f : α → α} {peak : α}
    (h : (s.climb d init (.ok ∘ f)).result = .ok ⟨peak, .settled⟩) (n : Nat) :
    s.solveNarrowing n d init f =
      ⟨(s.climb d init (.ok ∘ f)).calls ++ (descend d init (.ok ∘ f) n peak).calls,
        (descend d init (.ok ∘ f) n peak).result⟩ := by
  have hclimb : { s with narrowingSteps := n }.climb d init (.ok ∘ f) = s.climb d init (.ok ∘ f) :=
    ascend_withNarrowing n (s.iterationCap + 1) 0 init
  unfold solveNarrowing
  rw [solve_of_climb (hclimb ▸ h), hclimb]

/-- Narrowing refines what is found if stable values meet their images below themselves. -/
theorem narrowingRefines_of_meet_le {f : α → α} (hd : d.IsOrdered) {n : Nat}
    (hsettles : s.Settles d init f)
    (hmeet : ∀ x ∈ (s.solveNarrowing n d init f).calls, d.le (d.join init (f x)) x = true →
      d.le (d.narrow x (d.join init (f x))) x = true) : s.NarrowingRefines n d init f := by
  obtain ⟨peak, hpeak⟩ := hsettles
  have hstable : Stable d init (.ok ∘ f) peak :=
    (invariant_of_ascend (P := fun _ => True) (fun _ _ _ _ _ => trivial) trivial hpeak).2 rfl
  rw [solveNarrowing_of_settled hpeak] at hmeet
  have hdescent : ∃ r, (descend d init (.ok ∘ f) n peak).result = .ok r ∧ d.le r peak = true := by
    apply descend_le hd (fun x => ⟨f x, rfl⟩) hstable
    intro c hc y hy hle
    cases hy
    exact hmeet c (List.mem_append_right _ hc) hle
  obtain ⟨r, hr, hle⟩ := hdescent
  refine ⟨peak, r, ?_, ?_, hle⟩
  · rw [solveNarrowing_of_settled hpeak]
    rfl
  · rw [solveNarrowing_of_settled hpeak]
    exact hr

/-- **Narrowing refines** what a search finds that settles: for bricks always, for sequences if
padding sets the bricks of each image below a value against bricks of that value that are above
them, and for environments if it does so for every variable. -/
theorem narrowing_refines (t : Thresholds) (s : Solver) (n : Nat) :
    (∀ (init : Brick) (f : Brick → Brick), s.Settles (Brick.domain t) init f →
      s.NarrowingRefines n (Brick.domain t) init f) ∧
    (∀ (init : BrickSeq) (f : BrickSeq → BrickSeq), s.Settles (BrickSeq.domain t) init f →
      (∀ x ∈ (s.solveNarrowing n (BrickSeq.domain t) init f).calls,
        (init.join (f x)).le x = true → x.FacesBelow (init.join (f x))) →
      s.NarrowingRefines n (BrickSeq.domain t) init f) ∧
    (∀ (init : Env) (f : Env → Env), s.Settles (Env.domain t) init f →
      (∀ x ∈ (s.solveNarrowing n (Env.domain t) init f).calls,
        (init.join (f x)).le x = true → x.FacesBelow (init.join (f x))) →
      s.NarrowingRefines n (Env.domain t) init f) := by
  refine ⟨?_, ?_, ?_⟩
  · intro init f hsettles
    apply narrowingRefines_of_meet_le (Brick.isOrdered t) hsettles
    intro x _ hle
    exact Brick.meet_le_left hle
  · intro init f hsettles hfaces
    apply narrowingRefines_of_meet_le (BrickSeq.isOrdered t) hsettles
    intro x hx hle
    exact BrickSeq.meet_le_left (hfaces x hx hle)
  · intro init f hsettles hfaces
    apply narrowingRefines_of_meet_le (Env.isOrdered t) hsettles
    intro x hx hle
    exact Env.meet_le_left (hfaces x hx hle)

/-! ## A descent that refines and one that does not -/

/-- Allows one more repetition of `"a"` than each brick does, but no more than five. -/
def onceMoreInEach (x : BrickSeq) : BrickSeq := ⟨x.bricks.map fun b => upTo (min (b.hi + 1) 5)⟩

/-- The same for the variable `x`. -/
def onceMoreForX (env : Env) : Env := env.set "x" (onceMoreInEach (env.get "x"))

/-- The ascents give up the upper bound of the repetitions, and the descents find it again. -/
theorem narrowing_refines_upToFive :
    (Settles ⟨1, 2, 10⟩ (Brick.domain ⟨2, 20, 10⟩) (upTo 1) (fun b => upTo (min (b.hi + 1) 5)) ∧
      NarrowingRefines ⟨1, 2, 10⟩ 2 (Brick.domain ⟨2, 20, 10⟩) (upTo 1)
        (fun b => upTo (min (b.hi + 1) 5))) ∧
    (Settles ⟨1, 2, 10⟩ (BrickSeq.domain ⟨2, 20, 10⟩) (.ofBrick (upTo 1)) onceMoreInEach ∧
      NarrowingRefines ⟨1, 2, 10⟩ 2 (BrickSeq.domain ⟨2, 20, 10⟩) (.ofBrick (upTo 1))
        onceMoreInEach) ∧
    Settles ⟨1, 2, 10⟩ (Env.domain ⟨2, 20, 10⟩) (withX (upTo 1)) onceMoreForX ∧
      NarrowingRefines ⟨1, 2, 10⟩ 2 (Env.domain ⟨2, 20, 10⟩) (withX (upTo 1)) onceMoreForX := by
  have hrefines := narrowing_refines ⟨2, 20, 10⟩ ⟨1, 2, 10⟩ 2
  have hbrick : Settles ⟨1, 2, 10⟩ (Brick.domain ⟨2, 20, 10⟩) (upTo 1)
      (fun b => upTo (min (b.hi + 1) 5)) := ⟨upTo .infinite, rfl⟩
  have hseq : Settles ⟨1, 2, 10⟩ (BrickSeq.domain ⟨2, 20, 10⟩) (.ofBrick (upTo 1))
      onceMoreInEach := ⟨.ofBrick (upTo .infinite), rfl⟩
  have henv : Settles ⟨1, 2, 10⟩ (Env.domain ⟨2, 20, 10⟩) (withX (upTo 1)) onceMoreForX :=
    ⟨withX (upTo .infinite), rfl⟩
  have hnames : ∀ x ∈ (solveNarrowing ⟨1, 2, 10⟩ 2 (Env.domain ⟨2, 20, 10⟩) (withX (upTo 1))
      onceMoreForX).calls, ((withX (upTo 1)).join (onceMoreForX x)).le x = true →
        x.isUnreachable = false ∧ ∀ name ∈ x.names.toList,
          (x.get name).FacesBelow (((withX (upTo 1)).join (onceMoreForX x)).get name) := by decide
  refine ⟨⟨hbrick, hrefines.1 _ _ hbrick⟩, ⟨hseq, hrefines.2.1 _ _ hseq (by decide)⟩, henv, ?_⟩
  apply hrefines.2.2 _ _ henv
  intro x hx hle
  obtain ⟨hstate, hfaces⟩ := hnames x hx hle
  exact Env.facesBelow_of_names hstate hfaces

/-- An optional `"p"`, then `"q"`, then anything, then an optional `"r"`. -/
def loose : BrickSeq := ⟨[.of ["p"] 0 1, .literal "q", .top, .of ["r"] 0 1]⟩

/-- `"q"` and `"t"` with an optional `"s"` between them, then an optional `"r"`. -/
def tight : BrickSeq := ⟨[.literal "q", .of ["s"] 0 1, .literal "t", .of ["r"] 0 1]⟩

/-- Leads up to `loose`, from there to `tight`, and from the meet of the two to no string. -/
def leadsOff (x : BrickSeq) : BrickSeq :=
  if x.le .bottom then loose else if x.le (loose.meet tight) then .bottom else tight

/-- The image `tight` of the peak `loose` is below it, but their meet pairs the bricks in another
way than the order does. It is kept, as it is stable and not above the peak. -/
theorem narrowing_leaves_peak :
    tight.le loose = true ∧ Settles {} (BrickSeq.domain {}) .bottom leadsOff ∧
      (solveNarrowing {} 0 (BrickSeq.domain {}) .bottom leadsOff).result = .ok loose ∧
      (solveNarrowing {} 1 (BrickSeq.domain {}) .bottom leadsOff).result =
        .ok (loose.meet tight) ∧
      (loose.meet tight).le loose = false ∧
      ¬ NarrowingRefines {} 1 (BrickSeq.domain {}) .bottom leadsOff := by
  have hwithout : (solveNarrowing {} 0 (BrickSeq.domain {}) .bottom leadsOff).result =
      .ok loose := by decide
  have hwith : (solveNarrowing {} 1 (BrickSeq.domain {}) .bottom leadsOff).result =
      .ok (loose.meet tight) := by decide
  have hle : (loose.meet tight).le loose = false := by decide
  refine ⟨by decide, ⟨loose, rfl⟩, hwithout, hwith, hle, ?_⟩
  rintro ⟨r₀, r, hr₀, hr, hbelow⟩
  cases hr₀.symm.trans hwithout
  cases hr.symm.trans hwith
  rw [show (loose.meet tight).le loose = true from hbelow] at hle
  cases hle

end Solver

end StringBricks
