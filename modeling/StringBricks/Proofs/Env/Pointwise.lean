import StringBricks.Proofs.BrickSeq.Meet
import StringBricks.Proofs.Env.Construction

/-!
# Environments as a lifting of sequences

The operations on environments only look at the names that have an entry, and they give up as soon
as there is no state on one side. Over all names, with an entry or without, they are nevertheless
the operations on sequences applied to each variable: the order, the join and the widening exactly
(`Env.IsConsistent.le_iff_get`, `Env.IsConsistent.get_join`, `Env.IsConsistent.get_widen`), and the
meet unless it leaves some variable with no string; then it leaves no state.
-/

set_option autoImplicit false

namespace StringBricks

namespace Env

variable {a b r : Env}

/-- An environment is below another exactly if every variable is. Below one without a state is no
environment with a state, as none of its variables is below bottom. -/
theorem IsConsistent.le_iff_get (ha : a.IsConsistent) :
    a.le b = true ↔ ∀ name, (a.get name).le (b.get name) = true := by
  cases hun : a.isUnreachable with
  | true =>
    refine iff_of_true (le_of_isUnreachable hun b) ?_
    intro name
    rw [get_of_isUnreachable hun]
    exact BrickSeq.le_of_isBottom BrickSeq.isBottom_bottom _
  | false =>
    rw [le_iff hun, and_iff_right_of_imp]
    intro hle
    rw [← Bool.not_eq_true]
    intro hun'
    have hbot := hle ""
    rw [get_of_isUnreachable hun'] at hbot
    have hbot' := BrickSeq.isBottom_of_le hbot BrickSeq.isBottom_bottom
    rw [ha hun] at hbot'
    cases hbot'

/-- A join joins the values of every variable. -/
theorem IsConsistent.get_join (ha : a.IsConsistent) (b : Env) (name : String) :
    (a.join b).get name = (a.get name).join (b.get name) := by
  cases hun : a.isUnreachable with
  | true =>
    rw [join_of_isUnreachable_left hun, get_of_isUnreachable hun]
    exact (BrickSeq.join_of_isBottom_left BrickSeq.isBottom_bottom _).symm
  | false =>
    obtain ⟨hb, hjoin⟩ | ⟨-, k, hk, -⟩ | hjoin := join_cases hun b
    · rw [hjoin, get_of_isUnreachable hb]
      exact (BrickSeq.join_of_isBottom_right (ha hun name) BrickSeq.isBottom_bottom).symm
    · rw [ha hun k] at hk
      cases hk
    · exact hjoin.get_eq name

/-- A widening widens the values of every variable. -/
theorem IsConsistent.get_widen {t : Thresholds} (ha : a.IsConsistent) (hb : b.IsConsistent)
    (h : a.widen t b = .ok r) (name : String) :
    (a.get name).widen t (b.get name) = .ok (r.get name) := by
  cases hun : a.isUnreachable with
  | true =>
    cases (widen_of_isUnreachable_left t hun b).symm.trans h
    rw [get_of_isUnreachable hun]
    rfl
  | false =>
    have hproper := ha hun
    cases hun' : b.isUnreachable with
    | true =>
      cases (widen_of_isUnreachable_right t hun hun').symm.trans h
      rw [get_of_isUnreachable hun', BrickSeq.widen, if_neg (Bool.eq_false_iff.1 (hproper name))]
      rfl
    | false =>
      have hcombines := combines_of_widen h hun (hb hun')
      rw [hcombines.get_eq, BrickSeq.widen_eq_ok]

/-- A meet leaves no state, and then the values of some variable have no meet, or it meets the
values of every variable. -/
theorem meet_cases (a b : Env) :
    (a.meet b = unreachable ∧ ∃ name, ((a.get name).meet (b.get name)).isBottom = true) ∨
      Combines .meet a b (a.meet b) := by
  cases hun : a.isUnreachable with
  | true =>
    refine .inl ⟨by simp [meet, hun], "", BrickSeq.isBottom_meet (.inl ?_)⟩
    rw [get_of_isUnreachable hun]
    exact BrickSeq.isBottom_bottom
  | false =>
    cases hun' : b.isUnreachable with
    | true =>
      refine .inl ⟨by simp [meet, hun'], "", BrickSeq.isBottom_meet (.inr ?_)⟩
      rw [get_of_isUnreachable hun']
      exact BrickSeq.isBottom_bottom
    | false =>
      have hmeet : a.meet b = Env.pointwise .meet a b := by simp [meet, hun, hun']
      have htop : BrickSeq.top.meet .top = .top := by rw [BrickSeq.meet_top_left]; rfl
      rw [hmeet]
      exact pointwise_cases htop hun hun'

/-- **Environments are the lifting of sequences to all variables**: for environments made by setting
variables, the order holds exactly if it holds of every variable, and the join and the widening,
which has no fault, give every variable the join and the widening of its values. The meet leaves no
state if the values of some variable have no meet, and otherwise gives every variable the meet of
its values. -/
theorem lifted_to_variables (t : Thresholds) (ha : a.MadeBySets) (hb : b.MadeBySets) :
    (a.le b = true ↔ ∀ name, (a.get name).le (b.get name) = true) ∧
    (∀ name, (a.join b).get name = (a.get name).join (b.get name)) ∧
    (∃ r, a.widen t b = .ok r ∧
      ∀ name, (a.get name).widen t (b.get name) = .ok (r.get name)) ∧
    ((∃ name, ((a.get name).meet (b.get name)).isBottom = true) → a.meet b = unreachable) ∧
    ((∀ name, ((a.get name).meet (b.get name)).isBottom = false) →
      ∀ name, (a.meet b).get name = (a.get name).meet (b.get name)) := by
  obtain ⟨r, hr⟩ := exists_widen_eq_ok t a b
  refine ⟨ha.isConsistent.le_iff_get, ha.isConsistent.get_join b,
    ⟨r, hr, ha.isConsistent.get_widen hb.isConsistent hr⟩, ?_, ?_⟩
  · rintro ⟨name, hname⟩
    cases meet_cases a b with
    | inl hun => exact hun.1
    | inr hmeet =>
      have hproper := hmeet.isProper name
      rw [hmeet.get_eq, hname] at hproper
      cases hproper
  · intro hproper
    cases meet_cases a b with
    | inl hun =>
      obtain ⟨-, name, hname⟩ := hun
      rw [hproper name] at hname
      cases hname
    | inr hmeet => exact hmeet.get_eq

/-- One variable bound on both sides, one on the left only, and one on the right only. -/
theorem lifted_to_variables_pair :
    ((top.set "x" (.literal "a")).set "y" (.literal "b")).MadeBySets ∧
    ((top.set "x" (.ofBrick (.of ["a"] 2 2))).set "z" (.literal "c")).MadeBySets ∧
    (((top.set "x" (.literal "a")).set "y" (.literal "b")).join
        ((top.set "x" (.ofBrick (.of ["a"] 2 2))).set "z" (.literal "c"))).get "x" =
      (BrickSeq.literal "a").join (.ofBrick (.of ["a"] 2 2)) ∧
    ((top.set "x" (.literal "a")).set "y" (.literal "b")).meet
        ((top.set "x" (.ofBrick (.of ["a"] 2 2))).set "z" (.literal "c")) = unreachable := by
  have hleft : ((top.set "x" (.literal "a")).set "y" (.literal "b")).MadeBySets :=
    .set _ _ (.set _ _ .top)
  have hright : ((top.set "x" (.ofBrick (.of ["a"] 2 2))).set "z" (.literal "c")).MadeBySets :=
    .set _ _ (.set _ _ .top)
  have hlifted := lifted_to_variables {} hleft hright
  refine ⟨hleft, hright, hlifted.2.1 "x", hlifted.2.2.2.1 ⟨"x", ?_⟩⟩
  decide

end Env

end StringBricks
