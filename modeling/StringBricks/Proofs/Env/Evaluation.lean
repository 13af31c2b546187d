import StringBricks.Proofs.BrickSeq.Containment
import StringBricks.Proofs.Env.Lattice
import StringBricks.Env.Evaluation

/-!
# Expressions and conditions are evaluated soundly

In a store of an environment, an expression without substrings yields only strings of its abstract
value, and a condition gives only answers that its verdict admits. If the condition held, the store
is still one of the environment that assumes it.
-/

set_option autoImplicit false

namespace StringBricks

namespace Verdict

variable {v v₁ v₂ : Verdict} {b b₁ b₂ : Bool}

/-- The verdict for a known answer admits it. -/
theorem admits_ofBool (b : Bool) : (ofBool b).Admits b := by
  cases b <;> rfl

/-- What a verdict admits, its negation admits the other way round. -/
theorem admits_negate (h : v.Admits b) : v.negate.Admits (!b) := by
  cases v with
  | unknown => trivial
  | holds => exact congrArg (!·) h
  | fails => exact congrArg (!·) h

/-- Both answers together are admitted, also where only one of them is known. -/
theorem admits_and (h₁ : v₁.Admits b₁) (h₂ : v₂.Admits b₂) : (v₁.and v₂).Admits (b₁ && b₂) := by
  cases v₁ <;> cases v₂ <;> simp_all [Admits, Verdict.and]

/-- A disjunction admits the disjunction of what the verdicts admit. -/
theorem admits_or (h₁ : v₁.Admits b₁) (h₂ : v₂.Admits b₂) : (v₁.or v₂).Admits (b₁ || b₂) := by
  cases v₁ <;> cases v₂ <;> simp_all [Admits, Verdict.or]

end Verdict

/-- Setting a variable to what it has changes nothing. -/
theorem Store.set_self (σ : Store) (name : String) : σ.set name (σ name) = σ := by
  funext k
  unfold Store.set
  split
  · next h => rw [h]
  · rfl

/-- The strings of a run are no longer than its limit. -/
theorem Expr.Yields.length_le {limit : Nat} {σ : Store} {e : Expr} {w : String}
    (h : e.Yields limit σ w) (he : e.isSliceFree = true) : w.length ≤ limit := by
  cases h with
  | var hlen | lit hlen | null hlen | replace hlen | input hlen => exact hlen
  | concat _ _ hlen => exact hlen
  | substring _ _ _ => cases he

namespace Env

variable {env : Env} {σ : Store} {e : Expr} {c : Cond} {w : String} {b : Bool}

/-- What an expression yields is one of the strings of its abstract value. -/
theorem denotes_eval (hσ : env.Denotes σ) (he : e.isSliceFree = true)
    (hw : e.Yields Count.cap σ w) : (env.eval e).Denotes w := by
  have hstate : ¬ env.isUnreachable = true := Bool.eq_false_iff.1 hσ.1
  induction hw with
  | @var name _ =>
    rw [eval, if_neg hstate]
    exact hσ.2 name
  | lit _ =>
    rw [eval, if_neg hstate]
    exact BrickSeq.denotes_literal.2 rfl
  | null _ | replace _ | input _ =>
    rw [eval, if_neg hstate]
    exact BrickSeq.denotes_top _
  | concat _ _ hlen ih₁ ih₂ =>
    rw [Expr.isSliceFree, Bool.and_eq_true] at he
    rw [eval, if_neg hstate]
    apply BrickSeq.denotes_concat (ih₁ he.1) (ih₂ he.2)
    exact .inr hlen
  | substring _ _ _ _ => cases he

/-- What a condition answers is admitted by its verdict. -/
theorem admits_verdict (hσ : env.Denotes σ) (hc : c.isSliceFree = true)
    (hb : c.Answers Count.cap σ b) : (env.verdict c).Admits b := by
  have hstate : ¬ env.isUnreachable = true := Bool.eq_false_iff.1 hσ.1
  induction hb with
  | always | never =>
    rw [verdict, if_neg hstate]
    rfl
  | contains hw hs hb =>
    rw [Cond.isSliceFree, Bool.and_eq_true] at hc
    rw [verdict, if_neg hstate]
    apply BrickSeq.admits_contains _ _ (hw.length_le hc.1) hb
    · exact denotes_eval hσ hc.1 hw
    · exact denotes_eval hσ hc.2 hs
  | @eq e₁ e₂ s₁ s₂ h₁ h₂ =>
    rw [Cond.isSliceFree, Bool.and_eq_true] at hc
    rw [verdict, if_neg hstate]
    split
    · next t₁ t₂ ht₁ ht₂ =>
      rw [BrickSeq.eq_of_asLiteral? ht₁ (denotes_eval hσ hc.1 h₁),
        BrickSeq.eq_of_asLiteral? ht₂ (denotes_eval hσ hc.2 h₂)]
      exact Verdict.admits_ofBool _
    · trivial
  | not _ ih =>
    rw [verdict, if_neg hstate]
    exact Verdict.admits_negate (ih hc)
  | and _ _ ih₁ ih₂ =>
    rw [Cond.isSliceFree, Bool.and_eq_true] at hc
    rw [verdict, if_neg hstate]
    exact Verdict.admits_and (ih₁ hc.1) (ih₂ hc.2)
  | or _ _ ih₁ ih₂ =>
    rw [Cond.isSliceFree, Bool.and_eq_true] at hc
    rw [verdict, if_neg hstate]
    exact Verdict.admits_or (ih₁ hc.1) (ih₂ hc.2)

/-- A variable may be given what an expression yields. -/
theorem denotes_assign (hσ : env.Denotes σ) (he : e.isSliceFree = true)
    (hw : e.Yields Count.cap σ w) (name : String) : (env.assign name e).Denotes (σ.set name w) :=
  denotes_set hσ (denotes_eval hσ he hw)

/-- A variable that equals what an expression yields may be given the value of the expression. -/
theorem denotes_assign_of_eq {name : String} (hσ : env.Denotes σ) (he : e.isSliceFree = true)
    (hw : e.Yields Count.cap σ (σ name)) : (env.assign name e).Denotes σ := by
  have hset := denotes_assign hσ he hw name
  rw [Store.set_self] at hset
  exact hset

/-- A condition that held does not fail. -/
theorem verdict_ne_fails (hσ : env.Denotes σ) (hc : c.isSliceFree = true)
    (hb : c.Answers Count.cap σ true) : env.verdict c ≠ .fails := by
  intro h
  have hverdict := admits_verdict hσ hc hb
  rw [h] at hverdict
  cases hverdict

/-- If a condition held, the store is still one of those of the environment. -/
theorem denotes_assume (hσ : env.Denotes σ) (hc : c.isSliceFree = true)
    (hb : c.Answers Count.cap σ true) : (env.assume c).Denotes σ := by
  induction c generalizing env with
  | eq e₁ e₂ =>
    have hfails := verdict_ne_fails hσ hc hb
    rw [Cond.isSliceFree, Bool.and_eq_true] at hc
    generalize hanswer : true = answer at hb
    cases hb with
    | @eq _ _ s₁ s₂ h₁ h₂ =>
      have hs : s₁ = s₂ := of_decide_eq_true hanswer.symm
      unfold assume
      rw [if_neg (Bool.eq_false_iff.1 hσ.1), if_neg hfails]
      split
      · next heq =>
        cases heq
        cases h₁
        exact denotes_assign_of_eq hσ hc.2 (hs ▸ h₂)
      · next heq =>
        cases heq
        cases h₂
        exact denotes_assign_of_eq hσ hc.1 (hs ▸ h₁)
      · next heq => cases heq
      · exact hσ
  | and c₁ c₂ ih₁ ih₂ =>
    have hfails := verdict_ne_fails hσ hc hb
    rw [Cond.isSliceFree, Bool.and_eq_true] at hc
    generalize hanswer : true = answer at hb
    cases hb with
    | and h₁ h₂ =>
      have hboth := Bool.and_eq_true_iff.1 hanswer.symm
      rw [hboth.1] at h₁
      rw [hboth.2] at h₂
      unfold assume
      rw [if_neg (Bool.eq_false_iff.1 hσ.1), if_neg hfails]
      apply ih₂ _ hc.2 h₂
      exact ih₁ hσ hc.1 h₁
  | always | never | contains _ _ | not _ | or _ _ =>
    have hfails := verdict_ne_fails hσ hc hb
    unfold assume
    rw [if_neg (Bool.eq_false_iff.1 hσ.1), if_neg hfails]
    exact hσ

end Env

end StringBricks
