import StringBricks.Proofs.BrickSeq.Language
import StringBricks.Proofs.BrickSeq.Widening
import StringBricks.Env.Language
import StringBricks.Env.Lattice

/-!
# Environments variable by variable

The operations on environments go through the names that have an entry, one by one. Here they are
given by what they do to each variable: an operation that is applied name by name gives every
variable the combined value, unless some variable is left with no string; then no state is left
(`Env.pointwise_cases`). The order is the order of each variable, a join keeps the stores of both
sides, and widening is again an operation of this kind.
-/

set_option autoImplicit false

namespace StringBricks

namespace Env

variable {a b env : Env}

/-! ## Setting the variables one by one -/

/-- A variable without an entry may hold any string. -/
theorem get_eq_top {k : String} (henv : env.isUnreachable = false) (hk : k ∉ env.names) :
    env.get k = .top := by
  have hnone : env.values.get? k = none := by
    unfold Bindings.get?
    rw [List.lookup_eq_none_iff]
    intro p hp
    rw [bne_iff_ne]
    intro hkp
    exact hk (List.mem_map.2 ⟨p, hp, hkp.symm⟩)
  rw [get_of_reachable henv, hnone]
  rfl

/-- The names that an operation goes through are those with an entry in either environment. -/
theorem mem_jointNames {k : String} : k ∈ jointNames a b ↔ k ∈ a.names ∨ k ∈ b.names :=
  StringSet.mem_union

/-- Whether there are no entries where there is no state. -/
def IsCleared (env : Env) : Prop := env.isUnreachable = true → env.values = .empty

/-- A cleared environment without a state is the unreachable one. -/
theorem IsCleared.eq_unreachable (h : env.IsCleared) (hun : env.isUnreachable = true) :
    env = unreachable := by
  have hvalues := h hun
  cases env
  cases hun
  cases hvalues
  rfl

/-- Nothing has to be cleared while there is a state. -/
theorem isCleared_of_reachable (h : env.isUnreachable = false) : env.IsCleared := by
  intro hun
  rw [h] at hun
  cases hun

/-- The unreachable environment has no entries. -/
theorem isCleared_unreachable : unreachable.IsCleared := fun _ => rfl

/-- Setting a variable clears the entries if it leaves no state. -/
theorem IsCleared.set (h : env.IsCleared) (name : String) (x : BrickSeq) :
    (env.set name x).IsCleared := by
  cases hun : env.isUnreachable with
  | true =>
    rw [set_of_isUnreachable hun]
    exact h
  | false =>
    cases hx : x.isBottom with
    | true =>
      rw [set_of_isBottom hun name hx]
      exact isCleared_unreachable
    | false =>
      apply isCleared_of_reachable
      rw [isUnreachable_set, hun, hx, Bool.or_false]

section Fold

variable {value : String → BrickSeq} {names : List String}

/-- Setting variables leaves a state if there was one and each value stands for something. -/
theorem isUnreachable_foldl_set (value : String → BrickSeq) (names : List String) (env : Env) :
    (names.foldl (fun r name => r.set name (value name)) env).isUnreachable =
      (env.isUnreachable || names.any fun name => (value name).isBottom) := by
  induction names generalizing env with
  | nil => exact (Bool.or_false _).symm
  | cons name names ih =>
    rw [List.foldl_cons, ih, isUnreachable_set, List.any_cons, Bool.or_assoc]

/-- Setting variables clears the entries if it leaves no state. -/
theorem IsCleared.foldl_set (h : env.IsCleared) (value : String → BrickSeq) (names : List String) :
    (names.foldl (fun r name => r.set name (value name)) env).IsCleared := by
  induction names generalizing env with
  | nil => exact h
  | cons name names ih => exact ih (h.set name _)

/-- Values that stand for something are what the variables have in the end. -/
theorem get_foldl_set (hvalue : ∀ name ∈ names, (value name).isBottom = false)
    (henv : env.isUnreachable = false) (k : String) :
    (names.foldl (fun r name => r.set name (value name)) env).get k =
      if k ∈ names then value k else env.get k := by
  induction names generalizing env with
  | nil => simp
  | cons name names ih =>
    have hname := hvalue name List.mem_cons_self
    have hset : (env.set name (value name)).isUnreachable = false := by
      rw [isUnreachable_set, henv, hname, Bool.or_false]
    rw [List.foldl_cons, ih (fun k hk => hvalue k (List.mem_cons_of_mem name hk)) hset]
    by_cases hk : k ∈ names
    · rw [if_pos hk, if_pos (List.mem_cons_of_mem name hk)]
    · rw [if_neg hk, get_set henv hname]
      by_cases heq : k = name
      · rw [if_pos heq, heq, if_pos List.mem_cons_self]
      · rw [if_neg heq, if_neg (by simp [heq, hk])]

end Fold

/-! ## Operations variable by variable -/

/-- Every variable may hold some string. -/
def IsProper (env : Env) : Prop := ∀ k, (env.get k).isBottom = false

/-- Where every variable may hold some string there is a state. -/
theorem IsProper.reachable (h : env.IsProper) : env.isUnreachable = false := by
  rw [← Bool.not_eq_true]
  intro hun
  have hbot := h ""
  rw [get_of_isUnreachable hun] at hbot
  cases hbot

/-- There is no state, or every variable may hold some string. -/
def IsConsistent (env : Env) : Prop := env.isUnreachable = false → env.IsProper

/-- In a consistent environment there is a state exactly if every variable may hold some string. -/
theorem IsConsistent.isProper_iff (h : env.IsConsistent) :
    env.IsProper ↔ env.isUnreachable = false :=
  ⟨IsProper.reachable, h⟩

/-- The environment combines the values of each variable in `a` and `b`. -/
structure Combines (op : BrickSeq → BrickSeq → BrickSeq) (a b r : Env) : Prop where
  get_eq : ∀ k, r.get k = op (a.get k) (b.get k)
  isProper : r.IsProper

/-- What is combined name by name starts from the top environment, so it is cleared. -/
theorem isCleared_pointwise (op : BrickSeq → BrickSeq → BrickSeq) (a b : Env) :
    (pointwise op a b).IsCleared :=
  (isCleared_of_reachable isUnreachable_top).foldl_set _ _

/-- Applied name by name, an operation combines the values of each variable, unless some variable is
left with no string. -/
theorem pointwise_cases {op : BrickSeq → BrickSeq → BrickSeq} (hop : op .top .top = .top)
    (ha : a.isUnreachable = false) (hb : b.isUnreachable = false) :
    (pointwise op a b = unreachable ∧ ∃ k, (op (a.get k) (b.get k)).isBottom = true) ∨
      Combines op a b (pointwise op a b) := by
  by_cases hbot : ∃ name ∈ jointNames a b, (op (a.get name) (b.get name)).isBottom = true
  · obtain ⟨name, hname, hbot⟩ := hbot
    have hun : (pointwise op a b).isUnreachable = true := by
      unfold pointwise
      rw [isUnreachable_foldl_set, isUnreachable_top, Bool.false_or, List.any_eq_true]
      exact ⟨name, hname, hbot⟩
    exact .inl ⟨(isCleared_pointwise op a b).eq_unreachable hun, name, hbot⟩
  · have hvalue : ∀ name ∈ jointNames a b, (op (a.get name) (b.get name)).isBottom = false := by
      intro name hname
      rw [Bool.eq_false_iff]
      intro h
      exact hbot ⟨name, hname, h⟩
    have hget : ∀ k, (pointwise op a b).get k = op (a.get k) (b.get k) := by
      intro k
      unfold pointwise
      rw [get_foldl_set hvalue isUnreachable_top]
      by_cases hk : k ∈ jointNames a b
      · rw [if_pos hk]
      · rw [if_neg hk, get_top]
        rw [mem_jointNames, not_or] at hk
        rw [get_eq_top ha hk.1, get_eq_top hb hk.2, hop]
    refine .inr ⟨hget, ?_⟩
    intro k
    rw [hget k]
    by_cases hk : k ∈ jointNames a b
    · exact hvalue k hk
    · rw [mem_jointNames, not_or] at hk
      rw [get_eq_top ha hk.1, get_eq_top hb hk.2, hop]
      exact BrickSeq.not_isBottom_top

/-! ## The order -/

/-- Without a state an environment is below every other one. -/
theorem le_of_isUnreachable (h : a.isUnreachable = true) (b : Env) : a.le b = true := by
  rw [le, h]
  rfl

/-- The unreachable environment is below every other one. -/
@[simp] theorem unreachable_le (b : Env) : unreachable.le b = true := le_of_isUnreachable rfl b

/-- An environment is below another if each variable is. -/
theorem le_iff (ha : a.isUnreachable = false) :
    a.le b = true ↔ b.isUnreachable = false ∧ ∀ k, (a.get k).le (b.get k) = true := by
  have hle : a.le b = true ↔
      b.isUnreachable = false ∧ ∀ k ∈ jointNames a b, (a.get k).le (b.get k) = true := by
    simp [le, ha]
  rw [hle, and_congr_right_iff]
  intro hb
  constructor
  · intro h k
    by_cases hk : k ∈ jointNames a b
    · exact h k hk
    · rw [mem_jointNames, not_or] at hk
      rw [get_eq_top hb hk.2]
      exact BrickSeq.le_top _
  · intro h k _
    exact h k

/-- Every environment is below itself. -/
theorem le_refl (a : Env) : a.le a = true := by
  cases ha : a.isUnreachable with
  | true => exact le_of_isUnreachable ha a
  | false =>
    rw [le_iff ha]
    refine ⟨ha, ?_⟩
    intro k
    exact BrickSeq.le_refl _

/-- Above a state there is a state. -/
theorem reachable_of_le (h : a.le b = true) (ha : a.isUnreachable = false) :
    b.isUnreachable = false :=
  ((le_iff ha).1 h).1

/-- What is above an upper bound is above the environment itself. -/
theorem le_trans {c : Env} (hab : a.le b = true) (hbc : b.le c = true) : a.le c = true := by
  cases ha : a.isUnreachable with
  | true => exact le_of_isUnreachable ha c
  | false =>
    have hb := (le_iff ha).1 hab
    have hc := (le_iff hb.1).1 hbc
    rw [le_iff ha]
    refine ⟨hc.1, ?_⟩
    intro k
    apply BrickSeq.le_trans (hb.2 k)
    exact hc.2 k

/-- What is above an environment stands for all its stores. -/
theorem denotes_of_le {σ : Store} (h : a.le b = true) (hσ : a.Denotes σ) : b.Denotes σ := by
  have hle := (le_iff hσ.1).1 h
  refine ⟨hle.1, ?_⟩
  intro k
  apply BrickSeq.denotes_of_le (hle.2 k)
  exact hσ.2 k

/-- Combined by an operation that is above its first operand, the values are above `a`. -/
theorem Combines.le_left {op : BrickSeq → BrickSeq → BrickSeq} {r : Env} (h : Combines op a b r)
    (hop : ∀ x y : BrickSeq, x.le (op x y) = true) : a.le r = true := by
  cases ha : a.isUnreachable with
  | true => exact le_of_isUnreachable ha r
  | false =>
    refine (le_iff ha).2 ⟨h.isProper.reachable, ?_⟩
    intro k
    rw [h.get_eq k]
    exact hop _ _

/-- Combined by an operation that is above its second operand, the values are above `b`. -/
theorem Combines.le_right {op : BrickSeq → BrickSeq → BrickSeq} {r : Env} (h : Combines op a b r)
    (hop : ∀ x y : BrickSeq, y.le (op x y) = true) : b.le r = true := by
  cases hb : b.isUnreachable with
  | true => exact le_of_isUnreachable hb r
  | false =>
    refine (le_iff hb).2 ⟨h.isProper.reachable, ?_⟩
    intro k
    rw [h.get_eq k]
    exact hop _ _

/-! ## Join, set and widening -/

/-- Joined to no state, an environment is what it was. -/
theorem join_of_isUnreachable_left (ha : a.isUnreachable = true) (b : Env) : a.join b = b :=
  if_pos ha

/-- Joined with no state, a state is what it was. -/
theorem join_of_isUnreachable_right (ha : a.isUnreachable = false) (hb : b.isUnreachable = true) :
    a.join b = a := by
  simp [join, ha, hb]

/-- Two states are joined name by name. -/
theorem join_eq_pointwise (ha : a.isUnreachable = false) (hb : b.isUnreachable = false) :
    a.join b = pointwise .join a b := by
  simp [join, ha, hb]

/-- How a join comes about. -/
theorem join_cases (ha : a.isUnreachable = false) (b : Env) :
    (b.isUnreachable = true ∧ a.join b = a) ∨
      (a.join b = unreachable ∧ ∃ k, (a.get k).isBottom = true ∧ (b.get k).isBottom = true) ∨
      Combines .join a b (a.join b) := by
  cases hb : b.isUnreachable with
  | true => exact .inl ⟨rfl, join_of_isUnreachable_right ha hb⟩
  | false =>
    refine .inr ?_
    rw [join_eq_pointwise ha hb]
    cases pointwise_cases (BrickSeq.join_top_left .top) ha hb with
    | inl h =>
      obtain ⟨hun, k, hk⟩ := h
      exact .inl ⟨hun, k, BrickSeq.isBottom_of_le (BrickSeq.le_join_left _ _) hk,
        BrickSeq.isBottom_of_le (BrickSeq.le_join_right _ _) hk⟩
    | inr h => exact .inr h

/-- The variables of a store that an environment stands for may all hold some string. -/
theorem isProper_of_denotes {σ : Store} (h : a.Denotes σ) : a.IsProper := by
  intro k
  exact BrickSeq.not_isBottom_of_denotes (h.2 k)

/-- A join with a consistent environment is above both. -/
theorem IsConsistent.le_join (ha : a.IsConsistent) (b : Env) :
    a.le (a.join b) = true ∧ b.le (a.join b) = true := by
  cases hun : a.isUnreachable with
  | true =>
    rw [join_of_isUnreachable_left hun]
    exact ⟨le_of_isUnreachable hun b, le_refl b⟩
  | false =>
    obtain ⟨hb, hjoin⟩ | ⟨-, k, hk, -⟩ | hjoin := join_cases hun b
    · rw [hjoin]
      exact ⟨le_refl a, le_of_isUnreachable hb a⟩
    · rw [ha hun k] at hk
      cases hk
    · exact ⟨hjoin.le_left BrickSeq.le_join_left, hjoin.le_right BrickSeq.le_join_right⟩

/-- The names that an operation goes through do not depend on the order of the operands. -/
theorem jointNames_comm (a b : Env) : jointNames a b = jointNames b a :=
  congrArg StringSet.toList (StringSet.union_comm a.names b.names)

/-- Two joins that both stand for no string leave no state, and any others are the same. -/
theorem set_join_comm (env : Env) (name : String) (x y : BrickSeq) :
    env.set name (x.join y) = env.set name (y.join x) := by
  by_cases h : x.isBottom = false ∨ y.isBottom = false
  · rw [BrickSeq.join_comm h]
  · rw [not_or, Bool.not_eq_false, Bool.not_eq_false] at h
    rw [BrickSeq.join_of_isBottom_left h.1, BrickSeq.join_of_isBottom_left h.2]
    cases henv : env.isUnreachable with
    | true => rw [set_of_isUnreachable henv, set_of_isUnreachable henv]
    | false => rw [set_of_isBottom henv name h.1, set_of_isBottom henv name h.2]

/-- The join of two environments does not depend on their order, if there is a state in one of
them. -/
theorem join_comm (h : a.isUnreachable = false ∨ b.isUnreachable = false) :
    a.join b = b.join a := by
  have hpointwise : pointwise .join a b = pointwise .join b a := by
    unfold pointwise
    rw [jointNames_comm]
    congr 1
    funext r name
    exact set_join_comm r name _ _
  cases ha : a.isUnreachable with
  | true =>
    have hb := h.resolve_left (by simp [ha])
    rw [join_of_isUnreachable_left ha, join_of_isUnreachable_right hb ha]
  | false =>
    cases hb : b.isUnreachable with
    | true => rw [join_of_isUnreachable_right ha hb, join_of_isUnreachable_left hb]
    | false => rw [join_eq_pointwise ha hb, join_eq_pointwise hb ha, hpointwise]

/-- The joins of two environments from either side are below each other. -/
theorem join_le_join_comm (a b : Env) : (a.join b).le (b.join a) = true := by
  by_cases h : a.isUnreachable = false ∨ b.isUnreachable = false
  · rw [join_comm h]
    exact le_refl _
  · rw [not_or, Bool.not_eq_false, Bool.not_eq_false] at h
    rw [join_of_isUnreachable_left h.1]
    exact le_of_isUnreachable h.2 _

/-- A join keeps the stores of its first operand. -/
theorem denotes_join_left {σ : Store} (h : a.Denotes σ) (b : Env) : (a.join b).Denotes σ := by
  have ha : a.IsConsistent := fun _ => isProper_of_denotes h
  exact denotes_of_le (ha.le_join b).1 h

/-- A join keeps the stores of its second operand. -/
theorem denotes_join_right {σ : Store} (a : Env) (h : b.Denotes σ) : (a.join b).Denotes σ := by
  rw [join_comm (.inr h.1)]
  exact denotes_join_left h a

/-- Setting a variable is setting it in every store. -/
theorem denotes_set {σ : Store} {name w : String} {x : BrickSeq} (h : env.Denotes σ)
    (hw : x.Denotes w) : (env.set name x).Denotes (σ.set name w) := by
  have hx := BrickSeq.not_isBottom_of_denotes hw
  refine ⟨?_, ?_⟩
  · rw [isUnreachable_set, h.1, hx, Bool.or_false]
  · intro k
    rw [get_set h.1 hx]
    unfold Store.set
    by_cases hk : k = name
    · rw [if_pos hk, if_pos hk]
      exact hw
    · rw [if_neg hk, if_neg hk]
      exact h.2 k

/-- Without a state on its left, a widening is what stands on its right. -/
theorem widen_of_isUnreachable_left (t : Thresholds) (ha : a.isUnreachable = true) (b : Env) :
    a.widen t b = .ok b :=
  if_pos ha

/-- Without a state on its right, a widening of a state is that state. -/
theorem widen_of_isUnreachable_right (t : Thresholds) (ha : a.isUnreachable = false)
    (hb : b.isUnreachable = true) : a.widen t b = .ok a := by
  simp [widen, ha, hb]

/-- Widening is done variable by variable and never fails. -/
theorem widen_eq_pointwise (t : Thresholds) (ha : a.isUnreachable = false)
    (hb : b.isUnreachable = false) : a.widen t b = .ok (pointwise (BrickSeq.widened t) a b) := by
  have hfold : ∀ (names : List String) (r : Env),
      names.foldlM (fun (r : Env) name => do
          return r.set name (← (a.get name).widen t (b.get name))) r =
        (.ok (names.foldl (fun r name =>
          r.set name (BrickSeq.widened t (a.get name) (b.get name))) r) : Except Fault Env) := by
    intro names
    induction names with
    | nil => exact fun r => rfl
    | cons name names ih =>
      intro r
      rw [List.foldlM_cons, BrickSeq.widen_eq_ok]
      exact ih _
  rw [widen, ha, hb]
  exact hfold _ top

/-- Widening two environments never fails. -/
theorem exists_widen_eq_ok (t : Thresholds) (a b : Env) : ∃ r, a.widen t b = .ok r := by
  cases ha : a.isUnreachable with
  | true => exact ⟨b, widen_of_isUnreachable_left t ha b⟩
  | false =>
    cases hb : b.isUnreachable with
    | true => exact ⟨a, widen_of_isUnreachable_right t ha hb⟩
    | false => exact ⟨_, widen_eq_pointwise t ha hb⟩

/-- Widening by an environment whose variables may all hold something widens each variable. -/
theorem combines_of_widen {t : Thresholds} {r : Env} (h : a.widen t b = .ok r)
    (ha : a.isUnreachable = false) (hb : b.IsProper) : Combines (BrickSeq.widened t) a b r := by
  rw [widen_eq_pointwise t ha hb.reachable] at h
  cases h
  cases pointwise_cases (BrickSeq.widened_top_left t .top) ha hb.reachable with
  | inl hbot =>
    obtain ⟨-, k, hk⟩ := hbot
    rw [BrickSeq.not_isBottom_of_le (BrickSeq.le_widened_right t _ _) (hb k)] at hk
    cases hk
  | inr hcombines => exact hcombines

/-- Widening by a consistent environment goes above both. -/
theorem IsConsistent.le_widen {t : Thresholds} {r : Env} (hb : b.IsConsistent)
    (h : a.widen t b = .ok r) : a.le r = true ∧ b.le r = true := by
  cases ha : a.isUnreachable with
  | true =>
    cases (widen_of_isUnreachable_left t ha b).symm.trans h
    exact ⟨le_of_isUnreachable ha b, le_refl b⟩
  | false =>
    cases hun : b.isUnreachable with
    | true =>
      cases (widen_of_isUnreachable_right t ha hun).symm.trans h
      exact ⟨le_refl a, le_of_isUnreachable hun a⟩
    | false =>
      have hcombines := combines_of_widen h ha (hb hun)
      exact ⟨hcombines.le_left (BrickSeq.le_widened_left t),
        hcombines.le_right (BrickSeq.le_widened_right t)⟩

end Env

end StringBricks
