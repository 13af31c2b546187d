import StringBricks.Proofs.Env.Construction

/-!
# Environments as functions of the variable

An environment keeps no entry that says nothing: setting a variable to the top value removes its
entry, and setting it to a value for no string leaves no state and clears the entries. So in
whatever environment arises, the entries are exactly the variables of which something is known
(`Env.keptBySets_isReduced`), and the values of its variables determine it.
-/

set_option autoImplicit false

namespace StringBricks

namespace Env

variable {a b env : Env}

/-- The variables with an entry and their values. -/
def entries (env : Env) : List (String × BrickSeq) := env.values.entries

/-- Every entry is for some strings, and not for all. -/
def IsReduced (env : Env) : Prop :=
  ∀ p ∈ env.entries, p.2.isBottom = false ∧ p.2.isTop = false

/-! ## Entries that something is known of -/

/-- The unreachable environment has no entries. -/
theorem isReduced_unreachable : unreachable.IsReduced := nofun

/-- The top environment has no entries. -/
theorem isReduced_top : top.IsReduced := nofun

/-- Setting a variable leaves no entry for all strings or for none. -/
theorem IsReduced.set (h : env.IsReduced) (name : String) (x : BrickSeq) :
    (env.set name x).IsReduced := by
  cases hun : env.isUnreachable with
  | true =>
    rw [set_of_isUnreachable hun]
    exact h
  | false =>
    cases hx : x.isBottom with
    | true =>
      rw [set_of_isBottom hun name hx]
      exact isReduced_unreachable
    | false =>
      cases htop : x.isTop with
      | true =>
        rw [set_of_isTop hun name hx htop]
        intro p hp
        exact h p (List.mem_filter.1 hp).1
      | false =>
        rw [set_of_not_isTop hun name hx htop]
        intro p hp
        cases Bindings.eq_or_mem_of_mem_place hp with
        | inl hnew =>
          rw [hnew]
          exact ⟨hx, htop⟩
        | inr hold => exact h p hold

/-- Having no entry that says nothing is kept by setting variables. -/
theorem keptBySets_isReduced : KeptBySets IsReduced :=
  ⟨isReduced_top, isReduced_unreachable, fun name x h => h.set name x⟩

/-! ## What the values of the variables determine -/

/-- A variable has the value of its entry, which is not the top value, or it has no entry. -/
theorem IsReduced.get?_eq (h : env.IsReduced) (hun : env.isUnreachable = false) (name : String) :
    env.values.get? name = if (env.get name).isTop then none else some (env.get name) := by
  rw [get_of_reachable hun]
  cases hvalue : env.values.get? name with
  | none => exact (if_pos BrickSeq.isTop_top).symm
  | some x =>
    have hx := h _ (Bindings.get?_eq_some_iff.1 hvalue)
    rw [Option.getD_some, hx.2, if_neg Bool.false_ne_true]

/-- Two environments that are cleared where there is no state and have no entries that say nothing
are equal if their variables have the same values. Where there is no state the values are bottom,
and elsewhere they are not. -/
theorem IsReduced.ext (ha : a.IsReduced) (hb : b.IsReduced) (hca : a.IsCleared)
    (hcb : b.IsCleared) (ha' : a.IsConsistent) (hb' : b.IsConsistent)
    (h : ∀ name, a.get name = b.get name) : a = b := by
  have hstate : a.isUnreachable = false ↔ b.isUnreachable = false := by
    rw [← ha'.isProper_iff, ← hb'.isProper_iff]
    unfold IsProper
    simp only [h]
  cases hun : a.isUnreachable with
  | true =>
    have hun' : b.isUnreachable = true := by simpa [hun] using hstate
    rw [hca.eq_unreachable hun, hcb.eq_unreachable hun']
  | false =>
    have hun' : b.isUnreachable = false := hstate.1 hun
    have hvalues : a.values = b.values := Bindings.ext_get? fun name => by
      rw [ha.get?_eq hun, hb.get?_eq hun', h]
    cases a
    cases b
    cases hun
    cases hun'
    cases hvalues
    rfl

/-- Environments that arise are equal exactly if their variables have the same values. -/
theorem Arises.eq_iff (ha : a.Arises) (hb : b.Arises) :
    a = b ↔ ∀ name, a.get name = b.get name := by
  constructor
  · rintro rfl name
    rfl
  · exact (keptBySets_isReduced.of_arises ha).ext (keptBySets_isReduced.of_arises hb) ha.isCleared
      hb.isCleared ha.isConsistent hb.isConsistent

/-- Entries that are kept without a state are in no value: such an environment could not be told
from the unreachable one by its variables. -/
example : (⟨.insert .empty "x" (.literal "a"), true⟩ : Env) ≠ unreachable ∧
    ∀ name, (⟨.insert .empty "x" (.literal "a"), true⟩ : Env).get name = unreachable.get name :=
  ⟨by decide, fun _ => rfl⟩

/-- Only the top environment is top. -/
theorem isTop_iff : env.isTop = true ↔ env = top := by
  constructor
  · intro h
    obtain ⟨⟨entries, ascending⟩, isUnreachable⟩ := env
    cases isUnreachable with
    | true => cases h
    | false =>
      cases entries with
      | nil => rfl
      | cons p l => cases h
  · rintro rfl
    rfl

/-- **Environments are determined by the values of their variables**: whatever environment arises
has no entry if it is unreachable, and otherwise none for no string and none for all strings. So two
of them are equal exactly if every variable has the same value in both, and one is top exactly if
every variable has the top value. -/
theorem determined_by_values :
    (∀ env : Env, env.Arises →
      (env.isUnreachable = true → env.entries = []) ∧
      ∀ p ∈ env.entries, p.2.isBottom = false ∧ p.2.isTop = false) ∧
    (∀ a b : Env, a.Arises → b.Arises → (a = b ↔ ∀ name, a.get name = b.get name)) ∧
    ∀ env : Env, env.Arises → (env.isTop = true ↔ ∀ name, env.get name = .top) := by
  refine ⟨?_, ?_, ?_⟩
  · intro env henv
    refine ⟨?_, keptBySets_isReduced.of_arises henv⟩
    intro hun
    rw [entries, henv.isCleared hun]
    rfl
  · intro a b ha hb
    exact ha.eq_iff hb
  · intro env henv
    rw [isTop_iff, henv.eq_iff .top]
    simp only [get_top]

/-- One value, joined from two branches and set at once, and an entry that is cleared when another
variable is left with no string. -/
theorem determined_by_values_joined :
    ((top.set "x" (.literal "a")).join (top.assign "x" (.lit "b"))).Arises ∧
    ((top.set "x" (.ofBrick (.of ["b", "a"] 1 1))).havoc "y").Arises ∧
    ((top.set "x" (.literal "a")).set "y" .bottom).Arises ∧
    (((top.set "x" (.literal "a")).set "y" .bottom).isUnreachable = true ∧
      ((top.set "x" (.literal "a")).set "y" .bottom).entries = []) ∧
    (∀ p ∈ ((top.set "x" (.literal "a")).join (top.assign "x" (.lit "b"))).entries,
      p.2.isBottom = false ∧ p.2.isTop = false) ∧
    (∀ name, ((top.set "x" (.literal "a")).join (top.assign "x" (.lit "b"))).get name =
      ((top.set "x" (.ofBrick (.of ["b", "a"] 1 1))).havoc "y").get name) ∧
    ¬ ∀ name, ((top.set "x" (.ofBrick (.of ["b", "a"] 1 1))).havoc "y").get name = .top := by
  have hjoin : ((top.set "x" (.literal "a")).join (top.assign "x" (.lit "b"))).Arises :=
    .join (.set _ _ .top) (.assign _ _ .top)
  have hset : ((top.set "x" (.ofBrick (.of ["b", "a"] 1 1))).havoc "y").Arises :=
    .havoc _ (.set _ _ .top)
  have hcleared : ((top.set "x" (.literal "a")).set "y" .bottom).Arises := .set _ _ (.set _ _ .top)
  have hun : ((top.set "x" (.literal "a")).set "y" .bottom).isUnreachable = true := by decide
  have hsame : (top.set "x" (.literal "a")).join (top.assign "x" (.lit "b")) =
      (top.set "x" (.ofBrick (.of ["b", "a"] 1 1))).havoc "y" := by decide
  refine ⟨hjoin, hset, hcleared, ⟨hun, (determined_by_values.1 _ hcleared).1 hun⟩,
    (determined_by_values.1 _ hjoin).2, ?_, ?_⟩
  · exact (determined_by_values.2.1 _ _ hjoin hset).1 hsame
  · rw [← determined_by_values.2.2 _ hset]
    decide

end Env

end StringBricks
