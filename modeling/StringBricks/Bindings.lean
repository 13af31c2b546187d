import StringBricks.StringSet

/-!
# Bindings

A finite map from names to values, kept as the list of its entries in ascending order of the names.
Each map has one such list, so equality of values is equality of maps.
-/

set_option autoImplicit false

namespace StringBricks

/-- A finite map from names to values of type `α`. -/
structure Bindings (α : Type) where
  entries : List (String × α)
  ascending : entries.Pairwise fun p q => p.1 < q.1
deriving DecidableEq

namespace Bindings

variable {α : Type}

/-- No bindings. -/
def empty : Bindings α := ⟨[], .nil⟩

instance : EmptyCollection (Bindings α) := ⟨empty⟩

/-- The value bound to a name. -/
def get? (b : Bindings α) (name : String) : Option α := b.entries.lookup name

/-- The names that are bound. -/
def names (b : Bindings α) : StringSet :=
  ⟨b.entries.map Prod.fst, List.pairwise_map.2 b.ascending⟩

/-- Puts an entry at its place in an ascending list, instead of one with the same name. -/
def place (name : String) (value : α) : List (String × α) → List (String × α)
  | [] => [(name, value)]
  | p :: l =>
    if name < p.1 then (name, value) :: p :: l
    else if name = p.1 then (name, value) :: l
    else p :: place name value l

/-- What is in a list after a binding is placed in it is that binding or was there before. -/
theorem eq_or_mem_of_mem_place {name : String} {value : α} {p : String × α}
    {l : List (String × α)} (h : p ∈ place name value l) : p = (name, value) ∨ p ∈ l := by
  induction l with
  | nil => exact .inl (List.mem_singleton.1 h)
  | cons q l ih =>
    simp only [place] at h
    split at h
    · rcases List.mem_cons.1 h with rfl | h
      · exact .inl rfl
      · exact .inr h
    · split at h
      · rcases List.mem_cons.1 h with rfl | h
        · exact .inl rfl
        · exact .inr (List.mem_cons_of_mem _ h)
      · rcases List.mem_cons.1 h with rfl | h
        · exact .inr List.mem_cons_self
        · exact (ih h).imp_right (List.mem_cons_of_mem _)

/-- Placing a binding keeps the names ascending. -/
theorem ascending_place {name : String} {value : α} {l : List (String × α)}
    (h : l.Pairwise fun p q => p.1 < q.1) :
    (place name value l).Pairwise fun p q => p.1 < q.1 := by
  induction l with
  | nil => exact List.pairwise_singleton _ _
  | cons q l ih =>
    obtain ⟨hq, hl⟩ := List.pairwise_cons.1 h
    simp only [place]
    split
    · next hlt =>
      refine List.pairwise_cons.2 ⟨fun p hp => ?_, h⟩
      rcases List.mem_cons.1 hp with rfl | hp
      · exact hlt
      · exact String.lt_trans hlt (hq p hp)
    · next hlt =>
      split
      · next heq => exact List.pairwise_cons.2 ⟨fun p hp => heq ▸ hq p hp, hl⟩
      · next hne =>
        refine List.pairwise_cons.2 ⟨fun p hp => ?_, ih hl⟩
        rcases eq_or_mem_of_mem_place hp with rfl | hp
        · exact Std.lt_of_le_of_ne (String.not_lt.1 hlt) (Ne.symm hne)
        · exact hq p hp

/-- Binds a name to a value, instead of the value it may have had. -/
def insert (b : Bindings α) (name : String) (value : α) : Bindings α :=
  ⟨place name value b.entries, ascending_place b.ascending⟩

/-- Removes the binding of a name, if there is one. -/
def erase (b : Bindings α) (name : String) : Bindings α :=
  ⟨b.entries.filter fun p => p.1 != name, b.ascending.filter _⟩

/-- The first binding is looked at before the others. -/
theorem lookup_cons_eq_ite (k : String) (p : String × α) (l : List (String × α)) :
    (p :: l).lookup k = if k = p.1 then some p.2 else l.lookup k := by
  rw [List.lookup_cons]
  by_cases h : k = p.1
  · rw [if_pos h, beq_iff_eq.2 h]
  · rw [if_neg h, beq_eq_false_iff_ne.2 h]

/-- Placing a binding changes the value of its name only. -/
theorem lookup_place (name k : String) (value : α) (l : List (String × α)) :
    (place name value l).lookup k = if k = name then some value else l.lookup k := by
  induction l with
  | nil => rw [place, lookup_cons_eq_ite]
  | cons p l ih =>
    rw [place]
    split
    · rw [lookup_cons_eq_ite]
    · split
      · next heq =>
        rw [lookup_cons_eq_ite, lookup_cons_eq_ite, ← heq]
        by_cases h : k = name <;> simp [h]
      · next hne =>
        rw [lookup_cons_eq_ite, lookup_cons_eq_ite, ih]
        by_cases h : k = p.1
        · simp [h, Ne.symm hne]
        · simp [h]

/-- Binding a name changes its value only. -/
@[simp] theorem get?_insert (b : Bindings α) (name k : String) (value : α) :
    (b.insert name value).get? k = if k = name then some value else b.get? k :=
  lookup_place name k value b.entries

/-- Leaving out a name changes its value only. -/
theorem lookup_filter_ne (name k : String) (l : List (String × α)) :
    (l.filter fun p => p.1 != name).lookup k = if k = name then none else l.lookup k := by
  induction l with
  | nil => simp
  | cons p l ih =>
    by_cases hp : p.1 = name
    · rw [List.filter_cons_of_neg (by simp [hp]), ih, lookup_cons_eq_ite, hp]
      by_cases h : k = name <;> simp [h]
    · rw [List.filter_cons_of_pos (by simp [hp]), lookup_cons_eq_ite, lookup_cons_eq_ite, ih]
      by_cases h : k = p.1
      · simp [h, hp]
      · simp [h]

/-- Erasing a name changes its value only. -/
@[simp] theorem get?_erase (b : Bindings α) (name k : String) :
    (b.erase name).get? k = if k = name then none else b.get? k :=
  lookup_filter_ne name k b.entries

/-- Without bindings no name has a value. -/
@[simp] theorem get?_empty (k : String) : (empty : Bindings α).get? k = none := rfl

end Bindings

end StringBricks
