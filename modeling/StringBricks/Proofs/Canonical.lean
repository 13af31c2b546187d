import StringBricks.Bindings
import Mathlib.Data.List.Sort
import Mathlib.Data.String.Basic

/-!
# One list for each set and each map

A set is kept as its ascending list of members and a map as its list of entries in ascending order
of the names. Ascending lists with the same members are the same, so sets are determined by their
members (`StringSet.ext`) and maps by the values of the names (`Bindings.ext_get?`).
-/

set_option autoImplicit false

namespace StringBricks

/-- Sets with the same members are equal. -/
@[ext] theorem StringSet.ext {a b : StringSet} (h : ∀ s, s ∈ a ↔ s ∈ b) : a = b := by
  have hlist := a.ascending.eq_of_mem_iff b.ascending h
  cases a
  cases b
  cases hlist
  rfl

namespace Bindings

variable {α : Type} {a b : Bindings α} {name : String} {value : α}

/-- The value of a name is that of its entry, of which there is one at most. -/
theorem get?_eq_some_iff : b.get? name = some value ↔ (name, value) ∈ b.entries := by
  unfold get?
  rw [List.lookup_eq_some_iff]
  constructor
  · rintro ⟨before, after, hentries, -⟩
    rw [hentries]
    exact List.mem_append_right before List.mem_cons_self
  · intro hmem
    obtain ⟨before, after, hentries⟩ := List.append_of_mem hmem
    refine ⟨before, after, hentries, ?_⟩
    have hascending := b.ascending
    rw [hentries, List.pairwise_append] at hascending
    intro p hp
    rw [bne_iff_ne]
    exact (hascending.2.2 p hp _ List.mem_cons_self).ne'

/-- Maps that give each name the same value are equal. -/
theorem ext_get? (h : ∀ name, a.get? name = b.get? name) : a = b := by
  have hmem : ∀ p, p ∈ a.entries ↔ p ∈ b.entries := by
    rintro ⟨name, value⟩
    rw [← get?_eq_some_iff, ← get?_eq_some_iff, h]
  have hlist := a.ascending.eq_of_mem_iff b.ascending hmem
  cases a
  cases b
  cases hlist
  rfl

end Bindings

end StringBricks
