/-!
# Finite sets of strings

A set is kept as its strictly ascending list of members, in the order of code points. Each set has
one such list, so equality of values is equality of sets.
-/

set_option autoImplicit false

namespace StringBricks

/-- A finite set of strings, held as a strictly ascending list. -/
structure StringSet where
  toList : List String
  ascending : toList.Pairwise (· < ·)
deriving DecidableEq

namespace StringSet

instance : Membership String StringSet := ⟨fun a s => s ∈ a.toList⟩

instance (s : String) (a : StringSet) : Decidable (s ∈ a) :=
  inferInstanceAs (Decidable (s ∈ a.toList))

/-- Puts `s` at its place in an ascending list. What comes after it is merged by `rest`, and a
member equal to it is left out. -/
def mergeHead (s : String) (rest : List String → List String) : List String → List String
  | [] => s :: rest []
  | t :: m =>
    if s < t then s :: rest (t :: m)
    else if s = t then s :: rest m
    else t :: mergeHead s rest m

/-- The members of two ascending lists as one ascending list. -/
def merge : List String → List String → List String
  | [], m => m
  | s :: l, m => mergeHead s (merge l) m

/-- A merge with one more string in front has that string and the members of both lists. -/
theorem mem_mergeHead {s u : String} {rest : List String → List String} {l m : List String}
    (hrest : ∀ m, u ∈ rest m ↔ u ∈ l ∨ u ∈ m) :
    u ∈ mergeHead s rest m ↔ u ∈ s :: l ∨ u ∈ m := by
  induction m with
  | nil => simp [mergeHead, hrest]
  | cons t m ih =>
    rw [mergeHead]
    split
    · simp [hrest, or_assoc]
    · split
      · next heq =>
        rw [List.mem_cons, hrest, List.mem_cons, List.mem_cons, heq]
        constructor
        · rintro (h | h | h) <;> simp [h]
        · rintro ((h | h) | h | h) <;> simp [h]
      · rw [List.mem_cons, ih, List.mem_cons (l := m)]
        constructor
        · rintro (h | h | h) <;> simp [h]
        · rintro (h | h | h) <;> simp [h]

/-- A merge has the members of both lists. -/
theorem mem_merge {u : String} {l m : List String} : u ∈ merge l m ↔ u ∈ l ∨ u ∈ m := by
  induction l generalizing m with
  | nil => simp [merge]
  | cons s l ih => exact mem_mergeHead fun m => ih

/-- A string below all others may be put in front of a merge that ascends. -/
theorem ascending_mergeHead {s : String} {l m : List String} (hs : ∀ u ∈ l, s < u)
    (hl : ∀ {m : List String}, m.Pairwise (· < ·) → (merge l m).Pairwise (· < ·))
    (hm : m.Pairwise (· < ·)) : (mergeHead s (merge l) m).Pairwise (· < ·) := by
  induction m with
  | nil =>
    refine List.pairwise_cons.2 ⟨fun u hu => ?_, hl .nil⟩
    exact hs u ((mem_merge.1 hu).resolve_right List.not_mem_nil)
  | cons t m ih =>
    obtain ⟨ht, hm'⟩ := List.pairwise_cons.1 hm
    rw [mergeHead]
    split
    · next hst =>
      refine List.pairwise_cons.2 ⟨fun u hu => ?_, hl hm⟩
      rcases mem_merge.1 hu with hul | hum
      · exact hs u hul
      · rcases List.mem_cons.1 hum with rfl | hum
        · exact hst
        · exact String.lt_trans hst (ht u hum)
    · next hst =>
      split
      · next heq =>
        refine List.pairwise_cons.2 ⟨fun u hu => ?_, hl hm'⟩
        rcases mem_merge.1 hu with hul | hum
        · exact hs u hul
        · exact heq ▸ ht u hum
      · next hne =>
        have hts : t < s := Std.lt_of_le_of_ne (String.not_lt.1 hst) (Ne.symm hne)
        refine List.pairwise_cons.2 ⟨fun u hu => ?_, ih hm'⟩
        rcases (mem_mergeHead fun m => mem_merge).1 hu with hul | hum
        · rcases List.mem_cons.1 hul with rfl | hul
          · exact hts
          · exact String.lt_trans hts (hs u hul)
        · exact ht u hum

/-- A merge of ascending lists ascends. -/
theorem ascending_merge {l m : List String} (hl : l.Pairwise (· < ·)) (hm : m.Pairwise (· < ·)) :
    (merge l m).Pairwise (· < ·) := by
  induction l generalizing m with
  | nil => exact hm
  | cons s l ih =>
    obtain ⟨hs, hl'⟩ := List.pairwise_cons.1 hl
    exact ascending_mergeHead hs (fun hm => ih hl' hm) hm

/-- The set without members. -/
def empty : StringSet := ⟨[], .nil⟩

instance : EmptyCollection StringSet := ⟨empty⟩

/-- The set of one string. -/
def singleton (s : String) : StringSet := ⟨[s], List.pairwise_singleton _ _⟩

/-- The members of either set. -/
def union (a b : StringSet) : StringSet :=
  ⟨merge a.toList b.toList, ascending_merge a.ascending b.ascending⟩

/-- The set with one more string. -/
def insert (s : String) (a : StringSet) : StringSet := (singleton s).union a

/-- The set of the strings in a list, which may hold them in any order and repeatedly. -/
def ofList (l : List String) : StringSet := l.foldr insert empty

/-- The number of members. -/
def size (a : StringSet) : Nat := a.toList.length

/-- Whether there are no members. -/
def isEmpty (a : StringSet) : Bool := a.toList.isEmpty

/-- Whether every member of the first list is in the second, for two ascending lists. -/
def within : List String → List String → Bool
  | l, [] => l.isEmpty
  | [], _ :: _ => true
  | s :: l, t :: m => if s = t then within l m else decide (t < s) && within (s :: l) m

/-- Whether every member of `a` is a member of `b`. -/
def isSubset (a b : StringSet) : Bool := within a.toList b.toList

/-- The images of the members under `f`. -/
def map (f : String → String) (a : StringSet) : StringSet := ofList (a.toList.map f)

/-- Every string `s ++ t` with `s` from the first set and `t` from the second. -/
def cross (a b : StringSet) : StringSet :=
  a.toList.foldr (fun s products => (b.map (s ++ ·)).union products) empty

/-- Every concatenation of `k` members, for `k` at least one. For `k` zero it is the set itself. -/
def power (a : StringSet) (k : Nat) : StringSet := Nat.repeat (fun b => cross b a) (k - 1) a

/-- The members of a set are those of its list. -/
theorem mem_def {s : String} {a : StringSet} : s ∈ a ↔ s ∈ a.toList := Iff.rfl

/-- Nothing is in the empty set. -/
@[simp] theorem not_mem_empty (s : String) : s ∉ empty := List.not_mem_nil

/-- The set of one string has no other. -/
@[simp] theorem mem_singleton {s t : String} : s ∈ singleton t ↔ s = t := List.mem_singleton

/-- A union has the members of both sets. -/
@[simp] theorem mem_union {s : String} {a b : StringSet} : s ∈ a.union b ↔ s ∈ a ∨ s ∈ b :=
  mem_merge

/-- Inserting a string adds no other. -/
@[simp] theorem mem_insert {s t : String} {a : StringSet} : s ∈ a.insert t ↔ s = t ∨ s ∈ a := by
  simp [insert]

/-- The set of a list has its strings. -/
@[simp] theorem mem_ofList {s : String} {l : List String} : s ∈ ofList l ↔ s ∈ l := by
  induction l with
  | nil => simp [ofList]
  | cons t l ih =>
    show s ∈ insert t (ofList l) ↔ _
    simp [ih]

/-- A map has the images of the members. -/
@[simp] theorem mem_map {f : String → String} {s : String} {a : StringSet} :
    s ∈ a.map f ↔ ∃ t, t ∈ a ∧ f t = s := by
  simp [map, mem_def (a := a)]

/-- A product has the concatenations of the members of both sets. -/
@[simp] theorem mem_cross {u : String} {a b : StringSet} :
    u ∈ a.cross b ↔ ∃ s, s ∈ a ∧ ∃ t, t ∈ b ∧ s ++ t = u := by
  show u ∈ a.toList.foldr (fun s products => (b.map (s ++ ·)).union products) empty ↔
    ∃ s, s ∈ a.toList ∧ ∃ t, t ∈ b ∧ s ++ t = u
  induction a.toList with
  | nil => simp
  | cons s l ih => simp [ih]

/-- The power of no repetitions is the set itself. -/
@[simp] theorem power_zero (a : StringSet) : a.power 0 = a := rfl

/-- The first power is the set itself. -/
@[simp] theorem power_one (a : StringSet) : a.power 1 = a := rfl

/-- Each further power is a product with the set. -/
theorem power_add_two (a : StringSet) (k : Nat) : a.power (k + 2) = (a.power (k + 1)).cross a := rfl

/-- A list is within another exactly if all its strings are in it. -/
theorem within_iff {l m : List String} (hl : l.Pairwise (· < ·)) (hm : m.Pairwise (· < ·)) :
    within l m = true ↔ ∀ u ∈ l, u ∈ m := by
  fun_induction within l m with
  | case1 l => simp [List.eq_nil_iff_forall_not_mem]
  | case2 => simp
  | case3 l t m ih =>
    obtain ⟨ht, hl'⟩ := List.pairwise_cons.1 hl
    rw [ih hl' (List.pairwise_cons.1 hm).2]
    constructor
    · intro h u hu
      rcases List.mem_cons.1 hu with rfl | hu
      · exact List.mem_cons_self
      · exact List.mem_cons_of_mem t (h u hu)
    · intro h u hu
      rcases List.mem_cons.1 (h u (List.mem_cons_of_mem t hu)) with rfl | hum
      · exact absurd (ht u hu) (String.lt_irrefl u)
      · exact hum
  | case4 s l t m hne ih =>
    obtain ⟨ht, hm'⟩ := List.pairwise_cons.1 hm
    rw [Bool.and_eq_true, decide_eq_true_iff, ih hl hm']
    constructor
    · intro h u hu
      exact List.mem_cons_of_mem t (h.2 u hu)
    · intro h
      have hsm : s ∈ m := by
        rcases List.mem_cons.1 (h s List.mem_cons_self) with hst | hsm
        · exact absurd hst hne
        · exact hsm
      have hts := ht s hsm
      refine ⟨hts, fun u hu => ?_⟩
      rcases List.mem_cons.1 (h u hu) with rfl | hum
      · rcases List.mem_cons.1 hu with rfl | hul
        · exact hsm
        · have hsu := (List.pairwise_cons.1 hl).1 u hul
          exact absurd (String.lt_trans hsu hts) (String.lt_irrefl s)
      · exact hum

/-- A set is a subset exactly if all its members are in the other. -/
@[simp] theorem isSubset_iff {a b : StringSet} : a.isSubset b = true ↔ ∀ s, s ∈ a → s ∈ b :=
  within_iff a.ascending b.ascending

end StringSet

end StringBricks
