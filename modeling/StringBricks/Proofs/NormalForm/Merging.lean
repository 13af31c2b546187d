import StringBricks.Proofs.NormalForm.Rewriting
import Mathlib.Data.List.Chain

/-!
# Merging neighbours

A pass that merges neighbours leaves a list as it is exactly if no two neighbours can be merged
(`NormalForm.mergeNeighbors_eq_self_iff`). Every merge takes something away from the number of
bricks, and from the mandatory repetitions if it is one of bricks that occur once, so a pass that
takes nothing away has merged nothing. A pass over bricks of one content does not see whether some
neighbours were merged beforehand (`NormalForm.mergeEqual_flatMap`).
-/

set_option autoImplicit false

namespace StringBricks

/-- Saturating sums do not depend on the grouping. -/
theorem Count.add_assoc (a b c : Count) : a + b + c = a + (b + c) := by
  apply Count.ext
  simp only [toNat_add]
  omega

/-- A count does not exceed the cap, so nothing is cut off when zero is added. -/
@[simp] theorem Count.add_zero (a : Count) : a + 0 = a := by
  apply Count.ext
  rw [toNat_add, toNat_zero, Nat.add_zero]
  exact Nat.min_eq_left a.toNat_le_cap

/-- Sums of bounds do not depend on the grouping. -/
theorem Bound.add_assoc (a b c : Bound) : a + b + c = a + (b + c) := by
  cases a with
  | infinite => simp
  | finite m =>
    cases b with
    | infinite => simp
    | finite n =>
      cases c with
      | infinite => simp
      | finite k => exact congrArg finite (Count.add_assoc m n k)

/-- Sums of bounds do not depend on the order. -/
theorem Bound.add_comm (a b : Bound) : a + b = b + a := by
  cases a with
  | infinite => simp
  | finite m =>
    cases b with
    | infinite => simp
    | finite n => exact congrArg finite (Count.ext (congrArg (min · Count.cap) (Nat.add_comm _ _)))

/-- What is taken away and the difference make up the bound. -/
theorem Bound.add_eq_of_sub {a r : Bound} {n : Count} (h : a.sub (.finite n) = .ok r) :
    .finite n + r = a := by
  obtain ⟨rfl, rfl⟩ | ⟨m, k, rfl, rfl, hsum⟩ := sub_eq_ok h
  · rfl
  · have hcap := m.toNat_le_cap
    have hcount : n + k = m := by
      apply Count.ext
      rw [Count.toNat_add]
      omega
    exact congrArg finite hcount

namespace NormalForm

/-- The sum of a measure of bricks over a list. -/
def total (μ : Brick → Nat) (l : List Brick) : Nat := l.foldr (fun b sum => μ b + sum) 0

/-- The total over the empty list is zero. -/
@[simp] theorem total_nil (μ : Brick → Nat) : total μ [] = 0 := rfl

/-- The first brick counts towards the total. -/
@[simp] theorem total_cons (μ : Brick → Nat) (b : Brick) (l : List Brick) :
    total μ (b :: l) = μ b + total μ l := rfl

/-- The total over two lists is the sum of their totals. -/
theorem total_append (μ : Brick → Nat) (l m : List Brick) :
    total μ (l ++ m) = total μ l + total μ m := by
  induction l with
  | nil => simp
  | cons b l ih => rw [List.cons_append, total_cons, total_cons, ih, Nat.add_assoc]

/-- Each brick is part of the total. -/
theorem le_total_of_mem {μ : Brick → Nat} {l : List Brick} {b : Brick} (hb : b ∈ l) :
    μ b ≤ total μ l := by
  induction l with
  | nil => cases hb
  | cons c l ih =>
    rw [total_cons]
    cases List.mem_cons.1 hb with
    | inl hb => exact hb ▸ Nat.le_add_right _ _
    | inr hb => exact Nat.le_trans (ih hb) (Nat.le_add_left _ _)

/-- Where every brick counts for one, the total is the length. -/
theorem total_one (l : List Brick) : total (fun _ => 1) l = l.length := by
  induction l with
  | nil => rfl
  | cons b l ih => rw [total_cons, List.length_cons, ih, Nat.add_comm]

/-! ## Passes -/

section Pass

variable {merge? : Brick → Brick → Option Brick} {μ : Brick → Nat} {last : Brick} {l : List Brick}

/-- A brick that cannot be merged with the open one takes its place. -/
theorem mergeFrom_cons_of_none {b : Brick} (h : merge? last b = none) :
    mergeFrom merge? last (b :: l) = last :: mergeFrom merge? b l := by
  rw [mergeFrom, h]

/-- A brick that can be merged with the open one is merged into it. -/
theorem mergeFrom_cons_of_some {b c : Brick} (h : merge? last b = some c) :
    mergeFrom merge? last (b :: l) = mergeFrom merge? c l := by
  rw [mergeFrom, h]

/-- A pass adds nothing to a total that no merge adds to. -/
theorem total_mergeFrom_le (h : ∀ {a b c}, merge? a b = some c → μ c ≤ μ a + μ b) (last : Brick)
    (l : List Brick) : total μ (mergeFrom merge? last l) ≤ μ last + total μ l := by
  induction l generalizing last with
  | nil => exact Nat.le_refl _
  | cons b l ih =>
    cases hc : merge? last b with
    | none =>
      rw [mergeFrom_cons_of_none hc]
      exact Nat.add_le_add_left (ih b) _
    | some c =>
      have hmerged := h hc
      have hrest := ih c
      rw [mergeFrom_cons_of_some hc, total_cons]
      omega

/-- A pass that takes nothing away from a total that every merge takes something away from has
merged nothing. -/
theorem mergeFrom_eq_of_total_le (h : ∀ {a b c}, merge? a b = some c → μ c < μ a + μ b)
    (hle : μ last + total μ l ≤ total μ (mergeFrom merge? last l)) :
    mergeFrom merge? last l = last :: l := by
  induction l generalizing last with
  | nil => rfl
  | cons b l ih =>
    cases hc : merge? last b with
    | none =>
      rw [mergeFrom_cons_of_none hc] at hle ⊢
      rw [ih (Nat.le_of_add_le_add_left hle)]
    | some c =>
      have hmerged := h hc
      have hrest : total μ (mergeFrom merge? c l) ≤ μ c + total μ l :=
        total_mergeFrom_le (fun h' => Nat.le_of_lt (h h')) c l
      rw [mergeFrom_cons_of_some hc, total_cons] at hle
      omega

/-- A pass over a whole list that takes nothing away has merged nothing. -/
theorem mergeNeighbors_eq_of_total_le (h : ∀ {a b c}, merge? a b = some c → μ c < μ a + μ b)
    (hle : total μ l ≤ total μ (mergeNeighbors merge? l)) : mergeNeighbors merge? l = l := by
  cases l with
  | nil => rfl
  | cons b l => exact mergeFrom_eq_of_total_le h hle

/-- A pass does not make more bricks. -/
theorem length_mergeFrom_le (last : Brick) (l : List Brick) :
    (mergeFrom merge? last l).length ≤ l.length + 1 := by
  have hle : total (fun _ => 1) (mergeFrom merge? last l) ≤ 1 + total (fun _ => 1) l :=
    total_mergeFrom_le (fun _ => by decide) last l
  rwa [total_one, total_one, Nat.add_comm] at hle

/-- A pass that leaves as many bricks as there were has merged nothing. -/
theorem mergeNeighbors_eq_of_length_le (h : l.length ≤ (mergeNeighbors merge? l).length) :
    mergeNeighbors merge? l = l := by
  have hlt : ∀ {a b c}, merge? a b = some c → 1 < 1 + 1 := fun _ => by decide
  apply mergeNeighbors_eq_of_total_le hlt
  rwa [total_one, total_one]

/-- A pass that starts with an open brick changes nothing exactly if no two neighbours can be
merged. -/
theorem mergeFrom_eq_cons_iff : mergeFrom merge? last l = last :: l ↔
    (last :: l).IsChain fun a b => merge? a b = none := by
  induction l generalizing last with
  | nil => simp [mergeFrom]
  | cons b l ih =>
    rw [List.isChain_cons_cons, ← ih]
    cases hc : merge? last b with
    | none => simp [mergeFrom_cons_of_none hc]
    | some c =>
      rw [mergeFrom_cons_of_some hc]
      have hlen : (mergeFrom merge? c l).length ≤ l.length + 1 := length_mergeFrom_le c l
      refine iff_of_false ?_ nofun
      intro heq
      have hlen' : (mergeFrom merge? c l).length = l.length + 2 := congrArg List.length heq
      omega

/-- A pass changes nothing exactly if no two neighbours can be merged. -/
theorem mergeNeighbors_eq_self_iff : mergeNeighbors merge? l = l ↔
    l.IsChain fun a b => merge? a b = none := by
  cases l with
  | nil => simp [mergeNeighbors]
  | cons b l => exact mergeFrom_eq_cons_iff

/-- A pass that merges two neighbours changes nothing else, if up to the first of them and from what
is merged of them on no two neighbours can be merged. -/
theorem mergeNeighbors_junction {a b c : Brick} {m : List Brick}
    (hl : (l ++ [a]).IsChain fun a b => merge? a b = none) (h : merge? a b = some c)
    (hm : (c :: m).IsChain fun a b => merge? a b = none) :
    mergeNeighbors merge? (l ++ a :: b :: m) = l ++ c :: m := by
  induction l with
  | nil => exact (mergeFrom_cons_of_some h).trans (mergeFrom_eq_cons_iff.2 hm)
  | cons d l ih =>
    have hrest := ih hl.of_cons
    cases l with
    | nil => exact (mergeFrom_cons_of_none hl.rel).trans (congrArg (d :: ·) hrest)
    | cons e l => exact (mergeFrom_cons_of_none hl.rel).trans (congrArg (d :: ·) hrest)

/-- What a pass makes of bricks with `p` of which neighbours are related by `R`: if a merge keeps
`p` and the relation to the next brick, and what is related by `S` to the first of two bricks is
related to their merge, then all bricks have `p` and neighbours are related by `S`. -/
theorem isChain_mergeNeighbors {p : Brick → Prop} {R S : Brick → Brick → Prop}
    (hp : ∀ {a b c}, merge? a b = some c → p a → p b → R a b → p c)
    (hR : ∀ {a b c}, merge? a b = some c → p a → p b → R a b → ∀ d, R b d → R c d)
    (hS : ∀ {a b c}, merge? a b = some c → p a → p b → R a b → ∀ d, S d a → S d c)
    (hnone : ∀ {a b}, merge? a b = none → R a b → S a b) (hl : ∀ b ∈ l, p b) (h : l.IsChain R) :
    (∀ b ∈ mergeNeighbors merge? l, p b) ∧ (mergeNeighbors merge? l).IsChain S := by
  -- whatever is related to the open brick is related to the head of what is made of it
  have hfrom : ∀ (l : List Brick) (last : Brick), (∀ b ∈ last :: l, p b) → (last :: l).IsChain R →
      (∀ b ∈ mergeFrom merge? last l, p b) ∧ (mergeFrom merge? last l).IsChain S ∧
        ∀ d, S d last → ∀ b ∈ (mergeFrom merge? last l).head?, S d b := by
    intro l
    induction l with
    | nil =>
      intro last hl _
      refine ⟨hl, List.isChain_singleton last, ?_⟩
      rintro d hd b ⟨⟩
      exact hd
    | cons b l ih =>
      intro last hl h
      obtain ⟨hlast, hb, hrest⟩ : p last ∧ p b ∧ ∀ c ∈ l, p c := by simpa using hl
      obtain ⟨hrel, htail⟩ := List.isChain_cons_cons.1 h
      cases hc : merge? last b with
      | none =>
        rw [mergeFrom_cons_of_none hc]
        obtain ⟨hall, hchain, hhead⟩ := ih b (fun c hc => hl c (List.mem_cons_of_mem _ hc)) htail
        refine ⟨List.forall_mem_cons.2 ⟨hlast, hall⟩, List.isChain_cons.2 ⟨?_, hchain⟩, ?_⟩
        · exact hhead last (hnone hc hrel)
        · rintro d hd b' ⟨⟩
          exact hd
      | some c =>
        rw [mergeFrom_cons_of_some hc]
        have hopen : (c :: l).IsChain R := htail.imp_head fun h' => hR hc hlast hb hrel _ h'
        obtain ⟨hall, hchain, hhead⟩ :=
          ih c (List.forall_mem_cons.2 ⟨hp hc hlast hb hrel, hrest⟩) hopen
        exact ⟨hall, hchain, fun d hd => hhead d (hS hc hlast hb hrel d hd)⟩
  cases l with
  | nil => exact ⟨nofun, List.isChain_nil⟩
  | cons b l =>
    obtain ⟨hall, hchain, -⟩ := hfrom l b hl h
    exact ⟨hall, hchain⟩

end Pass

/-- Neighbours stay related when two of them are replaced by one that is related to all that the
first and the second are. -/
theorem isChain_replace {α : Type} {R : α → α → Prop} {l m : List α} {a b c : α}
    (hl : (l ++ [a]).IsChain R) (hm : (b :: m).IsChain R) (hbefore : ∀ {x}, R x a → R x c)
    (hafter : ∀ {x}, R b x → R c x) : (l ++ c :: m).IsChain R := by
  refine List.isChain_split.2 ⟨?_, hm.imp_head hafter⟩
  obtain ⟨hinit, -, hlast⟩ := List.isChain_append.1 hl
  refine List.isChain_append.2 ⟨hinit, List.isChain_singleton c, ?_⟩
  intro x hx y hy
  rw [← Option.some.inj hy]
  exact hbefore (hlast x hx a rfl)

/-- Neighbours are related exactly if each brick is related to the one at its place in the tail. -/
theorem isChain_iff_forall_mem_zip {R : Brick → Brick → Prop} {l : List Brick} :
    l.IsChain R ↔ ∀ p ∈ l.zip l.tail, R p.1 p.2 := by
  cases l with
  | nil => simp
  | cons b l =>
    induction l generalizing b with
    | nil => simp
    | cons c l ih => simpa using fun _ => ih c

/-- No neighbours can be merged exactly if all differ and none of them are two sets that occur
once. -/
theorem hasMergeableNeighbors_eq_false_iff {l : List Brick} : hasMergeableNeighbors l = false ↔
    l.IsChain fun a b => a.content ≠ b.content ∧ mergeSingle? a b = none := by
  unfold hasMergeableNeighbors
  rw [isChain_iff_forall_mem_zip, List.any_eq_false]
  simp only [Bool.or_eq_true, not_or, Option.not_isSome_iff_eq_none, mergeEqual?_eq_none_iff]

/-- Neighbours can be merged as long as one of the two passes changes something. -/
theorem hasMergeableNeighbors_eq_false_iff_merged {l : List Brick} :
    hasMergeableNeighbors l = false ↔ mergeEqual l = l ∧ mergeSingles l = l := by
  unfold mergeEqual mergeSingles
  rw [mergeNeighbors_eq_self_iff, mergeNeighbors_eq_self_iff, hasMergeableNeighbors_eq_false_iff]
  simp only [mergeEqual?_eq_none_iff, isChain_iff_forall_mem_zip]
  exact ⟨fun h => ⟨fun p hp => (h p hp).1, fun p hp => (h p hp).2⟩,
    fun h p hp => ⟨h.1 p hp, h.2 p hp⟩⟩

/-- Merging bricks that occur once takes away from the mandatory repetitions. -/
theorem mergeSingles_eq_of_totalMinimum_le {l : List Brick}
    (h : totalMinimum l ≤ totalMinimum (mergeSingles l)) : mergeSingles l = l := by
  have hlt : ∀ {a b c}, mergeSingle? a b = some c → c.lo.toNat < a.lo.toNat + b.lo.toNat := by
    intro a b c hc
    obtain ⟨s, t, rfl, rfl, rfl⟩ := mergeSingle?_eq_some hc
    exact Nat.lt_succ_self 1
  exact mergeNeighbors_eq_of_total_le hlt h

/-! ## Merging beforehand -/

section Beforehand

variable {a b c last : Brick} {m m' : List Brick}

/-- Two bricks over the same content are merged by adding their ranges. -/
theorem mergeEqual_pair_of_eq (h : a.content = b.content) :
    mergeEqual [a, b] = [⟨a.content, a.lo + b.lo, a.hi + b.hi⟩] :=
  mergeFrom_cons_of_some (if_pos h)

/-- Two bricks of different content are left as they are. -/
theorem mergeEqual_pair_of_ne (h : a.content ≠ b.content) : mergeEqual [a, b] = [a, b] :=
  mergeFrom_cons_of_none (if_neg h)

/-- Bricks that are merged with each other may as well be merged beforehand. -/
theorem mergeFrom_cons_cons (h : mergeEqual? a b = some c) (l : List Brick) :
    mergeFrom mergeEqual? last (a :: b :: l) = mergeFrom mergeEqual? last (c :: l) := by
  obtain ⟨hab, rfl⟩ := mergeEqual?_eq_some h
  by_cases hlast : last.content = b.content
  · simp [mergeFrom, mergeEqual?, hlast, hab, Count.add_assoc, Bound.add_assoc]
  · simp [mergeFrom, mergeEqual?, hlast, hab]

/-- A pass goes on in the same way over lists that it treats in the same way. -/
theorem mergeFrom_append_congr
    (h : ∀ last, mergeFrom mergeEqual? last m = mergeFrom mergeEqual? last m') (l : List Brick)
    (last : Brick) :
    mergeFrom mergeEqual? last (l ++ m) = mergeFrom mergeEqual? last (l ++ m') := by
  induction l generalizing last with
  | nil => exact h last
  | cons b l ih =>
    rw [List.cons_append, List.cons_append, mergeFrom, mergeFrom]
    cases mergeEqual? last b with
    | none => exact congrArg (last :: ·) (ih b)
    | some c => exact ih c

/-- A pass does not see that neighbours were merged beforehand. -/
theorem mergeFrom_mergeFrom_append (l m : List Brick) (last b : Brick) :
    mergeFrom mergeEqual? last (mergeFrom mergeEqual? b l ++ m) =
      mergeFrom mergeEqual? last (b :: (l ++ m)) := by
  induction l generalizing last b with
  | nil => rfl
  | cons c l ih =>
    cases hc : mergeEqual? b c with
    | none =>
      rw [mergeFrom_cons_of_none hc, List.cons_append]
      cases hlast : mergeEqual? last b with
      | none =>
        rw [mergeFrom_cons_of_none hlast, mergeFrom_cons_of_none hlast]
        exact congrArg (last :: ·) (ih b c)
      | some d =>
        rw [mergeFrom_cons_of_some hlast, mergeFrom_cons_of_some hlast]
        exact ih d c
    | some d =>
      rw [mergeFrom_cons_of_some hc]
      exact (ih last d).trans (mergeFrom_cons_cons hc (l ++ m)).symm

/-- A pass over a whole list does not see that its beginning was merged beforehand. -/
theorem mergeEqual_mergeFrom_append (l m : List Brick) (b : Brick) :
    mergeEqual (mergeFrom mergeEqual? b l ++ m) = mergeEqual (b :: (l ++ m)) := by
  induction l generalizing b with
  | nil => rfl
  | cons c l ih =>
    cases hc : mergeEqual? b c with
    | none =>
      rw [mergeFrom_cons_of_none hc]
      exact mergeFrom_mergeFrom_append l m b c
    | some d =>
      rw [mergeFrom_cons_of_some hc]
      exact (ih d).trans (mergeFrom_cons_of_some hc).symm

/-- Where every brick is replaced by some, a pass does not see that those were merged
beforehand. -/
theorem mergeEqual_flatMap {f : Brick → List Brick} (hf : ∀ b, f b ≠ []) (l : List Brick) :
    mergeEqual (l.flatMap fun b => mergeEqual (f b)) = mergeEqual (l.flatMap f) := by
  have hfrom : ∀ (l : List Brick) (last : Brick),
      mergeFrom mergeEqual? last (l.flatMap fun b => mergeEqual (f b)) =
        mergeFrom mergeEqual? last (l.flatMap f) := by
    intro l
    induction l with
    | nil => exact fun _ => rfl
    | cons b l ih =>
      intro last
      obtain ⟨c, m, hb⟩ := List.exists_cons_of_ne_nil (hf b)
      rw [List.flatMap_cons, List.flatMap_cons, hb]
      exact (mergeFrom_mergeFrom_append m _ last c).trans (mergeFrom_append_congr ih (c :: m) last)
  cases l with
  | nil => rfl
  | cons b l =>
    obtain ⟨c, m, hb⟩ := List.exists_cons_of_ne_nil (hf b)
    rw [List.flatMap_cons, List.flatMap_cons, hb]
    exact (mergeEqual_mergeFrom_append m _ c).trans (mergeFrom_append_congr (hfrom l) m c)

end Beforehand

end NormalForm

end StringBricks
