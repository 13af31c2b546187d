import StringBricks.Proofs.Brick.Repetition
import StringBricks.NormalForm.Stability

/-!
# The normal form as rewriting

The five rules are given as a relation on lists of bricks (`NormalForm.Rewrites`), closed under
order and context, and the normal form is reached by them alone, however many cycles are run
(`NormalForm.rewrites_normalizeWithin`). What is true of the normal form then only has to be shown
of each rule: no rule makes a brick for no string or a filler, and none adds to the weight of a list
or to the number of its mandatory repetitions.
-/

set_option autoImplicit false

namespace StringBricks

namespace Bound

/-- Finite bounds are added as counts. -/
@[simp] theorem finite_add_finite (a b : Count) : finite a + finite b = finite (a + b) := rfl

/-- Nothing is added to no bound. -/
@[simp] theorem infinite_add (a : Bound) : infinite + a = infinite := by cases a <;> rfl

/-- There is no bound if either summand is none. -/
@[simp] theorem add_infinite (a : Bound) : a + infinite = infinite := by cases a <;> rfl

/-- What may occur once may occur. -/
theorem one_ne_zero : (1 : Bound) ≠ 0 := by decide

/-- Only zeros add up to zero. -/
theorem add_eq_zero_iff {a b : Bound} : a + b = 0 ↔ a = 0 ∧ b = 0 := by
  have hfinite : ∀ n : Count, finite n = 0 ↔ n.toNat = 0 := by
    intro n
    constructor
    · intro h
      cases h
      rfl
    · intro h
      exact congrArg finite (Count.ext h)
  have hinfinite : infinite ≠ 0 := by decide
  cases a with
  | infinite => simp [hinfinite]
  | finite m =>
    cases b with
    | infinite => simp [hinfinite]
    | finite n =>
      rw [finite_add_finite, hfinite, hfinite, hfinite, Count.toNat_add]
      have hcap : 0 < Count.cap := by decide
      omega

/-- Ranges that are not empty add up to one that is not empty. -/
theorem finite_add_le_add {lo lo' : Count} {hi hi' : Bound} (h : .finite lo ≤ hi)
    (h' : .finite lo' ≤ hi') : .finite (lo + lo') ≤ hi + hi' := by
  cases hi with
  | infinite => simp
  | finite n =>
    cases hi' with
    | infinite => simp
    | finite n' =>
      rw [finite_le_finite] at h h'
      rw [finite_add_finite, finite_le_finite, Count.toNat_add, Count.toNat_add]
      omega

/-- A difference and what was taken away make up the bound. -/
theorem sub_eq_ok {a r : Bound} {n : Count} (h : a.sub (.finite n) = .ok r) :
    (a = .infinite ∧ r = .infinite) ∨
      ∃ m k : Count, a = .finite m ∧ r = .finite k ∧ n.toNat + k.toNat = m.toNat := by
  cases a with
  | infinite =>
    cases h
    exact .inl ⟨rfl, rfl⟩
  | finite m =>
    by_cases hle : n ≤ m
    · rw [sub, if_pos hle] at h
      cases h
      have hnm : n.toNat ≤ m.toNat := hle
      have hcap := m.toNat_le_cap
      refine .inr ⟨m, _, rfl, rfl, ?_⟩
      rw [Count.toNat_ofNat]
      omega
    · rw [sub, if_neg hle] at h
      cases h

/-- What is within a bound can be taken away from it. -/
theorem exists_sub_eq_ok {a : Bound} {n : Count} (h : .finite n ≤ a) :
    ∃ r, a.sub (.finite n) = .ok r := by
  cases a with
  | infinite => exact ⟨.infinite, rfl⟩
  | finite m =>
    have hnm : n ≤ m := h
    exact ⟨_, by rw [sub, if_pos hnm]⟩

/-- Taking away less than the whole leaves something. -/
theorem sub_ne_zero {a r : Bound} {n : Count} (h : a.sub (.finite n) = .ok r)
    (hlt : .finite n < a) : r ≠ 0 := by
  intro hr
  cases sub_eq_ok h with
  | inl hinf => cases hinf.2.symm.trans hr
  | inr hfin =>
    obtain ⟨m, k, rfl, rfl, hsum⟩ := hfin
    have hk : k.toNat = 0 := by
      cases hr
      rfl
    exact hlt (finite_le_finite.2 (by omega))

end Bound

namespace Brick

/-- A brick with only one choice of repetitions. -/
theorem exactCount?_eq_some {b : Brick} {k : Count} (h : b.exactCount? = some k) :
    b = ⟨b.content, k, .finite k⟩ := by
  obtain ⟨content, lo, hi⟩ := b
  cases hi with
  | infinite => cases h
  | finite n =>
    have hn : n = k ∧ k = lo := by
      simpa [exactCount?, Bound.finite?, Option.filter_eq_some_iff, and_comm] using h
    rw [← hn.2, hn.1]

/-- What occurs once stands for something unless there is nothing to occur. -/
theorem not_isBottom_once {c : Content} :
    isBottom ⟨c, 1, 1⟩ = false ↔ c ≠ .known .empty := by
  rw [not_isBottom_iff]
  constructor
  · intro h hc
    exact Bound.one_ne_zero ((h.2 .empty hc).1 rfl)
  · intro hc
    refine ⟨le_rfl, ?_⟩
    intro a ha
    constructor
    · intro hempty
      exact absurd (hempty ▸ ha) hc
    · intro hone
      exact absurd hone Bound.one_ne_zero

/-- Two bricks over one content stand for something together if each does. -/
theorem not_isBottom_add {c : Content} {lo lo' : Count} {hi hi' : Bound}
    (h : isBottom ⟨c, lo, hi⟩ = false) (h' : isBottom ⟨c, lo', hi'⟩ = false) :
    isBottom ⟨c, lo + lo', hi + hi'⟩ = false := by
  obtain ⟨hrange, hset⟩ := not_isBottom_iff.1 h
  obtain ⟨hrange', hset'⟩ := not_isBottom_iff.1 h'
  refine not_isBottom_iff.2 ⟨Bound.finite_add_le_add hrange hrange', ?_⟩
  intro s hs
  rw [Bound.add_eq_zero_iff, ← hset s hs, ← hset' s hs, and_self]

/-- A brick that may occur is no filler. -/
theorem not_isFiller_of_hi {b : Brick} (h : b.hi ≠ 0) : b.isFiller = false := by
  rw [Bool.eq_false_iff]
  intro hfiller
  exact h (congrArg hi (isFiller_iff.1 hfiller))

end Brick

namespace NormalForm

/-- The mandatory repetitions of all bricks together. -/
def totalMinimum (l : List Brick) : Nat := l.foldr (fun b total => b.lo.toNat + total) 0

/-- The rules of the normal form, in any order and at any place of a list. -/
inductive Rewrites : List Brick → List Brick → Prop
  | refl (l : List Brick) : Rewrites l l
  | trans {l m n : List Brick} : Rewrites l m → Rewrites m n → Rewrites l n
  | append {l l' m m' : List Brick} :
      Rewrites l l' → Rewrites m m' → Rewrites (l ++ m) (l' ++ m')
  /-- A filler is dropped. -/
  | filler : Rewrites [Brick.filler] []
  /-- Two bricks that occur once become one. -/
  | single (s t : StringSet) :
      Rewrites [⟨.known s, 1, 1⟩, ⟨.known t, 1, 1⟩] [⟨.known (s.cross t), 1, 1⟩]
  /-- An exact number of occurrences becomes one of the power. -/
  | collapse (c : Content) {k : Count} :
      2 ≤ k.toNat → Rewrites [⟨c, k, .finite k⟩] [⟨c.power k.toNat, 1, 1⟩]
  /-- Two bricks over the same content become one. -/
  | equal (c : Content) (lo lo' : Count) (hi hi' : Bound) :
      Rewrites [⟨c, lo, hi⟩, ⟨c, lo', hi'⟩] [⟨c, lo + lo', hi + hi'⟩]
  /-- The mandatory occurrences are split off. -/
  | split (c : Content) {lo : Count} {hi rest : Bound} :
      1 ≤ lo.toNat → .finite lo < hi → hi.sub (.finite lo) = .ok rest →
      Rewrites [⟨c, lo, hi⟩] [⟨c, lo, .finite lo⟩, ⟨c, 0, rest⟩]

/-- Nothing must occur in the empty list. -/
@[simp] theorem totalMinimum_nil : totalMinimum [] = 0 := rfl

/-- The repetitions of the first brick count towards the total. -/
@[simp] theorem totalMinimum_cons (b : Brick) (l : List Brick) :
    totalMinimum (b :: l) = b.lo.toNat + totalMinimum l := rfl

/-- The repetitions that must occur in two lists add up. -/
theorem totalMinimum_append (l m : List Brick) :
    totalMinimum (l ++ m) = totalMinimum l + totalMinimum m := by
  induction l with
  | nil => simp
  | cons b l ih =>
    rw [List.cons_append, totalMinimum_cons, totalMinimum_cons, ih]
    omega

/-- The empty list has no weight. -/
@[simp] theorem totalWeight_nil : totalWeight [] = 0 := rfl

/-- The weight of the first brick counts towards the total. -/
@[simp] theorem totalWeight_cons (b : Brick) (l : List Brick) :
    totalWeight (b :: l) = weight b + totalWeight l := rfl

/-- The weights of two lists add up. -/
theorem totalWeight_append (l m : List Brick) :
    totalWeight (l ++ m) = totalWeight l + totalWeight m := by
  induction l with
  | nil => simp
  | cons b l ih =>
    rw [List.cons_append, totalWeight_cons, totalWeight_cons, ih]
    omega

/-- No brick weighs more than the list it is in. -/
theorem weight_le_totalWeight {l : List Brick} {b : Brick} (hb : b ∈ l) :
    weight b ≤ totalWeight l := by
  induction l with
  | nil => cases hb
  | cons c l ih =>
    rw [totalWeight_cons]
    cases List.mem_cons.1 hb with
    | inl hb =>
      rw [hb]
      exact Nat.le_add_right _ _
    | inr hb => exact Nat.le_trans (ih hb) (Nat.le_add_left _ _)

/-- A brick that occurs exactly once weighs one. -/
@[simp] theorem weight_once (c : Content) : weight ⟨c, 1, 1⟩ = 1 := rfl

/-- A brick that stands for something weighs as much as it must occur. -/
theorem lo_le_weight {b : Brick} (h : b.isBottom = false) : b.lo.toNat ≤ weight b := by
  have hrange := Brick.lo_le_hi h
  unfold weight
  cases hb : b.hi with
  | infinite => exact Nat.le_refl _
  | finite n =>
    rw [hb] at hrange
    exact hrange

/-- A brick alone never weighs more than the cap. -/
theorem totalWeight_singleton_le (b : Brick) : totalWeight [b] ≤ Count.cap := by
  rw [totalWeight_cons, totalWeight_nil, Nat.add_zero, weight]
  cases b.hi with
  | infinite => exact b.lo.toNat_le_cap
  | finite n => exact n.toNat_le_cap

/-! ## The normal form is reached by the rules -/

/-- Collapsing is an instance of the rules. -/
theorem rewrites_collapse (b : Brick) : Rewrites [b] [NormalForm.collapse b] := by
  unfold NormalForm.collapse
  cases hk : b.exactCount? with
  | none => exact .refl [b]
  | some k =>
    show Rewrites [b] [if 2 ≤ k.toNat then ⟨b.content.power k.toNat, 1, 1⟩ else b]
    by_cases h : 2 ≤ k.toNat
    · rw [if_pos h]
      have hrule := Rewrites.collapse b.content h
      rw [← Brick.exactCount?_eq_some hk] at hrule
      exact hrule
    · rw [if_neg h]
      exact .refl [b]

/-- Splitting is an instance of the rules. -/
theorem rewrites_split (b : Brick) : Rewrites [b] (NormalForm.split b) := by
  unfold NormalForm.split
  split
  · next h =>
    rw [Bool.and_eq_true, Bool.and_eq_true, Brick.isGuaranteed, decide_eq_true_eq,
      decide_eq_true_eq] at h
    obtain ⟨⟨hlo, hlt⟩, -⟩ := h
    cases hrest : b.hi.sub b.lo with
    | error _ => exact .refl [b]
    | ok rest =>
      have hsplit : Rewrites [b] [⟨b.content, b.lo, .finite b.lo⟩, ⟨b.content, 0, rest⟩] :=
        .split b.content hlo hlt hrest
      apply hsplit.trans
      exact .append (rewrites_collapse _) (.refl _)
  · exact .refl [b]

/-- Two bricks are merged by adding their ranges only if they are over the same content. -/
theorem mergeEqual?_eq_some {a b c : Brick} (h : mergeEqual? a b = some c) :
    a.content = b.content ∧ c = ⟨a.content, a.lo + b.lo, a.hi + b.hi⟩ := by
  unfold mergeEqual? at h
  split at h
  · next heq =>
    cases h
    exact ⟨heq, rfl⟩
  · cases h

/-- Exactly bricks of different content are not merged by adding their ranges. -/
theorem mergeEqual?_eq_none_iff {a b : Brick} : mergeEqual? a b = none ↔ a.content ≠ b.content := by
  unfold mergeEqual?
  split
  · next heq => exact iff_of_false nofun (fun hne => hne heq)
  · next hne => exact iff_of_true rfl hne

/-- Two bricks are merged into a product only if both are sets that occur exactly once. -/
theorem mergeSingle?_eq_some {a b c : Brick} (h : mergeSingle? a b = some c) :
    ∃ s t : StringSet, a = ⟨.known s, 1, 1⟩ ∧ b = ⟨.known t, 1, 1⟩ ∧
      c = ⟨.known (s.cross t), 1, 1⟩ := by
  unfold mergeSingle? at h
  split at h
  · next hsingle =>
    rw [Bool.and_eq_true, Brick.isSingle_iff, Brick.isSingle_iff] at hsingle
    obtain ⟨content, lo, hi⟩ := a
    obtain ⟨content', lo', hi'⟩ := b
    obtain ⟨⟨hlo, hhi⟩, hlo', hhi'⟩ := hsingle
    simp only at hlo hhi hlo' hhi'
    subst hlo hhi hlo' hhi'
    cases content with
    | unknown => cases h
    | known s =>
      cases content' with
      | unknown => cases h
      | known t =>
        cases h
        exact ⟨s, t, rfl, rfl, rfl⟩
  · cases h

/-- Only two sets that occur once are merged into one. -/
theorem mergeSingle?_eq_none_iff {a b : Brick} : mergeSingle? a b = none ↔
    ¬ ∃ s t : StringSet, a = ⟨.known s, 1, 1⟩ ∧ b = ⟨.known t, 1, 1⟩ := by
  constructor
  · rintro h ⟨s, t, rfl, rfl⟩
    cases h
  · intro h
    cases hc : mergeSingle? a b with
    | none => rfl
    | some c =>
      obtain ⟨s, t, ha, hb, -⟩ := mergeSingle?_eq_some hc
      exact absurd ⟨s, t, ha, hb⟩ h

/-- Merging two bricks over the same content is an instance of the rules. -/
theorem rewrites_mergeEqual? {a b c : Brick} (h : mergeEqual? a b = some c) :
    Rewrites [a, b] [c] := by
  obtain ⟨heq, rfl⟩ := mergeEqual?_eq_some h
  have hrule := Rewrites.equal a.content a.lo b.lo a.hi b.hi
  obtain ⟨content, lo, hi⟩ := b
  cases heq
  exact hrule

/-- Merging two sets that occur exactly once is an instance of the rules. -/
theorem rewrites_mergeSingle? {a b c : Brick} (h : mergeSingle? a b = some c) :
    Rewrites [a, b] [c] := by
  obtain ⟨s, t, rfl, rfl, rfl⟩ := mergeSingle?_eq_some h
  exact .single s t

/-- Whatever is done to each brick apart is done to the list. -/
theorem rewrites_flatMap {f : Brick → List Brick} (h : ∀ b, Rewrites [b] (f b)) (l : List Brick) :
    Rewrites l (l.flatMap f) := by
  induction l with
  | nil => exact .refl []
  | cons b l ih =>
    rw [List.flatMap_cons]
    exact .append (h b) ih

/-- What is an instance of the rules for every brick is one for the whole list. -/
theorem rewrites_map {f : Brick → Brick} (h : ∀ b, Rewrites [b] [f b]) (l : List Brick) :
    Rewrites l (l.map f) := by
  rw [List.map_eq_flatMap]
  exact rewrites_flatMap h l

/-- A pass that merges neighbours applies the rule that merges two of them. -/
theorem rewrites_mergeFrom {merge? : Brick → Brick → Option Brick}
    (h : ∀ {a b c}, merge? a b = some c → Rewrites [a, b] [c]) (last : Brick) (l : List Brick) :
    Rewrites (last :: l) (mergeFrom merge? last l) := by
  induction l generalizing last with
  | nil => exact .refl [last]
  | cons b l ih =>
    unfold mergeFrom
    cases hc : merge? last b with
    | none => exact .append (.refl [last]) (ih b)
    | some c => exact .trans (.append (h hc) (.refl l)) (ih c)

/-- A pass whose merges are instances of the rules is one. -/
theorem rewrites_mergeNeighbors {merge? : Brick → Brick → Option Brick}
    (h : ∀ {a b c}, merge? a b = some c → Rewrites [a, b] [c]) (l : List Brick) :
    Rewrites l (mergeNeighbors merge? l) := by
  cases l with
  | nil => exact .refl []
  | cons b l => exact rewrites_mergeFrom h b l

/-- A cycle applies the rules one after another. -/
theorem rewrites_cycle (l : List Brick) : Rewrites l (cycle l) := by
  have hcollapse : Rewrites l (l.map NormalForm.collapse) := rewrites_map rewrites_collapse l
  have hsplit := hcollapse.trans (rewrites_flatMap rewrites_split _)
  have hequal := hsplit.trans (rewrites_mergeNeighbors rewrites_mergeEqual? _)
  exact hequal.trans (rewrites_mergeNeighbors rewrites_mergeSingle? _)

/-- However many cycles are run, they apply the rules. -/
theorem rewrites_settle (rounds : Nat) (l : List Brick) : Rewrites l (settle rounds l) := by
  induction rounds generalizing l with
  | zero => exact .refl l
  | succ rounds ih =>
    show Rewrites l (if cycle l = l then l else settle rounds (cycle l))
    split
    · exact .refl l
    · apply (rewrites_cycle l).trans
      exact ih (cycle l)

/-- Dropping the fillers applies the first rule. -/
theorem rewrites_dropFillers (l : List Brick) : Rewrites l (dropFillers l) := by
  induction l with
  | nil => exact .refl []
  | cons b l ih =>
    unfold dropFillers
    by_cases hb : b.isFiller = true
    · rw [List.filter_cons_of_neg (by simp [hb]), Brick.isFiller_iff.1 hb]
      exact .append .filler ih
    · rw [List.filter_cons_of_pos (by simp [hb])]
      exact .append (.refl [b]) ih

/-- A list without bricks for no string goes to its normal form by the rules, whatever the number of
cycles. -/
theorem rewrites_normalizeWithin (rounds : Nat) {l : List Brick}
    (hl : l.any Brick.isBottom = false) : Rewrites l (normalizeWithin rounds l) := by
  unfold normalizeWithin
  rw [hl]
  exact (rewrites_dropFillers l).trans (rewrites_settle rounds _)

/-! ## What the rules keep -/

namespace Rewrites

variable {l m : List Brick}

/-- No rule makes a brick for no string. -/
theorem any_isBottom (h : Rewrites l m) (hl : l.any Brick.isBottom = false) :
    m.any Brick.isBottom = false := by
  induction h with
  | refl l => exact hl
  | trans _ _ ih₁ ih₂ => exact ih₂ (ih₁ hl)
  | append _ _ ih₁ ih₂ =>
    rw [List.any_append, Bool.or_eq_false_iff] at hl ⊢
    exact ⟨ih₁ hl.1, ih₂ hl.2⟩
  | filler => rfl
  | single s t =>
    simp only [List.any_cons, List.any_nil, Bool.or_false, Bool.or_eq_false_iff,
      Brick.not_isBottom_once, Ne, Content.known.injEq] at hl ⊢
    exact StringSet.cross_ne_empty hl.1 hl.2
  | collapse c hk =>
    simp only [List.any_cons, List.any_nil, Bool.or_false, Brick.not_isBottom_once] at hl ⊢
    cases c with
    | unknown => exact nofun
    | known s =>
      have hs : s ≠ .empty :=
        Brick.members_ne_empty hl (Brick.hi_ne_zero hl (Nat.le_of_succ_le hk)) rfl
      have hpower := StringSet.power_ne_empty hs
      simpa [Content.power] using hpower _
  | equal c lo lo' hi hi' =>
    simp only [List.any_cons, List.any_nil, Bool.or_false, Bool.or_eq_false_iff] at hl ⊢
    exact Brick.not_isBottom_add hl.1 hl.2
  | @split c lo hi rest hlo hlt hrest =>
    simp only [List.any_cons, List.any_nil, Bool.or_false, Bool.or_eq_false_iff] at hl ⊢
    have hmembers : ∀ s, c = .known s → s ≠ .empty :=
      fun s hs => Brick.members_ne_empty hl (Brick.hi_ne_zero hl hlo) hs
    constructor
    · refine Brick.not_isBottom_iff.2 ⟨le_rfl, ?_⟩
      intro s hs
      have hne : Bound.finite lo ≠ 0 := by
        intro hzero
        cases hzero
        exact absurd hlo (by decide)
      exact iff_of_false (hmembers s hs) hne
    · refine Brick.not_isBottom_iff.2 ⟨Bound.zero_le rest, ?_⟩
      intro s hs
      exact iff_of_false (hmembers s hs) (Bound.sub_ne_zero hrest hlt)

/-- No rule makes a filler. -/
theorem any_isFiller (h : Rewrites l m) (hl : l.any Brick.isBottom = false)
    (hfiller : l.any Brick.isFiller = false) : m.any Brick.isFiller = false := by
  induction h with
  | refl l => exact hfiller
  | trans h₁ _ ih₁ ih₂ =>
    apply ih₂ (h₁.any_isBottom hl)
    exact ih₁ hl hfiller
  | append _ _ ih₁ ih₂ =>
    rw [List.any_append, Bool.or_eq_false_iff] at hl hfiller ⊢
    exact ⟨ih₁ hl.1 hfiller.1, ih₂ hl.2 hfiller.2⟩
  | filler => rfl
  | single s t =>
    rw [List.any_cons, List.any_nil, Bool.or_false]
    exact Brick.not_isFiller_of_hi Bound.one_ne_zero
  | collapse c hk =>
    rw [List.any_cons, List.any_nil, Bool.or_false]
    exact Brick.not_isFiller_of_hi Bound.one_ne_zero
  | equal c lo lo' hi hi' =>
    simp only [List.any_cons, List.any_nil, Bool.or_false, Bool.or_eq_false_iff] at hl hfiller ⊢
    rw [Bool.eq_false_iff]
    intro hmerged
    have hc : c = .known .empty := congrArg Brick.content (Brick.isFiller_iff.1 hmerged)
    have hfirst := Brick.isFiller_iff.2 (Brick.eq_filler hl.1 hc)
    exact Bool.noConfusion (hfiller.1.symm.trans hfirst)
  | split c hlo hlt hrest =>
    simp only [List.any_cons, List.any_nil, Bool.or_false, Bool.or_eq_false_iff] at hl ⊢
    constructor
    · apply Brick.not_isFiller_of_hi
      intro hzero
      cases hzero
      exact absurd hlo (by decide)
    · exact Brick.not_isFiller_of_hi (Bound.sub_ne_zero hrest hlt)

/-- Only fillers leave nothing. -/
theorem ne_nil (h : Rewrites l m) (hl : l.any Brick.isBottom = false)
    (hfiller : l.any Brick.isFiller = false) (hne : l ≠ []) : m ≠ [] := by
  induction h with
  | refl l => exact hne
  | trans h₁ _ ih₁ ih₂ =>
    exact ih₂ (h₁.any_isBottom hl) (h₁.any_isFiller hl hfiller) (ih₁ hl hfiller hne)
  | append _ _ ih₁ ih₂ =>
    rw [List.any_append, Bool.or_eq_false_iff] at hl hfiller
    rw [Ne, List.append_eq_nil_iff, Classical.not_and_iff_not_or_not] at hne ⊢
    exact hne.imp (ih₁ hl.1 hfiller.1) (ih₂ hl.2 hfiller.2)
  | filler => cases hfiller
  | single | collapse | equal | split => nofun

/-- No rule adds to the mandatory repetitions. -/
theorem totalMinimum_le (h : Rewrites l m) : totalMinimum m ≤ totalMinimum l := by
  induction h with
  | refl l => exact Nat.le_refl _
  | trans _ _ ih₁ ih₂ => exact Nat.le_trans ih₂ ih₁
  | append _ _ ih₁ ih₂ =>
    rw [totalMinimum_append, totalMinimum_append]
    omega
  | filler => exact Nat.le_refl _
  | single s t =>
    simp only [totalMinimum_cons, totalMinimum_nil, Count.toNat_one]
    omega
  | collapse c hk =>
    simp only [totalMinimum_cons, totalMinimum_nil, Count.toNat_one]
    omega
  | equal c lo lo' hi hi' =>
    simp only [totalMinimum_cons, totalMinimum_nil, Count.toNat_add]
    omega
  | split c hlo hlt hrest => exact Nat.le_refl _

/-- No rule adds to the weight of a list. -/
theorem totalWeight_le (h : Rewrites l m) (hl : l.any Brick.isBottom = false) :
    totalWeight m ≤ totalWeight l := by
  induction h with
  | refl l => exact Nat.le_refl _
  | trans h₁ _ ih₁ ih₂ =>
    apply Nat.le_trans _ (ih₁ hl)
    exact ih₂ (h₁.any_isBottom hl)
  | append _ _ ih₁ ih₂ =>
    rw [List.any_append, Bool.or_eq_false_iff] at hl
    have hleft := ih₁ hl.1
    have hright := ih₂ hl.2
    rw [totalWeight_append, totalWeight_append]
    omega
  | filler => exact Nat.le_refl _
  | single s t =>
    simp only [totalWeight_cons, totalWeight_nil, weight_once]
    omega
  | @collapse c k hk =>
    have hweight : weight ⟨c, k, .finite k⟩ = k.toNat := rfl
    simp only [totalWeight_cons, totalWeight_nil, weight_once, hweight]
    omega
  | equal c lo lo' hi hi' =>
    simp only [List.any_cons, List.any_nil, Bool.or_false, Bool.or_eq_false_iff] at hl
    have hlo := lo_le_weight hl.1
    have hlo' := lo_le_weight hl.2
    cases hi with
    | infinite =>
      cases hi' with
      | infinite =>
        simp only [totalWeight_cons, totalWeight_nil, Bound.infinite_add, weight, Count.toNat_add]
        omega
      | finite n' =>
        simp only [totalWeight_cons, totalWeight_nil, Bound.infinite_add, weight,
          Count.toNat_add] at hlo' ⊢
        omega
    | finite n =>
      cases hi' with
      | infinite =>
        simp only [totalWeight_cons, totalWeight_nil, Bound.add_infinite, weight,
          Count.toNat_add] at hlo ⊢
        omega
      | finite n' =>
        simp only [totalWeight_cons, totalWeight_nil, Bound.finite_add_finite, weight,
          Count.toNat_add]
        omega
  | split c hlo hlt hrest =>
    cases Bound.sub_eq_ok hrest with
    | inl hinf =>
      rw [hinf.1, hinf.2]
      simp only [totalWeight_cons, totalWeight_nil, weight, Count.toNat_zero]
      omega
    | inr hfin =>
      obtain ⟨m, k, rfl, rfl, hsum⟩ := hfin
      simp only [totalWeight_cons, totalWeight_nil, weight]
      omega

/-- The rules only pass the cap where two bricks over one content become one. What holds of that
rule, and of all rewriting of lists that weigh no more than the cap, holds of all rewriting. -/
theorem induction_within_cap {motive : List Brick → List Brick → Prop} (h : Rewrites l m)
    (hl : l.any Brick.isBottom = false) (refl : ∀ l, motive l l)
    (trans : ∀ l m n, motive l m → motive m n → motive l n)
    (append : ∀ l l' m m', motive l l' → motive m m' → motive (l ++ m) (l' ++ m'))
    (equal : ∀ (c : Content) (lo lo' : Count) (hi hi' : Bound),
      Brick.isBottom ⟨c, lo, hi⟩ = false → Brick.isBottom ⟨c, lo', hi'⟩ = false →
      motive [⟨c, lo, hi⟩, ⟨c, lo', hi'⟩] [⟨c, lo + lo', hi + hi'⟩])
    (within : ∀ l m, Rewrites l m → l.any Brick.isBottom = false → totalWeight l ≤ Count.cap →
      motive l m) : motive l m := by
  induction h with
  | refl l => exact refl l
  | trans h₁ _ ih₁ ih₂ => exact trans _ _ _ (ih₁ hl) (ih₂ (h₁.any_isBottom hl))
  | append _ _ ih₁ ih₂ =>
    rw [List.any_append, Bool.or_eq_false_iff] at hl
    exact append _ _ _ _ (ih₁ hl.1) (ih₂ hl.2)
  | equal c lo lo' hi hi' =>
    simp only [List.any_cons, List.any_nil, Bool.or_false, Bool.or_eq_false_iff] at hl
    exact equal c lo lo' hi hi' hl.1 hl.2
  | filler => exact within _ _ .filler hl (Nat.zero_le _)
  | single s t =>
    have hfit : 1 + (1 + 0) ≤ Count.cap := by decide
    exact within _ _ (.single s t) hl hfit
  | collapse c hk => exact within _ _ (.collapse c hk) hl (totalWeight_singleton_le _)
  | split c hlo hlt hrest =>
    exact within _ _ (.split c hlo hlt hrest) hl (totalWeight_singleton_le _)

end Rewrites

/-- The fillers are dropped at first, and none comes back. -/
theorem any_isFiller_normalizeWithin (rounds : Nat) {l : List Brick}
    (hl : l.any Brick.isBottom = false) :
    (normalizeWithin rounds l).any Brick.isFiller = false := by
  have hdropped : (dropFillers l).any Brick.isFiller = false := by simp [dropFillers]
  have hbot := (rewrites_dropFillers l).any_isBottom hl
  unfold normalizeWithin
  rw [hl]
  exact (rewrites_settle rounds (dropFillers l)).any_isFiller hbot hdropped

end NormalForm

end StringBricks
