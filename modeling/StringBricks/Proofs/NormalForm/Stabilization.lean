import StringBricks.Proofs.NormalForm.Merging
import Mathlib.Data.Prod.Lex

/-!
# The normal form is reached

A list is stable exactly if no brick must occur more than once and no two neighbours can be merged
(`NormalForm.stable_iff`). A cycle that changes a list takes away from its mandatory repetitions, or
keeps them and takes away from its bricks, so only finitely many cycles change anything
(`NormalForm.exists_stable`). The normal form that is found before the rounds run out is stable, and
is its own normal form.
-/

set_option autoImplicit false

namespace StringBricks

namespace NormalForm

variable {l : List Brick}

/-! ## What a cycle makes of one brick -/

/-- A brick that must occur a fixed number of times, more than once, collapses into its power. -/
theorem collapse_exact (c : Content) {k : Count} (hk : 2 ≤ k.toNat) :
    NormalForm.collapse ⟨c, k, .finite k⟩ = ⟨c.power k.toNat, 1, 1⟩ := by
  simp [NormalForm.collapse, Brick.exactCount?, Bound.finite?, Option.filter, hk]

/-- A brick with more than one choice of repetitions does not collapse. -/
theorem collapse_of_lt {b : Brick} (h : .finite b.lo < b.hi) : NormalForm.collapse b = b := by
  have hnone : b.exactCount? = none := by
    cases hk : b.exactCount? with
    | none => rfl
    | some k =>
      rw [Brick.exactCount?_eq_some hk] at h
      exact absurd le_rfl h
  unfold NormalForm.collapse
  rw [hnone]

/-- A brick that need not occur more than once does not collapse. -/
theorem collapse_of_lo_le {b : Brick} (hlo : b.lo.toNat ≤ 1) : NormalForm.collapse b = b := by
  unfold NormalForm.collapse
  cases hk : b.exactCount? with
  | none => rfl
  | some k =>
    have hb := Brick.exactCount?_eq_some hk
    have hk' : ¬ 2 ≤ k.toNat := by
      rw [hb] at hlo
      exact Nat.not_le.2 (Nat.lt_succ_of_le hlo)
    exact if_neg hk'

/-- Splitting leaves something. -/
theorem split_ne_nil (b : Brick) : split b ≠ [] := by
  unfold split
  split
  · cases b.hi.sub b.lo <;> nofun
  · nofun

/-- A brick is split exactly if it must occur, but not any fixed number of times. -/
theorem split_cases {b : Brick} (hb : b.isBottom = false) :
    ((b.lo = 0 ∨ b.hi = .finite b.lo) ∧ split b = [b]) ∨
      (1 ≤ b.lo.toNat ∧ .finite b.lo < b.hi ∧ ∃ rest, b.hi.sub (.finite b.lo) = .ok rest ∧
        split b = [NormalForm.collapse ⟨b.content, b.lo, .finite b.lo⟩, ⟨b.content, 0, rest⟩]) := by
  have hrange := Brick.lo_le_hi hb
  by_cases hlo : 1 ≤ b.lo.toNat
  · by_cases hhi : b.hi ≤ .finite b.lo
    · refine .inl ⟨.inr (hhi.antisymm hrange), ?_⟩
      simp [split, not_lt.2 hhi]
    · rw [not_le] at hhi
      obtain ⟨rest, hrest⟩ := Bound.exists_sub_eq_ok hrange
      have hguaranteed : b.isGuaranteed = true := decide_eq_true hlo
      refine .inr ⟨hlo, hhi, rest, hrest, ?_⟩
      simp [split, hguaranteed, hhi, hb, hrest]
  · have hguaranteed : b.isGuaranteed = false := decide_eq_false hlo
    have hzero : b.lo = 0 := Count.ext (Nat.lt_one_iff.1 (Nat.not_le.1 hlo))
    refine .inl ⟨.inl hzero, ?_⟩
    simp [split, hguaranteed]

/-- What a cycle makes of a brick before it merges the neighbours in the list. A single mandatory
occurrence that is split off is put back at once. -/
def opened (b : Brick) : List Brick := mergeEqual (split (NormalForm.collapse b))

/-- A cycle opens every brick and merges neighbours. -/
theorem cycle_eq (l : List Brick) : cycle l = mergeSingles (mergeEqual (l.flatMap opened)) := by
  unfold cycle splitRanges
  rw [List.flatMap_map]
  exact congrArg mergeSingles (mergeEqual_flatMap (fun b => split_ne_nil _) l).symm

/-- What a cycle makes of one brick is an instance of the rules. -/
theorem rewrites_opened (b : Brick) : Rewrites [b] (opened b) :=
  ((rewrites_collapse b).trans (rewrites_split _)).trans
    (rewrites_mergeNeighbors rewrites_mergeEqual? _)

/-- A brick that need not occur more than once is left as it is. -/
theorem opened_of_lo_le {b : Brick} (hb : b.isBottom = false) (hlo : b.lo.toNat ≤ 1) :
    opened b = [b] := by
  unfold opened
  rw [collapse_of_lo_le hlo]
  obtain ⟨-, hsplit⟩ | ⟨-, -, rest, hrest, hsplit⟩ := split_cases hb
  · rw [hsplit]
    rfl
  · have hhead : NormalForm.collapse ⟨b.content, b.lo, .finite b.lo⟩ =
        ⟨b.content, b.lo, .finite b.lo⟩ := collapse_of_lo_le hlo
    rw [hsplit, hhead, mergeEqual_pair_of_eq (by rfl), Count.add_zero, Bound.add_eq_of_sub hrest]

/-- A brick that must occur more than once becomes one of its power, and what is left of its range
follows, unless the power is the same content again. -/
theorem opened_cases {b : Brick} (hb : b.isBottom = false) (hlo : 2 ≤ b.lo.toNat) :
    ∃ head, head.content = b.content.power b.lo.toNat ∧ head.lo = 1 ∧
      (opened b = [head] ∨ ∃ rest, head.content ≠ b.content ∧
        opened b = [head, ⟨b.content, 0, rest⟩]) := by
  unfold opened
  obtain ⟨hexact, -⟩ | ⟨-, hlt, rest, -, hsplit⟩ := split_cases hb
  · have hhi : b.hi = .finite b.lo := by
      refine hexact.resolve_left ?_
      intro hzero
      rw [hzero] at hlo
      exact absurd hlo (by decide)
    obtain ⟨content, lo, hi⟩ := b
    simp only at hhi hlo
    subst hhi
    rw [collapse_exact content hlo]
    exact ⟨_, rfl, rfl, .inl rfl⟩
  · rw [collapse_of_lt hlt, hsplit, collapse_exact b.content hlo]
    by_cases hpower : b.content.power b.lo.toNat = b.content
    · refine ⟨⟨b.content.power b.lo.toNat, 1 + 0, 1 + rest⟩, rfl, rfl, .inl ?_⟩
      exact mergeEqual_pair_of_eq hpower
    · refine ⟨⟨b.content.power b.lo.toNat, 1, 1⟩, rfl, rfl, .inr ⟨rest, hpower, ?_⟩⟩
      exact mergeEqual_pair_of_ne hpower

/-! ## What a cycle takes away -/

/-- Opening takes away from the mandatory repetitions, unless no brick must occur more than once. -/
theorem lo_le_of_totalMinimum_le (hl : l.any Brick.isBottom = false)
    (h : totalMinimum l ≤ totalMinimum (l.flatMap opened)) : ∀ b ∈ l, b.lo.toNat ≤ 1 := by
  induction l with
  | nil => exact nofun
  | cons b l ih =>
    rw [List.any_cons, Bool.or_eq_false_iff] at hl
    have hb := (rewrites_opened b).totalMinimum_le
    have hrest := (rewrites_flatMap rewrites_opened l).totalMinimum_le
    rw [List.flatMap_cons, totalMinimum_append, totalMinimum_cons] at h
    rw [totalMinimum_cons, totalMinimum_nil] at hb
    refine List.forall_mem_cons.2 ⟨?_, ih hl.2 (by omega)⟩
    by_contra hlo
    have hone : totalMinimum (opened b) = 1 := by
      obtain ⟨head, -, hhead, hopened | ⟨rest, -, hopened⟩⟩ := opened_cases hl.1 (by omega) <;>
        rw [hopened, totalMinimum_cons, hhead] <;> rfl
    omega

/-- Where no brick must occur more than once, there is nothing to open. -/
theorem flatMap_opened (hl : l.any Brick.isBottom = false) (hlo : ∀ b ∈ l, b.lo.toNat ≤ 1) :
    l.flatMap opened = l := by
  refine (List.flatMap_congr ?_).trans (List.flatMap_singleton' l)
  intro b hb
  exact opened_of_lo_le (any_isBottom_eq_false_iff.1 hl b hb) (hlo b hb)

/-- Where no brick must occur more than once, a cycle does nothing but merge. -/
theorem cycle_of_lo_le (hl : l.any Brick.isBottom = false) (hlo : ∀ b ∈ l, b.lo.toNat ≤ 1) :
    cycle l = mergeSingles (mergeEqual l) := by
  rw [cycle_eq, flatMap_opened hl hlo]

/-- A cycle that takes nothing away from the mandatory repetitions only merges bricks over the same
content. -/
theorem cycle_eq_mergeEqual (hl : l.any Brick.isBottom = false)
    (h : totalMinimum l ≤ totalMinimum (cycle l)) :
    (∀ b ∈ l, b.lo.toNat ≤ 1) ∧ cycle l = mergeEqual l := by
  have hlo : ∀ b ∈ l, b.lo.toNat ≤ 1 := by
    apply lo_le_of_totalMinimum_le hl
    rw [cycle_eq] at h
    have hmerged := (rewrites_mergeNeighbors rewrites_mergeEqual? (l.flatMap opened)).trans
      (rewrites_mergeNeighbors rewrites_mergeSingle? _)
    exact Nat.le_trans h hmerged.totalMinimum_le
  have hmerged := (rewrites_mergeNeighbors rewrites_mergeEqual? l).totalMinimum_le
  rw [cycle_of_lo_le hl hlo] at h ⊢
  exact ⟨hlo, mergeSingles_eq_of_totalMinimum_le (Nat.le_trans hmerged h)⟩

/-- A list is stable exactly if no brick must occur more than once and no neighbours can be
merged. -/
theorem stable_iff (hl : l.any Brick.isBottom = false) :
    Stable l ↔ (∀ b ∈ l, b.lo.toNat ≤ 1) ∧ hasMergeableNeighbors l = false := by
  rw [hasMergeableNeighbors_eq_false_iff_merged]
  constructor
  · intro hstable
    have hsame : cycle l = l := hstable
    obtain ⟨hlo, hcycle⟩ := cycle_eq_mergeEqual hl (Nat.le_of_eq (congrArg totalMinimum hsame.symm))
    have hequal : mergeEqual l = l := hcycle.symm.trans hsame
    rw [cycle_of_lo_le hl hlo, hequal] at hsame
    exact ⟨hlo, hequal, hsame⟩
  · rintro ⟨hlo, hequal, hsingles⟩
    show cycle l = l
    rw [cycle_of_lo_le hl hlo, hequal, hsingles]

/-- The mandatory repetitions of a list, and then the number of its bricks. -/
def size (l : List Brick) : Nat ×ₗ Nat := toLex (totalMinimum l, l.length)

/-- A cycle that changes a list makes it smaller. -/
theorem size_cycle_lt (hl : l.any Brick.isBottom = false) (h : ¬ Stable l) :
    size (cycle l) < size l := by
  have hle := (rewrites_cycle l).totalMinimum_le
  rw [size, size, Prod.Lex.toLex_lt_toLex]
  by_cases hlt : totalMinimum (cycle l) < totalMinimum l
  · exact .inl hlt
  · have hcycle := (cycle_eq_mergeEqual hl (Nat.le_of_not_lt hlt)).2
    refine .inr ⟨Nat.le_antisymm hle (Nat.le_of_not_lt hlt), ?_⟩
    show (cycle l).length < l.length
    rw [hcycle]
    apply Nat.lt_of_not_le
    intro hlen
    exact h (hcycle.trans (mergeNeighbors_eq_of_length_le hlen))

/-! ## Repeated cycles -/

/-- One more cycle is run at the end. -/
theorem cycled_add_one (n : Nat) (l : List Brick) : cycled (n + 1) l = cycle (cycled n l) := rfl

/-- One more cycle may as well be run at the start. -/
theorem cycled_succ (n : Nat) (l : List Brick) : cycled (n + 1) l = cycled n (cycle l) := by
  induction n with
  | zero => rfl
  | succ n ih => exact congrArg cycle ih

/-- Only finitely many cycles change anything. -/
theorem exists_stable (hl : l.any Brick.isBottom = false) : ∃ n, Stable (cycled n l) := by
  induction hsize : size l using WellFoundedLT.induction generalizing l with
  | ind s ih =>
    by_cases hstable : Stable l
    · exact ⟨0, hstable⟩
    · have hlt := size_cycle_lt hl hstable
      rw [hsize] at hlt
      obtain ⟨n, hn⟩ := ih _ hlt ((rewrites_cycle l).any_isBottom hl) rfl
      exact ⟨n + 1, (cycled_succ n l).symm ▸ hn⟩

/-- A stable list is settled. -/
theorem settle_of_stable (h : Stable l) (rounds : Nat) : settle rounds l = l := by
  cases rounds with
  | zero => rfl
  | succ rounds => exact if_pos h

/-- A list that is not stable takes one of the rounds. -/
theorem settle_succ_of_not_stable (h : ¬ Stable l) (rounds : Nat) :
    settle (rounds + 1) l = settle rounds (cycle l) := if_neg h

/-- No number of cycles changes a stable list. -/
theorem cycled_of_stable (h : Stable l) (n : Nat) : cycled n l = l := by
  induction n with
  | zero => rfl
  | succ n ih => exact (congrArg cycle ih).trans h

/-- A stable list that is reached before the rounds run out is what comes of them. -/
theorem settle_eq_cycled {n rounds : Nat} (hn : n ≤ rounds) (h : Stable (cycled n l)) :
    settle rounds l = cycled n l := by
  induction rounds generalizing n l with
  | zero =>
    rw [Nat.le_zero.1 hn]
    rfl
  | succ rounds ih =>
    by_cases hstable : Stable l
    · rw [settle_of_stable hstable, cycled_of_stable hstable]
    · rw [settle_succ_of_not_stable hstable]
      cases n with
      | zero => exact absurd h hstable
      | succ n =>
        rw [cycled_succ] at h ⊢
        exact ih (Nat.le_of_succ_le_succ hn) h

/-- What is stable after fewer cycles than there are rounds is settled into a stable list. -/
theorem stable_settle {n rounds : Nat} (hn : n ≤ rounds) (h : Stable (cycled n l)) :
    Stable (settle rounds l) := by
  rw [settle_eq_cycled hn h]
  exact h

/-- Settling does not make a list larger. -/
theorem size_settle_le (hl : l.any Brick.isBottom = false) (rounds : Nat) :
    size (settle rounds l) ≤ size l := by
  induction rounds generalizing l with
  | zero => exact le_refl _
  | succ rounds ih =>
    by_cases hstable : Stable l
    · rw [settle_of_stable hstable]
    · rw [settle_succ_of_not_stable hstable]
      have hcycle := ih ((rewrites_cycle l).any_isBottom hl)
      exact le_trans hcycle (le_of_lt (size_cycle_lt hl hstable))

/-- Only a stable list comes back from the rounds, if there are any. -/
theorem stable_of_settle_eq (hl : l.any Brick.isBottom = false) {rounds : Nat}
    (h : settle (rounds + 1) l = l) : Stable l := by
  by_contra hstable
  rw [settle_succ_of_not_stable hstable] at h
  have hle := size_settle_le ((rewrites_cycle l).any_isBottom hl) rounds
  rw [h] at hle
  exact absurd (size_cycle_lt hl hstable) (not_lt_of_ge hle)

/-! ## The normal form -/

/-- A list with a brick for no string is normalized to such a brick alone. -/
theorem normalizeWithin_of_isBottom (rounds : Nat) (hl : l.any Brick.isBottom = true) :
    normalizeWithin rounds l = [Brick.bottom] := if_pos hl

/-- Where every brick stands for something, the fillers are dropped and the cycles run. -/
theorem normalizeWithin_eq_settle (rounds : Nat) (hl : l.any Brick.isBottom = false) :
    normalizeWithin rounds l = settle rounds (dropFillers l) := by
  unfold normalizeWithin
  rw [hl]
  rfl

/-- What settles within some rounds does so within more. -/
theorem SettlesWithin.mono {rounds rounds' : Nat} (h : SettlesWithin rounds l)
    (hle : rounds ≤ rounds') : SettlesWithin rounds' l :=
  h.imp_right fun ⟨n, hn, hstable⟩ => ⟨n, Nat.lt_of_lt_of_le hn hle, hstable⟩

/-- The normal form of a list that settles is stable. The last round may also be the one that
reaches it. -/
theorem stable_normalizeWithin {rounds : Nat} (hl : l.any Brick.isBottom = false)
    (h : SettlesWithin (rounds + 1) l) : Stable (normalizeWithin rounds l) := by
  obtain hbot | ⟨n, hn, hstable⟩ := h
  · rw [hl] at hbot
    cases hbot
  · rw [normalizeWithin_eq_settle rounds hl]
    exact stable_settle (Nat.le_of_lt_succ hn) hstable

/-- Where there are no fillers, none are dropped. -/
theorem dropFillers_of_any_isFiller (h : l.any Brick.isFiller = false) : dropFillers l = l := by
  unfold dropFillers
  rw [List.filter_eq_self]
  intro b hb
  simpa using List.any_eq_false.1 h b hb

/-- A stable list without fillers is its own normal form. -/
theorem normalizeWithin_of_stable (rounds : Nat) (hl : l.any Brick.isBottom = false)
    (hfiller : l.any Brick.isFiller = false) (h : Stable l) : normalizeWithin rounds l = l := by
  rw [normalizeWithin_eq_settle rounds hl, dropFillers_of_any_isFiller hfiller, settle_of_stable h]

/-- The only brick with an exact number of repetitions that stable lists can have, besides those
that occur once, is unknown content that does not occur. -/
theorem exactCount?_of_lo_le {b : Brick} (hb : b.isBottom = false) (hfiller : b.isFiller = false)
    (hlo : b.lo.toNat ≤ 1) :
    b.exactCount? = none ∨ b.exactCount? = some 1 ∨ (b.exactCount? = some 0 ∧ b = .any 0 0) := by
  cases hk : b.exactCount? with
  | none => exact .inl rfl
  | some k =>
    have heq := Brick.exactCount?_eq_some hk
    have hkone : k.toNat ≤ 1 := by
      rw [heq] at hlo
      exact hlo
    by_cases hzero : k.toNat = 0
    · have hk0 : k = 0 := Count.ext hzero
      rw [hk0] at heq
      refine .inr (.inr ⟨congrArg some hk0, ?_⟩)
      cases hc : b.content with
      | unknown =>
        rw [heq, hc]
        rfl
      | known members =>
        have hhi : b.hi = 0 := congrArg Brick.hi heq
        have hempty := ((Brick.not_isBottom_iff.1 hb).2 members hc).2 hhi
        rw [Brick.isFiller_iff.2 (Brick.eq_filler hb (hempty ▸ hc))] at hfiller
        cases hfiller
    · have hk1 : k = 1 := by
        apply Count.ext
        show k.toNat = 1
        omega
      exact .inr (.inl (congrArg some hk1))

/-- **The normal form is reached**: repeating the cycle on a list without bricks for no string leads
to a list that it does not change. A normal form that is found before the rounds run out is its own
normal form, has no neighbours that can be merged and no filler, and unless it is the one for no
string its bricks must occur at most once, and exactly once if their number is fixed at all, apart
from unknown content that does not occur. -/
theorem normal_form_reached :
    (∀ l : List Brick, l.any Brick.isBottom = false → ∃ n, Stable (cycled n (dropFillers l))) ∧
    ∀ l : List Brick, SettlesWithin maxCycles l →
      normalize (normalize l) = normalize l ∧
      hasMergeableNeighbors (normalize l) = false ∧
      (∀ b ∈ normalize l, b.isFiller = false) ∧
      ((normalize l).any Brick.isBottom = false → ∀ b ∈ normalize l,
        b.lo.toNat ≤ 1 ∧ (b.exactCount? = none ∨ b.exactCount? = some 1 ∨
          (b.exactCount? = some 0 ∧ b = .any 0 0))) := by
  refine ⟨?_, ?_⟩
  · intro l hl
    exact exists_stable ((rewrites_dropFillers l).any_isBottom hl)
  · intro l hsettles
    by_cases hl : l.any Brick.isBottom = true
    · have hnormal : normalize l = [Brick.bottom] := normalizeWithin_of_isBottom maxCycles hl
      rw [hnormal]
      refine ⟨rfl, rfl, by decide, ?_⟩
      intro hbot
      exact absurd hbot (by decide)
    · rw [Bool.not_eq_true] at hl
      have hbot : (normalize l).any Brick.isBottom = false :=
        (rewrites_normalizeWithin maxCycles hl).any_isBottom hl
      have hfiller : (normalize l).any Brick.isFiller = false :=
        any_isFiller_normalizeWithin maxCycles hl
      have hstable : Stable (normalize l) :=
        stable_normalizeWithin hl (hsettles.mono (Nat.le_succ _))
      have hfillers : ∀ b ∈ normalize l, b.isFiller = false := by
        simpa using hfiller
      have hbots : ∀ b ∈ normalize l, b.isBottom = false := by
        simpa using hbot
      obtain ⟨hlo, hneighbors⟩ := (stable_iff hbot).1 hstable
      refine ⟨normalizeWithin_of_stable maxCycles hbot hfiller hstable, hneighbors, hfillers, ?_⟩
      intro _ b hb
      exact ⟨hlo b hb, exactCount?_of_lo_le (hbots b hb) (hfillers b hb) (hlo b hb)⟩

/-- Two bricks that merge into one that occurs twice, whose power then merges with what is split off
the third: the third cycle changes nothing more. -/
theorem normal_form_reached_after_two :
    [Brick.literal "a", Brick.literal "a", .of ["b"] 2 3].any Brick.isBottom = false ∧
    SettlesWithin maxCycles [Brick.literal "a", Brick.literal "a", .of ["b"] 2 3] ∧
    (∃ n, Stable (cycled n (dropFillers [Brick.literal "a", Brick.literal "a", .of ["b"] 2 3]))) ∧
    normalize (normalize [Brick.literal "a", Brick.literal "a", .of ["b"] 2 3]) =
      normalize [Brick.literal "a", Brick.literal "a", .of ["b"] 2 3] ∧
    hasMergeableNeighbors (normalize [Brick.literal "a", Brick.literal "a", .of ["b"] 2 3]) =
      false := by
  have hsettles : SettlesWithin maxCycles [Brick.literal "a", Brick.literal "a", .of ["b"] 2 3] :=
    .inr ⟨2, by decide, by decide⟩
  have hreached := normal_form_reached.2 _ hsettles
  exact ⟨by decide, hsettles, normal_form_reached.1 _ (by decide), hreached.1, hreached.2.1⟩

end NormalForm

end StringBricks
