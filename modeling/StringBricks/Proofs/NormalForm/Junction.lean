import StringBricks.Proofs.NormalForm.Segments
import StringBricks.Proofs.NormalForm.Rounds

/-!
# The normal form where two lists meet

A list of bricks that can be sorted into segments (`Segment.Fits`) is stable if no neighbours fuse
(`Segment.stable_of_reduced`). Of two such lists one after the other, the cycles fuse the two
segments that meet and change nothing else, so that the normal form is the one that is glued
(`Segment.normalize_append`).
-/

set_option autoImplicit false

namespace StringBricks

/-- What makes up a bound together with a count is what is left when the count is taken away. -/
theorem Bound.sub_of_add_eq {m n k : Count} (h : n.toNat + k.toNat = m.toNat) :
    (finite m).sub (.finite n) = .ok (finite k) := by
  have hle : n ≤ m := Nat.le.intro h
  have hrest : Count.ofNat (m.toNat - n.toNat) = k := by
    have hcap := k.toNat_le_cap
    apply Count.ext
    rw [Count.toNat_ofNat]
    omega
  rw [sub, if_pos hle, hrest]

namespace NormalForm

/-! ## Opening merged bricks -/

/-- A brick that occurs a fixed number of times is opened into its power. -/
theorem opened_exact (c : Content) {k : Count} (hk : 2 ≤ k.toNat) :
    opened ⟨c, k, .finite k⟩ = [⟨c.power k.toNat, 1, 1⟩] := by
  rw [opened, collapse_exact c hk]
  rfl

/-- Of unknown content that must occur twice, one occurrence stays mandatory. -/
theorem opened_unknown {hi rest : Bound} (h : hi.sub (.finite 2) = .ok rest) :
    opened ⟨.unknown, 2, hi⟩ = [⟨.unknown, 1, 1 + rest⟩] := by
  have hrange : .finite 2 ≤ hi := by
    obtain ⟨rfl, -⟩ | ⟨m, k, rfl, -, hsum⟩ := Bound.sub_eq_ok h
    · exact Bound.le_infinite _
    · exact Bound.finite_le_finite.2 (Nat.le.intro hsum)
  have hb : Brick.isBottom ⟨.unknown, 2, hi⟩ = false := Brick.not_isBottom_iff.2 ⟨hrange, nofun⟩
  have htwo : (2 : Count) ≠ 0 ∧ 2 ≤ (2 : Count).toNat := by decide
  obtain ⟨hexact, -⟩ | ⟨-, hlt, rest', hrest, hsplit⟩ := split_cases hb
  · have hhi : hi = .finite 2 := hexact.resolve_left htwo.1
    subst hhi
    cases h
    exact opened_exact .unknown htwo.2
  · cases h.symm.trans hrest
    rw [opened, collapse_of_lt hlt, hsplit, collapse_exact .unknown htwo.2]
    exact mergeEqual_pair_of_eq rfl

/-! ## Cycles around two neighbours -/

/-- Whether two neighbours cannot be merged. -/
def Apart (a b : Brick) : Prop := a.content ≠ b.content ∧ mergeSingle? a b = none

section Neighbors

variable {a b c : Brick} {l m : List Brick}

/-- Where only two bricks over the same content can be merged, a cycle that opens nothing adds their
ranges. -/
theorem cycle_of_mergeEqual? (hbot : (l ++ a :: b :: m).any Brick.isBottom = false)
    (hlo : ∀ d ∈ l ++ a :: b :: m, d.lo.toNat ≤ 1) (hl : (l ++ [a]).IsChain Apart)
    (hm : (b :: m).IsChain Apart) (h : mergeEqual? a b = some c) :
    cycle (l ++ a :: b :: m) = l ++ c :: m := by
  have hnone : ∀ {d e : Brick}, d.content ≠ e.content ↔ mergeEqual? d e = none :=
    mergeEqual?_eq_none_iff.symm
  have hequal : mergeEqual (l ++ a :: b :: m) = l ++ c :: m := by
    refine mergeNeighbors_junction (hl.imp fun _ _ hd => hnone.1 hd.1) h ?_
    refine (hm.imp fun _ _ hd => hnone.1 hd.1).imp_head ?_
    obtain ⟨hcontent, rfl⟩ := mergeEqual?_eq_some h
    intro d hd
    rw [← hnone] at hd ⊢
    exact hcontent ▸ hd
  have hsingles : mergeSingles (l ++ c :: m) = l ++ c :: m := by
    have hsum := mergeSingle?_of_mergeEqual? h
      (any_isBottom_eq_false_iff.1 hbot a (by simp)) (any_isBottom_eq_false_iff.1 hbot b (by simp))
    exact mergeNeighbors_eq_self_iff.2 (isChain_replace (hl.imp fun _ _ hd => hd.2)
      (hm.imp fun _ _ hd => hd.2) (fun _ => (hsum _).2) (fun _ => (hsum _).1))
  rw [cycle_of_lo_le hbot hlo, hequal, hsingles]

/-- Where only two pieces of different content can be merged, a cycle that opens nothing merges
them. -/
theorem cycle_of_mergeSingle? (hbot : (l ++ a :: b :: m).any Brick.isBottom = false)
    (hlo : ∀ d ∈ l ++ a :: b :: m, d.lo.toNat ≤ 1) (hl : (l ++ [a]).IsChain Apart)
    (hm : (b :: m).IsChain Apart) (hne : a.content ≠ b.content) (h : mergeSingle? a b = some c)
    (hc : (c :: m).IsChain Apart) : cycle (l ++ a :: b :: m) = l ++ c :: m := by
  have hequal : mergeEqual (l ++ a :: b :: m) = l ++ a :: b :: m := by
    refine mergeNeighbors_eq_self_iff.2 (List.IsChain.imp (fun _ _ => mergeEqual?_eq_none_iff.2) ?_)
    exact List.isChain_append_cons_cons.2
      ⟨hl.imp fun _ _ hd => hd.1, hne, hm.imp fun _ _ hd => hd.1⟩
  rw [cycle_of_lo_le hbot hlo, hequal]
  exact mergeNeighbors_junction (hl.imp fun _ _ hd => hd.2) h (hc.imp fun _ _ hd => hd.2)

/-- A cycle that opens one brick into one does nothing else if what comes of it is stable. -/
theorem cycle_of_opened (hbot : (l ++ b :: m).any Brick.isBottom = false)
    (hstable : Stable (l ++ b :: m)) (h : opened a = [b]) : cycle (l ++ a :: m) = l ++ b :: m := by
  obtain ⟨hlo, hneighbors⟩ := (stable_iff hbot).1 hstable
  obtain ⟨hequal, hsingles⟩ := hasMergeableNeighbors_eq_false_iff_merged.1 hneighbors
  rw [List.any_append, List.any_cons, Bool.or_eq_false_iff, Bool.or_eq_false_iff] at hbot
  rw [List.forall_mem_append, List.forall_mem_cons] at hlo
  have hopened : (l ++ a :: m).flatMap opened = l ++ b :: m := by
    rw [List.flatMap_append, List.flatMap_cons, h, flatMap_opened hbot.1 hlo.1,
      flatMap_opened hbot.2.2 hlo.2.2]
    rfl
  rw [cycle_eq, hopened, hequal, hsingles]

end Neighbors

end NormalForm

namespace Segment

open NormalForm

/-- The brick for a segment. -/
def brick : Segment → Brick
  | piece s => ⟨.known s, 1, 1⟩
  | gap false width => ⟨.unknown, 0, width⟩
  | gap true width => ⟨.unknown, 1, 1 + width⟩
  | range s lo hi => ⟨.known s, lo, hi⟩

/-- A list of segments that keep apart: whatever neighbouring stretches of it are reduced to, the
bricks for it can only be merged if it fuses, and need not occur more than once. -/
structure Fits (l : List Segment) : Prop where
  apart : ∀ {k m : List Segment} {p q : Segment}, k ++ m <:+: l → reduce k = [p] → reduce m = [q] →
    fuse? p q = none → Apart p.brick q.brick
  lo_le : ∀ {k : List Segment} {p : Segment}, k <:+: l → reduce k = [p] → p.brick.lo.toNat ≤ 1
  not_isBottom : (l.map brick).any Brick.isBottom = false
  not_isFiller : (l.map brick).any Brick.isFiller = false
  totalWeight_le : totalWeight (l.map brick) ≤ Count.cap

variable {p q r : Segment} {l m u v : List Segment}

/-- A stretch of segments that fit fits. -/
theorem Fits.of_within (h : Fits l) (hm : m <:+: l) : Fits m := by
  obtain ⟨s, t, rfl⟩ := hm
  have hbot := h.not_isBottom
  have hfiller := h.not_isFiller
  have hweight := h.totalWeight_le
  simp only [List.map_append, List.any_append, Bool.or_eq_false_iff, totalWeight_append]
    at hbot hfiller hweight
  exact ⟨fun hk => h.apart (hk.trans (List.infix_append s m t)),
    fun hk => h.lo_le (hk.trans (List.infix_append s m t)), hbot.1.2, hfiller.1.2, by omega⟩

/-- Segments whose bricks are apart do not fuse. -/
theorem none_of_apart (h : Apart p.brick q.brick) : fuse? p q = none := by
  cases hr : fuse? p q with
  | none => rfl
  | some r =>
    cases fuses_of_fuse? hr with
    | piece s t => cases h.2
    | gap m n w v => cases m <;> cases n <;> exact absurd rfl h.1
    | range s lo lo' hi hi' => exact absurd rfl h.1

/-! ## Merging two segments -/

/-- What is left of two mandatory gaps apart from the mandatory occurrences. -/
theorem sub_two_of_gaps {w v : Bound}
    (h : weight ⟨.unknown, 1, 1 + w⟩ + weight ⟨.unknown, 1, 1 + v⟩ ≤ Count.cap) :
    ((1 + w) + (1 + v)).sub (.finite 2) = .ok (w + v) := by
  cases w with
  | infinite => rfl
  | finite a =>
    cases v with
    | infinite => rfl
    | finite b =>
      have hcap : 2 ≤ Count.cap := by decide
      have htwo : (2 : Count).toNat = 2 := by decide
      have hle : (1 + a : Count).toNat + (1 + b : Count).toNat ≤ Count.cap := h
      refine Bound.sub_of_add_eq (m := (1 + a) + (1 + b)) (n := 2) (k := a + b) ?_
      simp only [Count.toNat_add, Count.toNat_one] at hle ⊢
      omega

/-- A brick over the content of two others that need not occur more than once is not opened. -/
theorem exists_opened_of_lo_le (h : mergeEqual? p.brick q.brick = some r.brick)
    (hbot : ([p, q].map brick).any Brick.isBottom = false) (hlo : r.brick.lo.toNat ≤ 1) :
    ∃ b, mergeEqual? p.brick q.brick = some b ∧ opened b = [r.brick] := by
  have hr : [r.brick].any Brick.isBottom = false := (rewrites_mergeEqual? h).any_isBottom hbot
  exact ⟨r.brick, h, opened_of_lo_le (by simpa using hr) hlo⟩

/-- The bricks of two segments that fuse are merged into the brick for what they fuse into, or into
one over the same content that opens as that brick. -/
theorem Fuses.merges (h : Fuses p q r) (hfits : Fits [p, q]) :
    (∃ b, mergeEqual? p.brick q.brick = some b ∧ opened b = [r.brick]) ∨
      (p.brick.content ≠ q.brick.content ∧ mergeSingle? p.brick q.brick = some r.brick) := by
  have hbot := hfits.not_isBottom
  cases h with
  | piece s t =>
    by_cases hst : s = t
    · subst hst
      exact .inl ⟨_, if_pos rfl, opened_exact (.known s) (k := 1 + 1) (by decide)⟩
    · exact .inr ⟨fun heq => hst (Content.known.inj heq), rfl⟩
  | gap m n w v =>
    left
    cases m with
    | false =>
      cases n with
      | false => exact exists_opened_of_lo_le rfl hbot (Nat.zero_le 1)
      | true =>
        have hsum : w + (1 + v) = 1 + (w + v) := by
          rw [← Bound.add_assoc, Bound.add_comm w 1, Bound.add_assoc]
        have hmerged := congrArg (fun hi => some (Brick.any 1 hi)) hsum
        exact exists_opened_of_lo_le hmerged hbot (Nat.le_refl 1)
    | true =>
      cases n with
      | false =>
        have hsum : 1 + w + v = 1 + (w + v) := Bound.add_assoc 1 w v
        have hmerged := congrArg (fun hi => some (Brick.any 1 hi)) hsum
        exact exists_opened_of_lo_le hmerged hbot (Nat.le_refl 1)
      | true =>
        have hweight : weight ⟨.unknown, 1, 1 + w⟩ + weight ⟨.unknown, 1, 1 + v⟩ ≤ Count.cap :=
          hfits.totalWeight_le
        exact ⟨_, if_pos rfl, opened_unknown (sub_two_of_gaps hweight)⟩
  | range s lo lo' hi hi' =>
    have hreduce : reduce [.range s lo hi, .range s lo' hi'] = [.range s (lo + lo') (hi + hi')] :=
      push_of_fuses (.range s lo lo' hi hi')
    have hlo := hfits.lo_le (List.infix_refl _) hreduce
    exact .inl (exists_opened_of_lo_le (if_pos rfl) hbot hlo)

/-- The rules fuse two segments that do. -/
theorem Fuses.rewrites (h : Fuses p q r) (hfits : Fits [p, q]) :
    Rewrites [p.brick, q.brick] [r.brick] := by
  obtain ⟨b, hb, hopened⟩ | ⟨-, hsingle⟩ := h.merges hfits
  · exact (rewrites_mergeEqual? hb).trans (hopened ▸ rewrites_opened b)
  · exact rewrites_mergeSingle? hsingle

namespace Fits

/-- The bricks of segments that fit need not occur more than once. -/
theorem forall_lo_le (h : Fits l) : ∀ b ∈ l.map brick, b.lo.toNat ≤ 1 := by
  intro b hb
  obtain ⟨p, hp, rfl⟩ := List.mem_map.1 hb
  obtain ⟨s, t, rfl⟩ := List.append_of_mem hp
  exact h.lo_le (k := [p]) ⟨s, t, by simp⟩ rfl

/-- Two neighbours among segments that fit fit. -/
theorem pair (h : Fits (l ++ p :: q :: m)) : Fits [p, q] :=
  h.of_within ⟨l, m, by simp⟩

/-- Segments that fit still do when two neighbours fuse. -/
theorem fuse (h : Fits (l ++ p :: q :: m)) (hf : Fuses p q r) : Fits (l ++ r :: m) := by
  have hrules : Rewrites ((l ++ p :: q :: m).map brick) ((l ++ r :: m).map brick) := by
    rw [List.map_append, List.map_append]
    exact .append (.refl _) (.append (hf.rewrites h.pair) (.refl _))
  have hfused := FusesTo.fuse l m hf
  refine ⟨?apart, ?lo, hrules.any_isBottom h.not_isBottom,
    hrules.any_isFiller h.not_isBottom h.not_isFiller,
    Nat.le_trans (hrules.totalWeight_le h.not_isBottom) h.totalWeight_le⟩
  case apart =>
    intro k j x y hwithin hx hy hnone
    obtain ⟨k', j', hwithin', hk, hj⟩ := hfused.exists_within hwithin
    exact h.apart hwithin' (hk.trans hx) (hj.trans hy) hnone
  case lo =>
    intro k x hwithin hx
    have hnil : k ++ [] <:+: l ++ r :: m := (List.append_nil k).symm ▸ hwithin
    obtain ⟨k', j', hwithin', hk, -⟩ := hfused.exists_within hnil
    exact h.lo_le ((List.infix_append' [] k' j').trans hwithin') (hk.trans hx)

end Fits

/-! ## Normal forms -/

/-- The bricks of segments that do not fuse are apart. -/
theorem isChain_brick (h : Fits l) (hreduced : Reduced l) : (l.map brick).IsChain Apart := by
  refine (List.isChain_map brick).2 (List.isChain_iff_forall_rel_of_append_cons_cons.2 ?_)
  rintro p q k m rfl
  have hnone := List.isChain_iff_forall_rel_of_append_cons_cons.1 hreduced rfl
  exact h.apart (k := [p]) (m := [q]) ⟨k, m, by simp⟩ rfl rfl hnone

/-- Segments of which no neighbours fuse are stable. -/
theorem stable_of_reduced (h : Fits l) (hreduced : Reduced l) : Stable (l.map brick) := by
  rw [stable_iff h.not_isBottom, hasMergeableNeighbors_eq_false_iff]
  exact ⟨h.forall_lo_le, isChain_brick h hreduced⟩

/-- At most two cycles fuse the two segments that meet, and nothing else. -/
theorem exists_cycled_eq (h : Fits (l ++ p :: q :: m)) (hl : Reduced (l ++ [p]))
    (hm : Reduced (q :: m)) (hf : Fuses p q r) :
    ∃ n, n ≤ 2 ∧ cycled n ((l ++ p :: q :: m).map brick) = (l ++ r :: m).map brick := by
  have hbefore := isChain_brick (h.of_within ⟨[], q :: m, by simp⟩) hl
  have hafter := isChain_brick (h.of_within ⟨l ++ [p], [], by simp⟩) hm
  have hfused := h.fuse hf
  have hreduced := reduced_of_fuses hl hm hf
  have hbot := h.not_isBottom
  have hbot' := hfused.not_isBottom
  have hlo := h.forall_lo_le
  have hstable := stable_of_reduced hfused hreduced
  simp only [List.map_append, List.map_cons, List.map_nil]
    at hbefore hafter hbot hbot' hlo hstable ⊢
  obtain ⟨b, hb, hopened⟩ | ⟨hne, hsingle⟩ := hf.merges h.pair
  · refine ⟨2, Nat.le_refl 2, ?_⟩
    calc cycled 2 (l.map brick ++ p.brick :: q.brick :: m.map brick)
      _ = cycle (cycle (l.map brick ++ p.brick :: q.brick :: m.map brick)) := rfl
      _ = cycle (l.map brick ++ b :: m.map brick) :=
        congrArg cycle (cycle_of_mergeEqual? hbot hlo hbefore hafter hb)
      _ = l.map brick ++ r.brick :: m.map brick := cycle_of_opened hbot' hstable hopened
  · have hrest :=
      isChain_brick (hfused.of_within ⟨l, [], by simp⟩) (List.isChain_split.1 hreduced).2
    exact ⟨1, Nat.le_succ 1, cycle_of_mergeSingle? hbot hlo hbefore hafter hne hsingle hrest⟩

/-- **The normal form of two lists of segments one after the other is what they are glued to.** -/
theorem normalize_append (h : Fits (u ++ v)) (hu : Reduced u) (hv : Reduced v) :
    normalize ((u ++ v).map brick) = (glue u v).map brick := by
  have hsettle : normalize ((u ++ v).map brick) = settle maxCycles ((u ++ v).map brick) := by
    rw [normalize, normalizeWithin_eq_settle maxCycles h.not_isBottom,
      dropFillers_of_any_isFiller h.not_isFiller]
  rw [hsettle]
  obtain ⟨hreduced, hglue⟩ | ⟨l, p, q, m, r, rfl, rfl, hf, hreduced, hglue⟩ := glue_cases hu hv
  · rw [hglue, settle_of_stable (stable_of_reduced h hreduced)]
  · rw [List.append_assoc] at h ⊢
    obtain ⟨n, hn, hcycled⟩ := exists_cycled_eq h hu hv hf
    have hstable := stable_of_reduced (h.fuse hf) hreduced
    rw [← hcycled] at hstable
    rw [hglue, ← hcycled]
    exact settle_eq_cycled (Nat.le_trans hn (by decide)) hstable

/-- Segments that fit still do when two lists among them are glued. -/
theorem Fits.glue {w : List Segment} (h : Fits (l ++ (u ++ v) ++ w)) (hu : Reduced u)
    (hv : Reduced v) : Fits (l ++ Segment.glue u v ++ w) := by
  obtain ⟨-, hglue⟩ | ⟨k, p, q, m, r, rfl, rfl, hf, -, hglue⟩ := glue_cases hu hv
  · rw [hglue]
    exact h
  · have hfuse : Fits ((l ++ k) ++ p :: q :: (m ++ w)) := by simpa using h
    have hfused := hfuse.fuse hf
    rw [hglue]
    simpa using hfused

end Segment

end StringBricks
