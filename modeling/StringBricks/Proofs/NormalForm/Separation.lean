import StringBricks.Proofs.NormalForm.Junction

/-!
# Separated bricks

Neighbours that occur exactly once are merged into their product, and neighbours over one set are
merged by adding their ranges. A list is separated (`NormalForm.Separated`) if the one cannot get in
the way of the other. The bricks of a list that is its own normal form are those of segments
(`Segment.exists_segments`), and if it is separated these segments fit
(`Segment.fits_of_separated`).
-/

set_option autoImplicit false

namespace StringBricks

namespace NormalForm

/-- Bricks that occur exactly once, and the product of their sets. -/
inductive Product : List Brick → StringSet → Prop
  | single (s : StringSet) : Product [⟨.known s, 1, 1⟩] s
  | cons (s : StringSet) {t : StringSet} {k : List Brick} :
      Product k t → Product (⟨.known s, 1, 1⟩ :: k) (s.cross t)

/-- Whether bricks that do not occur exactly once keep apart from those that do: none stands beside
some of the others whose product is its set, and of neighbours over one set at most one occurrence
is mandatory. -/
structure Separated (l : List Brick) : Prop where
  isSingle : ∀ {k : List Brick} {s : StringSet} {d : Brick},
    k ++ [d] <:+: l ∨ d :: k <:+: l → Product k s → d.content = .known s → d.isSingle = true
  totalMinimum_le : ∀ {k : List Brick} {s : StringSet}, k <:+: l →
    (∀ d ∈ k, d.content = .known s ∧ d.isSingle = false) → totalMinimum k ≤ 1

/-- Where every known set occurs exactly once, there is nothing to keep apart. -/
theorem separated_of_isSingle {l : List Brick}
    (h : ∀ d ∈ l, ∀ s, d.content = .known s → d.isSingle = true) : Separated l := by
  constructor
  case isSingle =>
    rintro k s d (hwithin | hwithin) - hd
    · exact h d (hwithin.subset (by simp)) s hd
    · exact h d (hwithin.subset (by simp)) s hd
  case totalMinimum_le =>
    intro k s hwithin hk
    cases k with
    | nil => exact Nat.zero_le 1
    | cons d k =>
      obtain ⟨hcontent, hsingle⟩ := hk d List.mem_cons_self
      have hsingle' := h d (hwithin.subset List.mem_cons_self) s hcontent
      exact Bool.noConfusion (hsingle.symm.trans hsingle')

end NormalForm

namespace Segment

open NormalForm

variable {p q r : Segment} {k l m : List Segment}

/-- Whether a set that does not occur exactly once is no piece, and may occur. -/
def Sorted : Segment → Prop
  | range s lo hi => Brick.isSingle ⟨.known s, lo, hi⟩ = false ∧ hi ≠ 0
  | _ => True

/-- What sorted segments fuse into is sorted. -/
theorem Fuses.sorted (h : Fuses p q r) (hp : p.Sorted) (hq : q.Sorted) : r.Sorted := by
  cases h with
  | piece s t => trivial
  | gap m n w v => trivial
  | range s lo lo' hi hi' =>
    refine ⟨?_, fun hzero => hp.2 (Bound.add_eq_zero_iff.1 hzero).1⟩
    rw [Bool.eq_false_iff, Ne, Brick.isSingle_iff]
    exact fun hone => Bound.add_ne_one hp.2 hq.2 hone.2

/-- A set that occurs exactly once is a piece. -/
theorem eq_piece {s : StringSet} (hp : p.Sorted) (h : p.brick = ⟨.known s, 1, 1⟩) :
    p = piece s := by
  cases p with
  | piece t =>
    cases h
    rfl
  | gap mandatory width => cases mandatory <;> cases h
  | range t lo hi =>
    have hsingle : Brick.isSingle ⟨.known t, lo, hi⟩ = false := hp.1
    rw [show (⟨.known t, lo, hi⟩ : Brick) = ⟨.known s, 1, 1⟩ from h] at hsingle
    cases hsingle

/-! ## What neighbours are reduced to -/

/-- What sorted segments are reduced to is sorted, if it is one segment. -/
theorem sorted_of_reduce (hk : ∀ p ∈ k, p.Sorted) (h : reduce k = [p]) : p.Sorted := by
  induction k generalizing p with
  | nil => cases h
  | cons q k ih =>
    rw [List.forall_mem_cons] at hk
    obtain ⟨-, rfl⟩ | ⟨r, hr, hfuses⟩ := reduce_cons_eq h
    · exact hk.1
    · exact hfuses.sorted hk.1 (ih hk.2 hr)

/-- Only pieces are reduced to a piece, which is their product. -/
theorem product_of_reduce {s : StringSet} (h : reduce k = [piece s]) : Product (k.map brick) s := by
  induction k generalizing s with
  | nil => cases h
  | cons p k ih =>
    obtain ⟨rfl, rfl⟩ | ⟨q, hq, hfuses⟩ := reduce_cons_eq h
    · exact .single s
    · cases hfuses with
      | piece t u => exact .cons t (ih hq)

/-- Only ranges over one set are reduced to a range, which asks for no more members than they do. -/
theorem ranges_of_reduce {s : StringSet} {lo : Count} {hi : Bound} (hk : ∀ p ∈ k, p.Sorted)
    (h : reduce k = [range s lo hi]) :
    (∀ d ∈ k.map brick, d.content = .known s ∧ d.isSingle = false) ∧
      lo.toNat ≤ totalMinimum (k.map brick) := by
  induction k generalizing lo hi with
  | nil => cases h
  | cons p k ih =>
    rw [List.forall_mem_cons] at hk
    rw [List.map_cons, List.forall_mem_cons, totalMinimum_cons]
    obtain ⟨rfl, rfl⟩ | ⟨q, hq, hfuses⟩ := reduce_cons_eq h
    · exact ⟨⟨⟨rfl, hk.1.1⟩, nofun⟩, Nat.le_refl _⟩
    · cases hfuses with
      | range s lo lo' hi hi' =>
        obtain ⟨hall, hlo⟩ := ih hk.2 hq
        refine ⟨⟨⟨rfl, hk.1.1⟩, hall⟩, ?_⟩
        exact Nat.le_trans (Nat.min_le_left _ _) (Nat.add_le_add_left hlo _)

/-- The brick for a gap has unknown content. -/
theorem brick_gap_content (mandatory : Bool) (width : Bound) :
    (gap mandatory width).brick.content = .unknown := by
  cases mandatory <;> rfl

/-- The set of a range is not the product of the pieces before or after it. -/
theorem ne_of_separated (hsep : Separated (l.map brick)) (hk : ∀ p ∈ k, p.Sorted) {s t : StringSet}
    {lo : Count} {hi : Bound} (hm : reduce m = [piece s]) (hr : reduce k = [range t lo hi])
    (hwithin : m ++ k <:+: l ∨ k ++ m <:+: l) : t ≠ s := by
  have hne : k ≠ [] := by
    rintro rfl
    cases hr
  -- one of the ranges is next to the pieces
  have hnext : ∃ p ∈ k, m ++ [p] <:+: l ∨ p :: m <:+: l := by
    obtain hwithin | hwithin := hwithin
    · obtain ⟨p, k, rfl⟩ := List.exists_cons_of_ne_nil hne
      have hfirst : m ++ [p] <:+: m ++ p :: k := ⟨[], k, by simp⟩
      exact ⟨p, List.mem_cons_self, .inl (hfirst.trans hwithin)⟩
    · obtain ⟨k, p, rfl⟩ := k.eq_nil_or_concat'.resolve_left hne
      have hlast : p :: m <:+: (k ++ [p]) ++ m := ⟨k, [], by simp⟩
      exact ⟨p, by simp, .inr (hlast.trans hwithin)⟩
  obtain ⟨p, hp, hnext⟩ := hnext
  have hmap : m.map brick ++ [p.brick] <:+: l.map brick ∨
      p.brick :: m.map brick <:+: l.map brick := by
    refine hnext.imp ?_ ?_
    · intro h
      simpa using h.map brick
    · intro h
      simpa using h.map brick
  obtain ⟨hcontent, hsingle⟩ := (ranges_of_reduce hk hr).1 p.brick (List.mem_map_of_mem hp)
  rintro rfl
  have hsingle' := hsep.isSingle hmap (product_of_reduce hm) hcontent
  exact Bool.noConfusion (hsingle.symm.trans hsingle')

/-- Segments that separated bricks are reduced to can only be merged if they fuse. -/
theorem apart_of_separated (hsep : Separated (l.map brick)) (hsorted : ∀ p ∈ l, p.Sorted)
    (hwithin : k ++ m <:+: l) (hp : reduce k = [p]) (hq : reduce m = [q])
    (hnone : fuse? p q = none) : Apart p.brick q.brick := by
  have hk : ∀ p ∈ k, p.Sorted := fun p hp => hsorted p (hwithin.subset (List.mem_append_left m hp))
  have hm : ∀ p ∈ m, p.Sorted := fun p hp => hsorted p (hwithin.subset (List.mem_append_right k hp))
  constructor
  · intro hcontent
    cases p with
    | piece s =>
      cases q with
      | piece t => cases hnone
      | gap n v => cases hcontent.trans (brick_gap_content n v)
      | range t lo hi =>
        exact ne_of_separated hsep hm hp hq (.inl hwithin) (Content.known.inj hcontent).symm
    | gap n w =>
      cases q with
      | piece t => cases (brick_gap_content n w).symm.trans hcontent
      | gap n v => cases hnone
      | range t lo hi => cases (brick_gap_content n w).symm.trans hcontent
    | range s lo hi =>
      cases q with
      | piece t => exact ne_of_separated hsep hk hq hp (.inr hwithin) (Content.known.inj hcontent)
      | gap n v => cases hcontent.trans (brick_gap_content n v)
      | range t lo' hi' =>
        have hsome := (Fuses.range s lo lo' hi hi').fuse?_eq
        rw [← Content.known.inj hcontent, hsome] at hnone
        cases hnone
  · rw [mergeSingle?_eq_none_iff]
    rintro ⟨s, t, hs, ht⟩
    rw [eq_piece (sorted_of_reduce hk hp) hs, eq_piece (sorted_of_reduce hm hq) ht] at hnone
    cases hnone

/-- The segments of separated bricks fit. -/
theorem fits_of_separated (hsep : Separated (l.map brick)) (hsorted : ∀ p ∈ l, p.Sorted)
    (hbot : (l.map brick).any Brick.isBottom = false)
    (hfiller : (l.map brick).any Brick.isFiller = false)
    (hweight : totalWeight (l.map brick) ≤ Count.cap) : Fits l := by
  refine ⟨apart_of_separated hsep hsorted, ?_, hbot, hfiller, hweight⟩
  intro k p hwithin hp
  cases p with
  | piece s => exact Nat.le_refl 1
  | gap mandatory width =>
    cases mandatory with
    | false => exact Nat.zero_le 1
    | true => exact Nat.le_refl 1
  | range s lo hi =>
    obtain ⟨hall, hlo⟩ := ranges_of_reduce (fun p hp => hsorted p (hwithin.subset hp)) hp
    exact Nat.le_trans hlo (hsep.totalMinimum_le (hwithin.map brick) hall)

/-! ## The segments of a list -/

/-- A brick that need not occur more than once is the brick for a segment. -/
theorem exists_brick_eq {d : Brick} (hbot : d.isBottom = false) (hfiller : d.isFiller = false)
    (hlo : d.lo.toNat ≤ 1) : ∃ p : Segment, p.Sorted ∧ p.brick = d := by
  obtain ⟨content, lo, hi⟩ := d
  cases content with
  | unknown =>
    obtain hzero | hone := Nat.le_one_iff_eq_zero_or_eq_one.1 hlo
    · have hlo' : lo = 0 := Count.ext hzero
      exact ⟨gap false hi, trivial, hlo' ▸ rfl⟩
    · have hlo' : lo = 1 := Count.ext hone
      subst hlo'
      obtain ⟨rest, hrest⟩ := Bound.exists_sub_eq_ok (Brick.lo_le_hi hbot)
      refine ⟨gap true rest, trivial, ?_⟩
      exact congrArg (Brick.any 1) (Bound.add_eq_of_sub hrest)
  | known s =>
    by_cases hsingle : Brick.isSingle ⟨.known s, lo, hi⟩ = true
    · obtain ⟨rfl, rfl⟩ : lo = 1 ∧ hi = 1 := Brick.isSingle_iff.1 hsingle
      exact ⟨piece s, trivial, rfl⟩
    · refine ⟨range s lo hi, ⟨Bool.eq_false_iff.2 hsingle, ?_⟩, rfl⟩
      intro hzero
      have hempty := ((Brick.not_isBottom_iff.1 hbot).2 s rfl).2 hzero
      rw [Brick.isFiller_iff.2 (Brick.eq_filler hbot (congrArg Content.known hempty))] at hfiller
      cases hfiller

/-- Stable bricks are those of segments of which no neighbours fuse. -/
theorem exists_segments {b : List Brick} (hbot : b.any Brick.isBottom = false)
    (hfiller : b.any Brick.isFiller = false) (hstable : Stable b) :
    ∃ u : List Segment, Reduced u ∧ (∀ p ∈ u, p.Sorted) ∧ u.map brick = b := by
  rw [stable_iff hbot, hasMergeableNeighbors_eq_false_iff] at hstable
  obtain ⟨hlo, hchain⟩ := hstable
  have hsegments : ∃ u : List Segment, (∀ p ∈ u, p.Sorted) ∧ u.map brick = b := by
    clear hchain
    induction b with
    | nil => exact ⟨[], nofun, rfl⟩
    | cons d b ih =>
      rw [List.any_cons, Bool.or_eq_false_iff] at hbot hfiller
      rw [List.forall_mem_cons] at hlo
      obtain ⟨p, hp, rfl⟩ := exists_brick_eq hbot.1 hfiller.1 hlo.1
      obtain ⟨u, hu, rfl⟩ := ih hbot.2 hfiller.2 hlo.2
      exact ⟨p :: u, List.forall_mem_cons.2 ⟨hp, hu⟩, rfl⟩
  obtain ⟨u, hu, rfl⟩ := hsegments
  exact ⟨u, ((List.isChain_map brick).1 hchain).imp fun _ _ => none_of_apart, hu, rfl⟩

end Segment

end StringBricks
