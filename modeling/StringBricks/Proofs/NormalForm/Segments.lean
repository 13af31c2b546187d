import StringBricks.Proofs.NormalForm.Merging

/-!
# Segments of a sequence

A sequence in normal form is made of segments of three kinds: sets that occur exactly once, unknown
gaps, and sets that occur some other number of times. Two neighbours of one kind fuse into a segment
of that kind, and it does not matter in which order three of them do (`Segment.Fuses.assoc`). Two
lists of segments are glued by fusing where they meet, and gluing is associative
(`Segment.glue_assoc`). If neither has neighbours that fuse, then at most the two segments that meet
do, and no neighbours in what is glued fuse (`Segment.glue_cases`).
-/

set_option autoImplicit false

namespace StringBricks

/-- The product of three sets is the same in either grouping. -/
theorem StringSet.cross_assoc (a b c : StringSet) : (a.cross b).cross c = a.cross (b.cross c) := by
  ext u
  simp only [mem_cross]
  constructor
  · rintro ⟨-, ⟨s, hs, t, ht, rfl⟩, v, hv, rfl⟩
    exact ⟨s, hs, t ++ v, ⟨t, ht, v, hv, rfl⟩, (String.append_assoc ..).symm⟩
  · rintro ⟨s, hs, -, ⟨t, ht, v, hv, rfl⟩, rfl⟩
    exact ⟨s ++ t, ⟨s, hs, t, ht, rfl⟩, v, hv, String.append_assoc ..⟩

/-- A segment of a sequence. -/
inductive Segment where
  /-- One member of `s`. -/
  | piece (s : StringSet)
  /-- Any strings: at most `width` of them, and one more if some are mandatory. -/
  | gap (mandatory : Bool) (width : Bound)
  /-- At least `lo` and at most `hi` members of `s`. -/
  | range (s : StringSet) (lo : Count) (hi : Bound)

namespace Segment

/-- Two neighbours as one segment, if they are of one kind. -/
def fuse? : Segment → Segment → Option Segment
  | piece s, piece t => some (piece (s.cross t))
  | gap m w, gap n v => some (gap (m || n) (w + v))
  | range s lo hi, range t lo' hi' => if s = t then some (range s (lo + lo') (hi + hi')) else none
  | _, _ => none

/-- Which segments fuse, and into what. -/
inductive Fuses : Segment → Segment → Segment → Prop
  | piece (s t : StringSet) : Fuses (.piece s) (.piece t) (.piece (s.cross t))
  | gap (m n : Bool) (w v : Bound) : Fuses (.gap m w) (.gap n v) (.gap (m || n) (w + v))
  | range (s : StringSet) (lo lo' : Count) (hi hi' : Bound) :
      Fuses (.range s lo hi) (.range s lo' hi') (.range s (lo + lo') (hi + hi'))

variable {p q r x y : Segment}

/-- Two segments only fuse if they are of one kind. -/
theorem fuses_of_fuse? (h : fuse? p q = some r) : Fuses p q r := by
  unfold fuse? at h
  split at h
  · cases h
    exact .piece _ _
  · cases h
    exact .gap _ _ _ _
  · split at h
    · next heq =>
      cases h
      rw [heq]
      exact .range _ _ _ _ _
    · cases h
  · cases h

namespace Fuses

/-- Segments of one kind fuse. -/
theorem fuse?_eq (h : Fuses p q r) : fuse? p q = some r := by
  cases h with
  | piece s t => rfl
  | gap m n w v => rfl
  | range s lo lo' hi hi' => exact if_pos rfl

/-- What is fused fuses with the next segment if its second half does. -/
theorem none_after_iff (h : Fuses p q r) : fuse? r x = none ↔ fuse? q x = none := by
  cases h <;> cases x <;> simp [fuse?]

/-- What is fused fuses with the segment before if its first half does. -/
theorem none_before_iff (h : Fuses p q r) : fuse? x r = none ↔ fuse? x p = none := by
  cases h <;> cases x <;> simp [fuse?]

/-- It does not matter which two of three segments fuse first. -/
theorem assoc (h : Fuses p q r) (h' : Fuses q x y) : fuse? r x = fuse? p y := by
  cases h with
  | piece s t =>
    cases h' with
    | piece t u => exact congrArg (fun a => some (Segment.piece a)) (StringSet.cross_assoc s t u)
  | gap m n w v =>
    cases h' with
    | gap n k v u => simp only [fuse?, Bool.or_assoc, Bound.add_assoc]
  | range s lo lo' hi hi' =>
    cases h' with
    | range s lo' lo'' hi' hi'' => simp only [fuse?, Count.add_assoc, Bound.add_assoc]

end Fuses

/-! ## Gluing -/

/-- Puts a segment in front of others, fused with the first of them if they are of one kind. -/
def push (p : Segment) : List Segment → List Segment
  | [] => [p]
  | q :: l =>
    match fuse? p q with
    | some r => r :: l
    | none => p :: q :: l

/-- The segments of `l` and then those of `m`, fused where they meet. -/
def glue (l m : List Segment) : List Segment := l.foldr push m

/-- The segments of `l`, with neighbours fused as long as any do. -/
def reduce (l : List Segment) : List Segment := glue l []

/-- Whether no two neighbours fuse. -/
def Reduced (l : List Segment) : Prop := l.IsChain fun p q => fuse? p q = none

variable {l m u v : List Segment}

/-- A segment that fuses with the first one is fused with it. -/
theorem push_of_fuses (h : Fuses p q r) : push p (q :: l) = r :: l := by
  rw [push, h.fuse?_eq]

/-- A segment that does not fuse with the first one is put before it. -/
theorem push_of_none (h : fuse? p q = none) : push p (q :: l) = p :: q :: l := by
  rw [push, h]

/-- Two segments that fuse may be put in front one after the other or as one. -/
theorem push_push (h : Fuses p q r) (l : List Segment) : push p (push q l) = push r l := by
  cases l with
  | nil => exact push_of_fuses h
  | cons x l =>
    cases hx : fuse? q x with
    | none => rw [push_of_none hx, push_of_fuses h, push_of_none (h.none_after_iff.2 hx)]
    | some y =>
      have hy := fuses_of_fuse? hx
      rw [push_of_fuses hy, push, push, h.assoc hy]
      -- `p` and `y` are of one kind
      cases hz : fuse? p y with
      | some z => rfl
      | none =>
        have hpq := hy.none_before_iff.1 hz
        rw [h.fuse?_eq] at hpq
        cases hpq

/-- A segment may be put in front before or after the gluing. -/
theorem glue_push (p : Segment) (l m : List Segment) : glue (push p l) m = push p (glue l m) := by
  cases l with
  | nil => rfl
  | cons q l =>
    cases hr : fuse? p q with
    | none =>
      rw [push_of_none hr]
      rfl
    | some r =>
      have hfuses := fuses_of_fuse? hr
      rw [push_of_fuses hfuses]
      exact (push_push hfuses (glue l m)).symm

/-- **Gluing is associative.** -/
theorem glue_assoc (u v w : List Segment) : glue (glue u v) w = glue u (glue v w) := by
  induction u with
  | nil => rfl
  | cons p u ih => exact (glue_push p (glue u v) w).trans (congrArg (push p) ih)

/-- Nothing vanishes when it is glued. -/
theorem glue_ne_nil (hu : u ≠ []) (v : List Segment) : glue u v ≠ [] := by
  obtain ⟨p, u, rfl⟩ := List.exists_cons_of_ne_nil hu
  show push p (glue u v) ≠ []
  cases glue u v with
  | nil => nofun
  | cons q l =>
    rw [push]
    split
    · nofun
    · nofun

/-- Two lists may be reduced one after the other. -/
theorem reduce_append (l m : List Segment) : reduce (l ++ m) = glue l (reduce m) :=
  List.foldr_append

/-- Only the empty list is reduced to nothing. -/
theorem reduce_eq_nil_iff : reduce l = [] ↔ l = [] := by
  constructor
  · intro h
    by_contra hne
    exact glue_ne_nil hne [] h
  · rintro rfl
    rfl

/-- Several segments are reduced to one if all but the first are and the first fuses with it. -/
theorem reduce_cons_eq (h : reduce (p :: l) = [r]) :
    (l = [] ∧ p = r) ∨ ∃ q, reduce l = [q] ∧ Fuses p q r := by
  have hpush : push p (reduce l) = [r] := h
  cases hl : reduce l with
  | nil =>
    rw [hl] at hpush
    exact .inl ⟨reduce_eq_nil_iff.1 hl, List.singleton_inj.1 hpush⟩
  | cons q k =>
    rw [hl] at hpush
    cases hx : fuse? p q with
    | none =>
      rw [push_of_none hx] at hpush
      cases hpush
    | some x =>
      have hfuses := fuses_of_fuse? hx
      rw [push_of_fuses hfuses] at hpush
      cases hpush
      exact .inr ⟨q, rfl, hfuses⟩

/-! ## Fusing within a list -/

/-- Whether the second list is the first, or the first with two neighbours fused. -/
inductive FusesTo : List Segment → List Segment → Prop
  | refl (l : List Segment) : FusesTo l l
  | fuse (l m : List Segment) {p q r : Segment} :
      Fuses p q r → FusesTo (l ++ p :: q :: m) (l ++ r :: m)

namespace FusesTo

/-- It does not matter for the reduced list what was fused beforehand. -/
theorem reduce_eq (h : FusesTo l m) : reduce l = reduce m := by
  cases h with
  | refl => rfl
  | @fuse l m p q r h =>
    rw [reduce_append, reduce_append]
    exact congrArg (glue l) (push_push h (reduce m))

/-- If the second list is in two, then so is the first. -/
theorem exists_append (h : FusesTo l (u ++ v)) :
    ∃ u' v', l = u' ++ v' ∧ FusesTo u' u ∧ FusesTo v' v := by
  generalize huv : u ++ v = k at h
  cases h with
  | refl => exact ⟨u, v, huv.symm, .refl u, .refl v⟩
  | @fuse l m p q r h =>
    obtain ⟨c, rfl, rfl⟩ | ⟨c, rfl, hv⟩ := List.append_eq_append_iff.1 huv
    · exact ⟨u, c ++ p :: q :: m, List.append_assoc .., .refl u, .fuse c m h⟩
    · cases c with
      | nil =>
        rw [← show r :: m = v from hv, List.append_nil]
        exact ⟨l, p :: q :: m, rfl, .refl l, .fuse [] m h⟩
      | cons d c =>
        obtain ⟨rfl, rfl⟩ := List.cons_eq_cons.1 hv
        exact ⟨l ++ p :: q :: c, v, by simp, .fuse l c h, .refl v⟩

/-- What neighbouring stretches of the second list are reduced to, some of the first are as well. -/
theorem exists_within (h : FusesTo l m) (huv : u ++ v <:+: m) :
    ∃ u' v', u' ++ v' <:+: l ∧ reduce u' = reduce u ∧ reduce v' = reduce v := by
  obtain ⟨s, t, rfl⟩ := huv
  obtain ⟨k, t', rfl, hk, -⟩ := h.exists_append
  obtain ⟨s', k, rfl, -, hk⟩ := hk.exists_append
  obtain ⟨u', v', rfl, hu, hv⟩ := hk.exists_append
  exact ⟨u', v', ⟨s', t', rfl⟩, hu.reduce_eq, hv.reduce_eq⟩

end FusesTo

/-! ## Where two lists meet -/

/-- Nothing fuses in what has no neighbours that do. -/
theorem glue_of_reduced (h : Reduced (l ++ m)) : glue l m = l ++ m := by
  induction l with
  | nil => rfl
  | cons p l ih =>
    have htail : Reduced (l ++ m) := h.of_cons
    show push p (glue l m) = p :: (l ++ m)
    rw [ih htail]
    cases hlm : l ++ m with
    | nil => rfl
    | cons q k =>
      have hne : Reduced (p :: q :: k) := hlm ▸ h
      exact push_of_none hne.rel

/-- Two segments that meet fuse at most with each other. -/
theorem reduced_of_fuses (hl : Reduced (l ++ [p])) (hm : Reduced (q :: m)) (h : Fuses p q r) :
    Reduced (l ++ r :: m) :=
  NormalForm.isChain_replace hl hm h.none_before_iff.2 h.none_after_iff.2

/-- Either nothing fuses when two lists are glued, or the two segments that meet do. -/
theorem glue_cases (hu : Reduced u) (hv : Reduced v) :
    (Reduced (u ++ v) ∧ glue u v = u ++ v) ∨
      ∃ l p q m r, u = l ++ [p] ∧ v = q :: m ∧ Fuses p q r ∧
        Reduced (l ++ r :: m) ∧ glue u v = l ++ r :: m := by
  obtain rfl | ⟨l, p, rfl⟩ := u.eq_nil_or_concat'
  · exact .inl ⟨hv, rfl⟩
  · cases v with
    | nil =>
      have happend : Reduced ((l ++ [p]) ++ []) := (List.append_nil _).symm ▸ hu
      exact .inl ⟨happend, glue_of_reduced happend⟩
    | cons q m =>
      cases hr : fuse? p q with
      | none =>
        have happend : Reduced ((l ++ [p]) ++ q :: m) := by
          rw [List.append_assoc]
          exact List.isChain_append_cons_cons.2 ⟨hu, hr, hv⟩
        exact .inl ⟨happend, glue_of_reduced happend⟩
      | some r =>
        have hfuses := fuses_of_fuse? hr
        have hreduced := reduced_of_fuses hu hv hfuses
        refine .inr ⟨l, p, q, m, r, rfl, rfl, hfuses, hreduced, ?_⟩
        calc glue (l ++ [p]) (q :: m)
          _ = glue l (push p (q :: m)) := List.foldr_append
          _ = glue l (r :: m) := congrArg (glue l) (push_of_fuses hfuses)
          _ = l ++ r :: m := glue_of_reduced hreduced

/-- In what is glued of two reduced lists, no neighbours fuse. -/
theorem reduced_glue (hu : Reduced u) (hv : Reduced v) : Reduced (glue u v) := by
  obtain ⟨hreduced, hglue⟩ | ⟨l, p, q, m, r, -, -, -, hreduced, hglue⟩ := glue_cases hu hv
  · rw [hglue]
    exact hreduced
  · rw [hglue]
    exact hreduced

end Segment

end StringBricks
