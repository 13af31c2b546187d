import StringBricks.Proofs.BrickSeq.Order
import StringBricks.Proofs.NormalForm.Growth

/-!
# Lists of one shape

The shape of a brick is its bounds and the number of its strings. Two lists of bricks of one shape
that are aligned one way are aligned the other way too (`Alignment.Aligned.symm_of_shape`), so a
list can go up in the order only by changing its shape.

A brick that must occur is placed on one that must occur, and the lists have equally many of these.
So the bricks between two of them are placed on the bricks between the same two. Where the brick for
every string is among those, it takes the others in either direction. Where it is not, each brick is
placed on the one at its own position, and has the same shape: then it is the same brick.
-/

set_option autoImplicit false

namespace StringBricks

/-- The bound as a number, with zero for the infinite one. -/
def Bound.code : Bound → Nat
  | finite n => n.toNat + 1
  | infinite => 0

/-- Bounds are told by their numbers. -/
theorem Bound.code_inj {a b : Bound} (h : a.code = b.code) : a = b := by
  cases a with
  | infinite =>
    cases b with
    | infinite => rfl
    | finite n => simp [code] at h
  | finite m =>
    cases b with
    | infinite => simp [code] at h
    | finite n => exact congrArg finite (Count.ext (Nat.succ.inj h))

/-- The size of the set as a number, with zero for unknown content. -/
def Content.code : Content → Nat
  | known members => members.size + 1
  | unknown => 0

/-- A content below one of the same size is the same content. -/
theorem Content.eq_of_le_of_code {c d : Content} (h : c.le d = true) (hcode : c.code = d.code) :
    c = d := by
  cases d with
  | unknown =>
    cases c with
    | unknown => rfl
    | known a => simp [code] at hcode
  | known b =>
    cases c with
    | unknown => cases h
    | known a =>
      have hsize : a.size = b.size := Nat.succ.inj hcode
      rw [StringSet.eq_of_subset (StringSet.isSubset_iff.1 h) (Nat.le_of_eq hsize.symm)]

namespace Brick

/-- The bounds of a brick and the number of its strings, but not which strings these are. -/
def shape (b : Brick) : Nat × Nat × Nat := (b.lo.toNat, b.hi.code, b.content.code)

/-- Bricks of one shape have the same mandatory repetitions. -/
theorem lo_eq_of_shape {a b : Brick} (h : a.shape = b.shape) : a.lo = b.lo :=
  Count.ext (congrArg Prod.fst h)

/-- Bricks of one shape have the same upper bound. -/
theorem hi_eq_of_shape {a b : Brick} (h : a.shape = b.shape) : a.hi = b.hi :=
  Bound.code_inj (congrArg (fun p => p.2.1) h)

/-- Bricks of one shape have contents of one size. -/
theorem code_eq_of_shape {a b : Brick} (h : a.shape = b.shape) :
    a.content.code = b.content.code :=
  congrArg (fun p => p.2.2) h

/-- The brick for every string is the only one of its shape. -/
theorem eq_top_of_shape {b : Brick} (h : b.shape = top.shape) : b = top := by
  have hlo := lo_eq_of_shape h
  have hhi := hi_eq_of_shape h
  have hcontent : b.content = .unknown :=
    Content.eq_of_le_of_code (Content.le_unknown _) (code_eq_of_shape h)
  obtain ⟨content, lo, hi⟩ := b
  simp only at hlo hhi hcontent
  rw [hcontent, hlo, hhi]
  rfl

/-- A brick below one of its shape is the same brick, if it stands for something. -/
theorem eq_of_le_of_shape {a b : Brick} (h : a.le b = true) (hshape : a.shape = b.shape)
    (ha : a.isBottom = false) : a = b := by
  obtain ⟨-, hinside⟩ := (le_iff_inside ha).1 h
  have hcontent := Content.eq_of_le_of_code hinside.content_le (code_eq_of_shape hshape)
  have hlo := lo_eq_of_shape hshape
  have hhi := hi_eq_of_shape hshape
  obtain ⟨content, lo, hi⟩ := a
  obtain ⟨content', lo', hi'⟩ := b
  simp only at hcontent hlo hhi
  rw [hcontent, hlo, hhi]

end Brick

namespace Alignment

/-! ## Bricks that must occur -/

/-- The number of bricks that must occur. -/
def countMandatory (l : List Brick) : Nat := l.countP fun b => decide (b.lo ≠ 0)

/-- An alignment that places bricks that must occur, and no others, on bricks that must occur. -/
inductive Matched : List Brick → List Brick → Prop
  | nil : Matched [] []
  | pair {a b : Brick} {l m : List Brick} :
      a.le b = true → (a.lo = 0 ↔ b.lo = 0) → Matched l m → Matched (a :: l) (b :: m)
  | absorb {a b : Brick} {l m : List Brick} :
      a.lo = 0 → b.isTop = true → Matched l (b :: m) → Matched (a :: l) (b :: m)
  | skip {b : Brick} {l m : List Brick} :
      Brick.filler.le b = true → Matched l m → Matched l (b :: m)

/-- A brick that must occur counts once. -/
theorem countMandatory_cons (b : Brick) (l : List Brick) :
    countMandatory (b :: l) = countMandatory l + if b.lo = 0 then 0 else 1 := by
  unfold countMandatory
  rw [List.countP_cons]
  by_cases hb : b.lo = 0 <;> simp [hb]

/-- What is placed on a brick that must occur must occur. -/
theorem lo_eq_zero_of_le {a b : Brick} (h : a.le b = true) (ha : a.isBottom = false)
    (hlo : a.lo = 0) : b.lo = 0 := by
  have hle : b.lo.toNat ≤ a.lo.toNat := ((Brick.le_iff_inside ha).1 h).2.lo_le
  rw [hlo] at hle
  exact Count.ext (Nat.le_zero.1 hle)

/-- The top brick need not occur. -/
theorem lo_of_isTop {b : Brick} (h : b.isTop = true) : b.lo = 0 :=
  Brick.isTop_iff.1 h ▸ rfl

/-- Every brick on the right that must occur has one on the left that must. -/
theorem Aligned.countMandatory_le {l m : List Brick} (h : Aligned l m)
    (hl : l.any Brick.isBottom = false) : countMandatory m ≤ countMandatory l := by
  induction h with
  | nil => exact Nat.le_refl _
  | @pair a b l m hab _ ih =>
    rw [List.any_cons, Bool.or_eq_false_iff] at hl
    have hrest := ih hl.2
    have hplace := lo_eq_zero_of_le hab hl.1
    rw [countMandatory_cons, countMandatory_cons]
    by_cases ha : a.lo = 0
    · simp [ha, hplace ha, hrest]
    · rw [if_neg ha]
      split <;> omega
  | @drop a l m _ _ ih =>
    rw [List.any_cons, Bool.or_eq_false_iff] at hl
    have hrest := ih hl.2
    rw [countMandatory_cons]
    omega
  | @absorb a b l m hb _ ih =>
    rw [List.any_cons, Bool.or_eq_false_iff] at hl
    have hrest := ih hl.2
    rw [countMandatory_cons a]
    omega
  | skip hb _ ih =>
    rw [countMandatory_cons, if_pos (Brick.filler_le_iff.1 hb).2]
    exact ih hl

/-- Where equally many bricks must occur on both sides, they are placed on each other. -/
theorem Aligned.matched {l m : List Brick} (h : Aligned l m) (hl : l.any Brick.isBottom = false)
    (hfiller : l.any Brick.isFiller = false) (hcount : countMandatory l ≤ countMandatory m) :
    Matched l m := by
  induction h with
  | nil => exact .nil
  | @pair a b l m hab hlm ih =>
    rw [List.any_cons, Bool.or_eq_false_iff] at hl hfiller
    have hrest := hlm.countMandatory_le hl.2
    have hplace := lo_eq_zero_of_le hab hl.1
    rw [countMandatory_cons, countMandatory_cons] at hcount
    by_cases ha : a.lo = 0
    · rw [if_pos ha, if_pos (hplace ha)] at hcount
      exact .pair hab (iff_of_true ha (hplace ha)) (ih hl.2 hfiller.2 hcount)
    · rw [if_neg ha] at hcount
      by_cases hb : b.lo = 0
      · rw [if_pos hb] at hcount
        omega
      · rw [if_neg hb] at hcount
        exact .pair hab (iff_of_false ha hb) (ih hl.2 hfiller.2 (by omega))
  | @drop a l m ha _ _ =>
    rw [List.any_cons, Bool.or_eq_false_iff] at hl hfiller
    cases Brick.le_filler_iff.1 ha with
    | inl hbot =>
      rw [hl.1] at hbot
      cases hbot
    | inr hfill =>
      rw [Brick.isFiller_iff.2 hfill] at hfiller
      cases hfiller.1
  | @absorb a b l m hb hlm ih =>
    rw [List.any_cons, Bool.or_eq_false_iff] at hl hfiller
    have hrest := hlm.countMandatory_le hl.2
    rw [countMandatory_cons a] at hcount
    by_cases ha : a.lo = 0
    · rw [if_pos ha] at hcount
      exact .absorb ha hb (ih hl.2 hfiller.2 hcount)
    · rw [if_neg ha] at hcount
      omega
  | skip hb _ ih =>
    rw [countMandatory_cons, if_pos (Brick.filler_le_iff.1 hb).2] at hcount
    exact .skip hb (ih hl hfiller hcount)

/-- A list that starts with a brick that must occur, if it has bricks at all. -/
def StartsMandatory (l : List Brick) : Prop := ∀ b m, l = b :: m → b.lo ≠ 0

/-- The bricks before the first ones that must occur are placed on each other, and so are the rest.
The induction is on the alignment: it can take a brick from either front part only. -/
theorem Matched.split {u v l m : List Brick} (h : Matched (u ++ l) (v ++ m))
    (hu : ∀ b ∈ u, b.lo = 0) (hv : ∀ b ∈ v, b.lo = 0) (hl : StartsMandatory l)
    (hm : StartsMandatory m) : Matched u v ∧ Matched l m := by
  generalize hleft : u ++ l = left at h
  generalize hright : v ++ m = right at h
  induction h generalizing u v with
  | nil =>
    obtain ⟨rfl, rfl⟩ := List.append_eq_nil_iff.1 hleft
    obtain ⟨rfl, rfl⟩ := List.append_eq_nil_iff.1 hright
    exact ⟨.nil, .nil⟩
  | @pair a b l' m' hab hlo hmatched ih =>
    cases u with
    | nil =>
      have ha : a.lo ≠ 0 := hl a l' hleft
      cases v with
      | nil =>
        rw [List.nil_append] at hleft hright
        rw [hleft, hright]
        exact ⟨.nil, .pair hab hlo hmatched⟩
      | cons b' v =>
        cases hright
        exact absurd (hlo.2 (hv b List.mem_cons_self)) ha
    | cons a' u =>
      cases hleft
      have ha : a.lo = 0 := hu a List.mem_cons_self
      cases v with
      | nil => exact absurd (hlo.1 ha) (hm b m' hright)
      | cons b' v =>
        cases hright
        have hparts := ih (fun c hc => hu c (List.mem_cons_of_mem a hc))
          (fun c hc => hv c (List.mem_cons_of_mem b hc)) rfl rfl
        exact ⟨.pair hab hlo hparts.1, hparts.2⟩
  | @absorb a b l' m' ha hb _ ih =>
    cases u with
    | nil => exact absurd ha (hl a l' hleft)
    | cons a' u =>
      cases hleft
      cases v with
      | nil => exact absurd (lo_of_isTop hb) (hm b m' hright)
      | cons b' v =>
        cases hright
        have hparts := ih (fun c hc => hu c (List.mem_cons_of_mem a hc)) hv rfl rfl
        exact ⟨.absorb ha hb hparts.1, hparts.2⟩
  | @skip b l' m' hb _ ih =>
    have hlo : b.lo = 0 := (Brick.filler_le_iff.1 hb).2
    cases v with
    | nil => exact absurd hlo (hm b m' hright)
    | cons b' v =>
      cases hright
      have hparts := ih hu (fun c hc => hv c (List.mem_cons_of_mem b hc)) hleft rfl
      exact ⟨.skip hb hparts.1, hparts.2⟩

/-! ## Bricks that need not occur -/

/-- Bricks that need not occur take anything, if the brick for every string is among them. -/
theorem aligned_of_mem_top {m : List Brick} (hm : ∀ b ∈ m, Brick.filler.le b = true)
    (htop : Brick.top ∈ m) (l : List Brick) : Aligned l m := by
  have hskip : ∀ n : List Brick, (∀ b ∈ n, Brick.filler.le b = true) → Aligned [] n := by
    intro n hn
    induction n with
    | nil => exact .nil
    | cons b n ih =>
      exact .skip (hn b List.mem_cons_self) (ih fun c hc => hn c (List.mem_cons_of_mem b hc))
  obtain ⟨u, v, rfl⟩ := List.append_of_mem htop
  have hu : Aligned [] u := hskip u fun b hb => hm b (List.mem_append_left _ hb)
  have hv : Aligned [] v := hskip v fun b hb =>
    hm b (List.mem_append_right u (List.mem_cons_of_mem _ hb))
  have hall := hu.append ((Aligned.to_top l).append hv)
  rw [List.append_nil] at hall
  exact hall

/-- Without the brick for every string on the right, no two bricks are placed on one. -/
theorem Matched.length_le {l m : List Brick} (h : Matched l m) (htop : Brick.top ∉ m) :
    l.length ≤ m.length := by
  induction h with
  | nil => exact Nat.le_refl 0
  | pair _ _ _ ih =>
    exact Nat.succ_le_succ (ih fun h => htop (List.mem_cons_of_mem _ h))
  | absorb _ hb _ _ =>
    exact absurd (Brick.isTop_iff.1 hb ▸ List.mem_cons_self) htop
  | skip _ _ ih =>
    exact Nat.le_succ_of_le (ih fun h => htop (List.mem_cons_of_mem _ h))

variable {z : List (Brick × Brick)}

/-- Without the brick for every string, bricks of one shape are placed on themselves. -/
theorem Matched.eq_of_shape (h : Matched (z.map Prod.fst) (z.map Prod.snd))
    (hshape : ∀ p ∈ z, p.1.shape = p.2.shape) (hbot : ∀ p ∈ z, p.1.isBottom = false)
    (htop : Brick.top ∉ z.map Prod.snd) : z.map Prod.fst = z.map Prod.snd := by
  induction z with
  | nil => rfl
  | cons p z ih =>
    rw [List.map_cons, List.map_cons] at h
    rw [List.map_cons, List.mem_cons, not_or] at htop
    generalize hleft : z.map Prod.fst = left at h
    generalize hright : z.map Prod.snd = right at h
    cases h with
    | pair hle _ hrest =>
      rw [← hleft, ← hright] at hrest
      have heq := ih hrest (fun q hq => hshape q (List.mem_cons_of_mem p hq))
        (fun q hq => hbot q (List.mem_cons_of_mem p hq)) htop.2
      have hp := Brick.eq_of_le_of_shape hle (hshape p List.mem_cons_self)
        (hbot p List.mem_cons_self)
      rw [List.map_cons, List.map_cons, heq, hp]
    | absorb _ hb _ => exact absurd (Brick.isTop_iff.1 hb).symm htop.1
    | skip _ hrest =>
      have hlen := hrest.length_le (hright ▸ htop.2)
      rw [← hleft, ← hright] at hlen
      simp only [List.length_cons, List.length_map] at hlen
      omega

/-- Between bricks of one shape that need not occur, an alignment can be turned around. -/
theorem Matched.symm_of_optional (h : Matched (z.map Prod.fst) (z.map Prod.snd))
    (hshape : ∀ p ∈ z, p.1.shape = p.2.shape) (hbot : ∀ p ∈ z, p.1.isBottom = false)
    (hlo : ∀ p ∈ z, p.1.lo = 0) : Aligned (z.map Prod.snd) (z.map Prod.fst) := by
  by_cases htop : Brick.top ∈ z.map Prod.snd
  · obtain ⟨p, hp, hsnd⟩ := List.mem_map.1 htop
    have hfst : p.1 = Brick.top := Brick.eq_top_of_shape (hsnd ▸ hshape p hp)
    refine aligned_of_mem_top ?_ (List.mem_map.2 ⟨p, hp, hfst⟩) _
    intro b hb
    obtain ⟨q, hq, rfl⟩ := List.mem_map.1 hb
    exact Brick.filler_le_iff.2 ⟨hbot q hq, hlo q hq⟩
  · rw [h.eq_of_shape hshape hbot htop]
    exact Aligned.refl _

/-! ## Turning an alignment around -/

/-- The pairs up to the first one that must occur, and the others. -/
theorem exists_optional_front (z : List (Brick × Brick)) :
    ∃ u w, z = u ++ w ∧ (∀ p ∈ u, p.1.lo = 0) ∧ ∀ p v, w = p :: v → p.1.lo ≠ 0 := by
  induction z with
  | nil => exact ⟨[], [], rfl, nofun, nofun⟩
  | cons p z ih =>
    by_cases hp : p.1.lo = 0
    · obtain ⟨u, w, rfl, hu, hw⟩ := ih
      refine ⟨p :: u, w, rfl, ?_, hw⟩
      intro q hq
      cases List.mem_cons.1 hq with
      | inl hq => exact hq ▸ hp
      | inr hq => exact hu q hq
    · refine ⟨[], p :: z, rfl, nofun, ?_⟩
      intro q v hq
      cases hq
      exact hp

/-- Between bricks of one shape, an alignment can be turned around. The induction goes from one
brick that must occur to the next. -/
theorem Matched.symm_of_shape (h : Matched (z.map Prod.fst) (z.map Prod.snd))
    (hshape : ∀ p ∈ z, p.1.shape = p.2.shape) (hbot : ∀ p ∈ z, p.1.isBottom = false) :
    Aligned (z.map Prod.snd) (z.map Prod.fst) := by
  induction hn : z.length using Nat.strongRecOn generalizing z with
  | _ n ih =>
    obtain ⟨u, w, rfl, hu, hw⟩ := exists_optional_front z
    have hshapeu : ∀ p ∈ u, p.1.shape = p.2.shape :=
      fun p hp => hshape p (List.mem_append_left w hp)
    have hbotu : ∀ p ∈ u, p.1.isBottom = false := fun p hp => hbot p (List.mem_append_left w hp)
    have hleft : ∀ b ∈ u.map Prod.fst, b.lo = 0 := by
      intro b hb
      obtain ⟨p, hp, rfl⟩ := List.mem_map.1 hb
      exact hu p hp
    have hright : ∀ b ∈ u.map Prod.snd, b.lo = 0 := by
      intro b hb
      obtain ⟨p, hp, rfl⟩ := List.mem_map.1 hb
      exact (Brick.lo_eq_of_shape (hshapeu p hp)).symm.trans (hu p hp)
    rw [List.map_append, List.map_append] at h ⊢
    cases w with
    | nil =>
      simp only [List.map_nil, List.append_nil] at h ⊢
      exact h.symm_of_optional hshapeu hbotu hu
    | cons p w =>
      have hp : p.1.lo ≠ 0 := hw p w rfl
      have hpshape := hshape p (List.mem_append_right u List.mem_cons_self)
      have hp' : p.2.lo ≠ 0 := by
        rw [← Brick.lo_eq_of_shape hpshape]
        exact hp
      have hparts := h.split hleft hright
        (by intro b m hb; cases hb; exact hp) (by intro b m hb; cases hb; exact hp')
      obtain ⟨hfront, hrest⟩ := hparts
      refine (hfront.symm_of_optional hshapeu hbotu hu).append ?_
      rw [List.map_cons, List.map_cons] at hrest ⊢
      cases hrest with
      | pair hle _ hrest =>
        have hpbot := hbot p (List.mem_append_right u List.mem_cons_self)
        have heq := Brick.eq_of_le_of_shape hle hpshape hpbot
        have hlen : w.length < n := by
          rw [← hn, List.length_append, List.length_cons]
          omega
        have hback := ih w.length hlen hrest
          (fun q hq => hshape q (List.mem_append_right u (List.mem_cons_of_mem p hq)))
          (fun q hq => hbot q (List.mem_append_right u (List.mem_cons_of_mem p hq))) rfl
        exact .pair (heq ▸ Brick.le_refl p.1) hback
      | absorb ha _ _ => exact absurd ha hp
      | skip hb _ => exact absurd (Brick.filler_le_iff.1 hb).2 hp'

/-- Two lists of one shape that are aligned one way are aligned the other way too. -/
theorem Aligned.symm_of_shape {l m : List Brick} (h : Aligned l m)
    (hl : l.any Brick.isBottom = false) (hfiller : l.any Brick.isFiller = false)
    (hshape : l.map Brick.shape = m.map Brick.shape) : Aligned m l := by
  have hlen : l.length = m.length := by
    have hmap := congrArg List.length hshape
    rwa [List.length_map, List.length_map] at hmap
  have hcount : countMandatory l ≤ countMandatory m := by
    have hcode : ∀ n : List Brick,
        countMandatory n = (n.map Brick.shape).countP fun p => decide (p.1 ≠ 0) := by
      intro n
      unfold countMandatory
      rw [List.countP_map]
      congr 1
      funext b
      show decide (b.lo ≠ 0) = decide (b.lo.toNat ≠ 0)
      rw [decide_eq_decide]
      exact not_congr Count.ext_iff
    exact Nat.le_of_eq (by rw [hcode, hcode, hshape])
  have hmatched := h.matched hl hfiller hcount
  -- the two lists as one list of pairs, position by position
  obtain ⟨z, rfl, rfl⟩ : ∃ z : List (Brick × Brick), l = z.map Prod.fst ∧ m = z.map Prod.snd :=
    ⟨l.zip m, (List.map_fst_zip (Nat.le_of_eq hlen)).symm,
      (List.map_snd_zip (Nat.le_of_eq hlen.symm)).symm⟩
  have hpairs : ∀ p ∈ z, p.1.shape = p.2.shape := by
    rw [List.map_map, List.map_map] at hshape
    exact List.map_inj_left.1 hshape
  have hbot : ∀ p ∈ z, p.1.isBottom = false := by
    intro p hp
    exact any_isBottom_eq_false_iff.1 hl p.1 (List.mem_map.2 ⟨p, hp, rfl⟩)
  exact hmatched.symm_of_shape hpairs hbot

end Alignment

end StringBricks
