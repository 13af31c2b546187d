import StringBricks.Proofs.Order
import StringBricks.BrickSeq.Assignment
import Mathlib.Data.Fin.Basic

/-!
# The order as a search for assignments

The order of sequences is decided by a table that is filled once. It answers whether there is an
assignment of the bricks on the left to bricks on the right that fits, among all those that keep the
order of the bricks (`Alignment.aligned_iff_exists_fits`). An assignment is built up brick by brick:
one more brick on the right moves all targets, and one more brick on the left is left out or is put
on the first brick on the right. Whether the larger assignment fits depends on the new bricks and on
whether the smaller one does.
-/

set_option autoImplicit false

namespace StringBricks

namespace Assignment

variable {left right : List Brick} {b c : Brick}

/-- An assignment is given by its targets. -/
theorem eq_of_target_eq {a a' : Assignment left right} (h : ∀ i, a.target i = a'.target i) :
    a = a' := by
  obtain ⟨target, inOrder⟩ := a
  obtain ⟨target', inOrder'⟩ := a'
  have htarget : target = target' := funext h
  subst htarget
  rfl

/-- Whether the brick at `p` on the right is above what it is assigned: above the filler if that is
nothing, and above every brick otherwise, of which there is only one unless it is above all. -/
def FitsAt (a : Assignment left right) (p : Fin right.length) : Prop :=
  ((∀ i, a.target i ≠ some p) → Brick.filler.le (right.get p) = true) ∧
    ∀ i, a.target i = some p → (left.get i).le (right.get p) = true ∧
      ∀ j, a.target j = some p → j = i ∨ (right.get p).isTop = true

/-- An assignment fits if it fits at every brick on the right, and the filler is above every brick
that is left out. -/
theorem fits_iff {a : Assignment left right} :
    a.Fits ↔ (∀ i, a.target i = none → (left.get i).le .filler = true) ∧ ∀ p, a.FitsAt p := by
  constructor
  · rintro ⟨hout, hfree, halone, hmany⟩
    refine ⟨hout, fun p => ⟨hfree p, ?_⟩⟩
    intro i hi
    by_cases hother : ∃ j, j ≠ i ∧ a.target j = some p
    · obtain ⟨j, hne, hj⟩ := hother
      have htop : (right.get p).isTop = true := hmany j i p hne hj hi
      refine ⟨?_, fun _ _ => .inr htop⟩
      rw [Brick.isTop_iff.1 htop]
      exact Brick.le_top _
    · have hunique : ∀ j, a.target j = some p → j = i := by
        intro j hj
        by_contra hne
        exact hother ⟨j, hne, hj⟩
      exact ⟨halone i p hi hunique, fun j hj => .inl (hunique j hj)⟩
  · rintro ⟨hout, hfits⟩
    refine ⟨hout, fun p => (hfits p).1, fun i p hi _ => ((hfits p).2 i hi).1, ?_⟩
    intro i j p hne hi hj
    exact (((hfits p).2 j hj).2 i hi).resolve_left hne

/-- The brick for every string is above whatever it is assigned. -/
theorem fitsAt_of_isTop {a : Assignment left right} {p : Fin right.length}
    (h : (right.get p).isTop = true) : a.FitsAt p := by
  have hle : ∀ d : Brick, d.le (right.get p) = true := by
    intro d
    rw [Brick.isTop_iff.1 h]
    exact Brick.le_top d
  exact ⟨fun _ => hle _, fun i _ => ⟨hle _, fun _ _ => .inr h⟩⟩

/-! ## Building assignments -/

/-- The assignment of no bricks. -/
def nil (right : List Brick) : Assignment [] right where
  target i := i.elim0
  inOrder i := i.elim0

/-- The same targets behind one more brick on the right, which is assigned nothing. -/
def shift (c : Brick) (a : Assignment left right) : Assignment left (c :: right) where
  target i := (a.target i).map Fin.succ
  inOrder i j p q hij hp hq := by
    obtain ⟨p', hp', rfl⟩ := Option.map_eq_some_iff.1 hp
    obtain ⟨q', hq', rfl⟩ := Option.map_eq_some_iff.1 hq
    exact Fin.succ_le_succ_iff.2 (a.inOrder i j p' q' hij hp' hq')

/-- One more brick on the left, in front of the others, that is left out. -/
def leave (b : Brick) (a : Assignment left right) : Assignment (b :: left) right where
  target := Fin.cases none a.target
  inOrder i j p q hij hp hq := by
    cases i using Fin.cases with
    | zero => cases hp
    | succ i =>
      cases j using Fin.cases with
      | zero => exact absurd hij (Nat.not_le.2 (Nat.succ_pos _))
      | succ j => exact a.inOrder i j p q (Fin.succ_le_succ_iff.1 hij) hp hq

/-- One more brick on the left, in front of the others, that is put on the first brick on the
right. -/
def place (b : Brick) (a : Assignment left (c :: right)) : Assignment (b :: left) (c :: right) where
  target := Fin.cases (some 0) a.target
  inOrder i j p q hij hp hq := by
    cases i using Fin.cases with
    | zero =>
      cases hp
      exact Fin.zero_le q
    | succ i =>
      cases j using Fin.cases with
      | zero => exact absurd hij (Nat.not_le.2 (Nat.succ_pos _))
      | succ j => exact a.inOrder i j p q (Fin.succ_le_succ_iff.1 hij) hp hq

/-- The targets of all bricks but the first one on the left. -/
def tail (a : Assignment (b :: left) right) : Assignment left right where
  target i := a.target i.succ
  inOrder i j p q hij := a.inOrder i.succ j.succ p q (Fin.succ_le_succ_iff.2 hij)

/-- An assignment that leaves the first brick unplaced comes from one of the other bricks. -/
theorem eq_leave {a : Assignment (b :: left) right} (h : a.target 0 = none) :
    a = a.tail.leave b := by
  apply eq_of_target_eq
  intro i
  cases i using Fin.cases with
  | zero => exact h
  | succ i => rfl

/-- An assignment that places the first brick on the first one comes from one of the other bricks.
-/
theorem eq_place {a : Assignment (b :: left) (c :: right)} (h : a.target 0 = some 0) :
    a = a.tail.place b := by
  apply eq_of_target_eq
  intro i
  cases i using Fin.cases with
  | zero => exact h
  | succ i => rfl

/-- If nothing is put on the first brick on the right, the other targets lie behind it. -/
theorem exists_eq_shift {a : Assignment left (c :: right)} (h : ∀ i, a.target i ≠ some 0) :
    ∃ a' : Assignment left right, a = a'.shift c := by
  have hpred : ∀ i, ∃ p : Option (Fin right.length), a.target i = p.map Fin.succ := by
    intro i
    cases hi : a.target i with
    | none => exact ⟨none, rfl⟩
    | some p =>
      cases p using Fin.cases with
      | zero => exact absurd hi (h i)
      | succ p => exact ⟨some p, rfl⟩
  choose target htarget using hpred
  have hsome : ∀ {i p}, target i = some p → a.target i = some p.succ := by
    intro i p hi
    rw [htarget, hi]
    rfl
  refine ⟨⟨target, ?_⟩, eq_of_target_eq htarget⟩
  intro i j p q hij hp hq
  exact Fin.succ_le_succ_iff.1 (a.inOrder i j _ _ hij (hsome hp) (hsome hq))

/-! ## What fits -/

/-- In a shifted assignment a brick goes one position further. -/
theorem target_shift_eq_some_iff {a : Assignment left right} {i : Fin left.length}
    {p : Fin right.length} : (a.shift c).target i = some p.succ ↔ a.target i = some p := by
  show (a.target i).map Fin.succ = some p.succ ↔ a.target i = some p
  rw [Option.map_eq_some_iff]
  constructor
  · rintro ⟨q, hq, heq⟩
    rw [hq, Fin.succ_inj.1 heq]
  · intro h
    exact ⟨p, h, rfl⟩

/-- In a shifted assignment nothing is placed on the first position. -/
theorem target_shift_ne_zero {a : Assignment left right} (i : Fin left.length) :
    (a.shift c).target i ≠ some 0 := by
  intro h
  obtain ⟨q, -, heq⟩ := Option.map_eq_some_iff.1 h
  exact Fin.succ_ne_zero q heq

/-- A shifted assignment fits behind the first position where the assignment does. -/
theorem fitsAt_shift_succ_iff {a : Assignment left right} {p : Fin right.length} :
    (a.shift c).FitsAt p.succ ↔ a.FitsAt p := by
  simp only [FitsAt, Ne, target_shift_eq_some_iff]
  exact Iff.rfl

/-- A shifted assignment fits at the first position if that one may be left out. -/
theorem fitsAt_shift_zero_iff {a : Assignment left right} :
    (a.shift c).FitsAt 0 ↔ Brick.filler.le c = true := by
  constructor
  · intro h
    exact h.1 target_shift_ne_zero
  · intro h
    exact ⟨fun _ => h, fun i hi => absurd hi (target_shift_ne_zero i)⟩

/-- Where the first brick on the left is not put, it does not matter. -/
theorem fitsAt_tail_iff {a : Assignment (b :: left) right} {p : Fin right.length}
    (h : a.target 0 ≠ some p) : a.tail.FitsAt p ↔ a.FitsAt p := by
  constructor
  · rintro ⟨hfree, hbelow⟩
    refine ⟨fun hnone => hfree fun i => hnone i.succ, ?_⟩
    intro i hi
    cases i using Fin.cases with
    | zero => exact absurd hi h
    | succ i =>
      refine ⟨(hbelow i hi).1, ?_⟩
      intro j hj
      cases j using Fin.cases with
      | zero => exact absurd hj h
      | succ j => exact ((hbelow i hi).2 j hj).imp_left (congrArg Fin.succ)
  · rintro ⟨hfree, hbelow⟩
    constructor
    · intro hnone
      apply hfree
      intro i
      cases i using Fin.cases with
      | zero => exact h
      | succ i => exact hnone i
    · intro i hi
      refine ⟨(hbelow i.succ hi).1, ?_⟩
      intro j hj
      exact ((hbelow i.succ hi).2 j.succ hj).imp_left Fin.succ_inj.1

/-- What holds at every position holds at the first one and at all behind it. -/
theorem forall_position_iff {P : Fin (b :: left).length → Prop} :
    (∀ i, P i) ↔ P 0 ∧ ∀ i : Fin left.length, P i.succ :=
  Fin.forall_fin_succ

/-- A brick on the right that is assigned nothing has to be above the filler. -/
theorem fits_shift_iff {a : Assignment left right} :
    (a.shift c).Fits ↔ Brick.filler.le c = true ∧ a.Fits := by
  have hnone : ∀ i, (a.shift c).target i = none ↔ a.target i = none :=
    fun _ => Option.map_eq_none_iff
  rw [fits_iff, fits_iff, forall_position_iff (P := (a.shift c).FitsAt)]
  simp only [hnone, fitsAt_shift_zero_iff, fitsAt_shift_succ_iff]
  rw [and_left_comm]

/-- A brick on the left that is left out has to be below the filler. -/
theorem fits_leave_iff {a : Assignment left right} :
    (a.leave b).Fits ↔ b.le .filler = true ∧ a.Fits := by
  have hfirst : ∀ p, (a.leave b).target 0 ≠ some p := nofun
  rw [fits_iff, fits_iff, forall_position_iff, and_assoc]
  simp only [← fitsAt_tail_iff (hfirst _)]
  exact and_congr_left' (forall_prop_of_true rfl)

/-- What a first brick on the left that is put on the first one on the right asks for besides what
the others do. -/
theorem fits_place_iff {a : Assignment left (c :: right)} :
    (a.place b).Fits ↔ (a.place b).FitsAt 0 ∧
      (∀ i, a.target i = none → (left.get i).le .filler = true) ∧
      ∀ p : Fin right.length, a.FitsAt p.succ := by
  have hfirst : ∀ p : Fin right.length, (a.place b).target 0 ≠ some p.succ := by
    intro p h
    exact Fin.succ_ne_zero p (Option.some.inj h).symm
  rw [fits_iff, forall_position_iff, forall_position_iff (P := (a.place b).FitsAt)]
  simp only [← fitsAt_tail_iff (hfirst _)]
  constructor
  · rintro ⟨⟨-, hout⟩, hzero, hrest⟩
    exact ⟨hzero, hout, hrest⟩
  · rintro ⟨hzero, hout, hrest⟩
    exact ⟨⟨nofun, hout⟩, hzero, hrest⟩

/-- A brick that is put on the first one on the right alone has to be below it. -/
theorem fits_place_shift_iff {a : Assignment left right} :
    ((a.shift c).place b).Fits ↔ b.le c = true ∧ a.Fits := by
  have hzero : ((a.shift c).place b).FitsAt 0 ↔ b.le c = true := by
    constructor
    · intro h
      exact (h.2 0 rfl).1
    · intro h
      refine ⟨fun hfree => absurd rfl (hfree 0), ?_⟩
      intro i hi
      cases i using Fin.cases with
      | succ i => exact absurd hi (target_shift_ne_zero i)
      | zero =>
        refine ⟨h, ?_⟩
        intro j hj
        cases j using Fin.cases with
        | zero => exact .inl rfl
        | succ j => exact absurd hj (target_shift_ne_zero j)
  have hnone : ∀ i, (a.shift c).target i = none ↔ a.target i = none :=
    fun _ => Option.map_eq_none_iff
  rw [fits_place_iff, fits_iff, hzero]
  simp only [hnone, fitsAt_shift_succ_iff]

/-- The brick for every string takes one more brick than it has. -/
theorem fits_place_of_isTop (hc : c.isTop = true) {a : Assignment left (c :: right)} :
    (a.place b).Fits ↔ a.Fits := by
  have hzero : (a.place b).FitsAt 0 := fitsAt_of_isTop hc
  have hzero' : a.FitsAt 0 := fitsAt_of_isTop hc
  rw [fits_place_iff, fits_iff, forall_position_iff (P := a.FitsAt)]
  simp only [hzero, hzero', true_and]

end Assignment

namespace Alignment

open Assignment

variable {left right : List Brick}

/-- Each way of placing a brick adds one brick to an assignment that fits. -/
theorem exists_fits_of_aligned (h : Aligned left right) :
    ∃ a : Assignment left right, a.Fits := by
  induction h with
  | nil => exact ⟨.nil [], fits_iff.2 ⟨nofun, nofun⟩⟩
  | pair hab _ ih =>
    obtain ⟨a, ha⟩ := ih
    exact ⟨_, fits_place_shift_iff.2 ⟨hab, ha⟩⟩
  | drop hb _ ih =>
    obtain ⟨a, ha⟩ := ih
    exact ⟨_, fits_leave_iff.2 ⟨hb, ha⟩⟩
  | absorb hc _ ih =>
    obtain ⟨a, ha⟩ := ih
    exact ⟨_, (fits_place_of_isTop hc).2 ha⟩
  | skip hc _ ih =>
    obtain ⟨a, ha⟩ := ih
    exact ⟨_, fits_shift_iff.2 ⟨hc, ha⟩⟩

/-- If something is put on the first brick on the right and the first brick on the left is put
behind it, the order is not kept. -/
theorem target_ne_zero_of_succ {b c : Brick} {a : Assignment (b :: left) (c :: right)}
    {q : Fin right.length} (h : a.target 0 = some q.succ) (i : Fin (b :: left).length) :
    a.target i ≠ some 0 := by
  intro hi
  have hle : q.succ ≤ 0 := a.inOrder 0 i q.succ 0 (Fin.zero_le i) h hi
  exact absurd hle (Nat.not_le.2 (Nat.succ_pos q))

/-- Where the first brick on the left is put tells which brick can be taken off. The induction is on
the left, and within it on the right. -/
theorem aligned_of_fits {a : Assignment left right} (h : a.Fits) : Aligned left right := by
  induction left generalizing right with
  | nil =>
    induction right with
    | nil => exact .nil
    | cons c right ih =>
      obtain ⟨a', rfl⟩ := exists_eq_shift (a := a) nofun
      rw [fits_shift_iff] at h
      exact .skip h.1 (ih h.2)
  | cons b left ihl =>
    induction right with
    | nil =>
      have hnone : a.target 0 = none := Option.eq_none_iff_forall_not_mem.2 fun p => p.elim0
      rw [eq_leave hnone, fits_leave_iff] at h
      exact .drop h.1 (ihl h.2)
    | cons c right ihr =>
      cases htarget : a.target 0 with
      | none =>
        rw [eq_leave htarget, fits_leave_iff] at h
        exact .drop h.1 (ihl h.2)
      | some p =>
        cases p using Fin.cases with
        | succ q =>
          obtain ⟨a', rfl⟩ := exists_eq_shift (target_ne_zero_of_succ htarget)
          rw [fits_shift_iff] at h
          exact .skip h.1 (ihr h.2)
        | zero =>
          by_cases hmore : ∃ i, a.tail.target i = some 0
          · -- two bricks share the first one on the right
            obtain ⟨i, hi⟩ := hmore
            have hzero := (fits_iff.1 h).2 0
            have htop : c.isTop = true :=
              ((hzero.2 0 htarget).2 i.succ hi).resolve_left (Fin.succ_ne_zero i)
            rw [eq_place htarget, fits_place_of_isTop htop] at h
            exact .absorb htop (ihl h)
          · obtain ⟨a', ha'⟩ := exists_eq_shift fun i hi => hmore ⟨i, hi⟩
            rw [eq_place htarget, ha', fits_place_shift_iff] at h
            exact .pair h.1 (ihl h.2)

/-- Alignment is the search for an assignment that fits. -/
theorem aligned_iff_exists_fits : Aligned left right ↔ ∃ a : Assignment left right, a.Fits := by
  constructor
  · exact exists_fits_of_aligned
  · rintro ⟨a, ha⟩
    exact aligned_of_fits ha

end Alignment

namespace BrickSeq

/-- **The order decides whether there is an assignment that fits**: of two sequences that stand for
something, one is below the other exactly if its bricks can be assigned, in order, to bricks of the
other so that every brick of the other is above what it is assigned and whatever is left over faces
the filler. -/
theorem le_iff_exists_fits {x y : BrickSeq} (hx : x.isBottom = false) (hy : y.isBottom = false) :
    x.le y = true ↔ ∃ a : Assignment x.bricks y.bricks, a.Fits := by
  rw [le_iff_aligned hx hy]
  exact Alignment.aligned_iff_exists_fits

/-- Two literals share the brick for every string, and from the other side no assignment fits. -/
theorem le_iff_exists_fits_pieces :
    pieces.isBottom = false ∧ outline.isBottom = false ∧
    (∃ a : Assignment pieces.bricks outline.bricks, a.Fits) ∧
    ¬ ∃ a : Assignment outline.bricks pieces.bricks, a.Fits := by
  have hpieces : pieces.isBottom = false := by decide
  have houtline : outline.isBottom = false := by decide
  have hbelow : pieces.le outline = true := by decide
  have habove : ¬ outline.le pieces = true := by decide
  refine ⟨hpieces, houtline, (le_iff_exists_fits hpieces houtline).1 hbelow, ?_⟩
  rw [← le_iff_exists_fits houtline hpieces]
  exact habove

end BrickSeq

end StringBricks
