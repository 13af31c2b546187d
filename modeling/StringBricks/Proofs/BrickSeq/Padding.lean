import StringBricks.Proofs.Brick.Order
import StringBricks.BrickSeq.Lattice
import Mathlib.Data.List.Zip
import Mathlib.Data.Finset.Card

/-!
# Padding

Padding brings a list of bricks to the length of a longer one and puts in nothing but fillers, and
no more of them than are needed: it loses no brick, doubles none and keeps their order
(`Alignment.pad_keeps_bricks`). All of this is read off one fact about the greedy pass
(`Alignment.filled_padTo`). So two sequences that stand for something are paired brick by brick,
without a brick for no string on either side, and pairing them the other way round only turns each
pair over (`BrickSeq.paired_swap`).
-/

set_option autoImplicit false

namespace StringBricks

namespace Alignment

/-- Whether the second list is the first one with `n` fillers put in. -/
inductive Filled : Nat → List Brick → List Brick → Prop
  | nil : Filled 0 [] []
  | keep {n : Nat} {mine l : List Brick} (b : Brick) :
      Filled n mine l → Filled n (b :: mine) (b :: l)
  | fill {n : Nat} {mine l : List Brick} :
      Filled n mine l → Filled (n + 1) mine (Brick.filler :: l)

/-- A list without additional fillers is filled with none. -/
theorem Filled.refl (mine : List Brick) : Filled 0 mine mine := by
  induction mine with
  | nil => exact .nil
  | cons b mine ih => exact .keep b ih

/-- The greedy pass uses up its bricks if it has room for them and the fillers it owes. Along the
pass the positions that are left are as many as the bricks and the fillers that are left. -/
theorem filled_padTo {needed : Nat} {mine theirs : List Brick}
    (h : theirs.length = mine.length + needed) : Filled needed mine (padTo needed mine theirs) := by
  induction theirs generalizing needed mine with
  | nil =>
    have hmine : mine = [] := List.eq_nil_of_length_eq_zero (by simp at h; omega)
    have hneeded : needed = 0 := by simp at h; omega
    rw [hmine, hneeded]
    exact .nil
  | cons c theirs ih =>
    cases mine with
    | nil =>
      obtain ⟨k, rfl⟩ : ∃ k, needed = k + 1 := ⟨theirs.length, by simpa using h.symm⟩
      exact .fill (ih (by simpa using h))
    | cons b mine =>
      unfold padTo
      split
      · refine .keep b (ih ?_)
        simp only [List.length_cons] at h
        omega
      · next hfill =>
        obtain ⟨k, rfl⟩ := Nat.exists_eq_succ_of_ne_zero (not_or.1 hfill).1
        refine .fill (ih ?_)
        simp only [List.length_cons] at h ⊢
        omega

/-- Padding puts in as many fillers as the list is shorter than the other one. -/
theorem filled_pad (mine theirs : List Brick) :
    Filled (theirs.length - mine.length) mine (pad mine theirs) := by
  unfold pad
  split
  · next hle =>
    rw [Nat.sub_eq_zero_of_le hle]
    exact Filled.refl mine
  · apply filled_padTo
    omega

namespace Filled

variable {n : Nat} {mine l : List Brick}

/-- A filled list has the bricks of the list and the fillers. -/
theorem length_eq (h : Filled n mine l) : l.length = mine.length + n := by
  induction h with
  | nil => rfl
  | keep b _ ih =>
    rw [List.length_cons, List.length_cons, ih]
    omega
  | fill _ ih =>
    rw [List.length_cons, ih]
    omega

/-- A brick of a filled list is one of the list or a filler. -/
theorem mem (h : Filled n mine l) {b : Brick} (hb : b ∈ l) : b ∈ mine ∨ b = Brick.filler := by
  induction h with
  | nil => cases hb
  | keep c _ ih =>
    cases List.mem_cons.1 hb with
    | inl hbc => exact .inl (hbc ▸ List.mem_cons_self)
    | inr hbl => exact (ih hbl).imp_left (List.mem_cons_of_mem c)
  | fill _ ih =>
    cases List.mem_cons.1 hb with
    | inl hbf => exact .inr hbf
    | inr hbl => exact ih hbl

end Filled

/-- Padding brings a list to the length of the longer of the two. -/
theorem length_pad (mine theirs : List Brick) :
    (pad mine theirs).length = max mine.length theirs.length := by
  rw [(filled_pad mine theirs).length_eq]
  omega

/-- Padding puts in nothing but fillers. -/
theorem mem_pad {mine theirs : List Brick} {b : Brick} (h : b ∈ pad mine theirs) :
    b ∈ mine ∨ b = Brick.filler :=
  (filled_pad mine theirs).mem h

/-! ## Taking the fillers out again -/

/-- The bricks of `l`, in order, without those at the given positions. -/
def without (positions : Finset Nat) (l : List Brick) : List Brick :=
  (l.zipIdx.filter fun p => p.2 ∉ positions).map Prod.fst

/-- Behind the first brick every position is one less. -/
theorem without_cons {S T : Finset Nat} (hT : ∀ i, i + 1 ∈ S ↔ i ∈ T) (b : Brick)
    (l : List Brick) : without S (b :: l) = if 0 ∈ S then without T l else b :: without T l := by
  have htail : ((l.zipIdx 1).filter fun p => p.2 ∉ S).map Prod.fst = without T l := by
    rw [List.zipIdx_succ, List.filter_map, List.map_map]
    simp only [Function.comp_def, hT]
    rfl
  rw [without, List.zipIdx_cons, List.filter_cons]
  split
  · next h => rw [List.map_cons, htail, if_neg (by simpa using h)]
  · next h => rw [htail, if_pos (by simpa using h)]

/-- Where the fillers were put in, they can be taken out. -/
theorem Filled.exists_positions {n : Nat} {mine l : List Brick} (h : Filled n mine l) :
    ∃ fillers : Finset Nat, fillers.card = n ∧ (∀ i ∈ fillers, l[i]? = some Brick.filler) ∧
      without fillers l = mine := by
  have hsucc : Function.Injective (· + 1 : Nat → Nat) := fun _ _ => Nat.succ.inj
  induction h with
  | nil => exact ⟨∅, rfl, fun i hi => absurd hi (Finset.notMem_empty i), rfl⟩
  | keep b _ ih =>
    obtain ⟨fillers, hcard, hfillers, hmine⟩ := ih
    refine ⟨fillers.image (· + 1), ?_, ?_, ?_⟩
    · rw [Finset.card_image_of_injective _ hsucc, hcard]
    · intro i hi
      obtain ⟨j, hj, rfl⟩ := Finset.mem_image.1 hi
      exact hfillers j hj
    · rw [without_cons (T := fillers) (by simp), if_neg (by simp), hmine]
  | fill _ ih =>
    obtain ⟨fillers, hcard, hfillers, hmine⟩ := ih
    refine ⟨insert 0 (fillers.image (· + 1)), ?_, ?_, ?_⟩
    · rw [Finset.card_insert_of_notMem (by simp), Finset.card_image_of_injective _ hsucc, hcard]
    · intro i hi
      cases Finset.mem_insert.1 hi with
      | inl hzero => rw [hzero, List.getElem?_cons_zero]
      | inr hi =>
        obtain ⟨j, hj, rfl⟩ := Finset.mem_image.1 hi
        exact hfillers j hj
    · rw [without_cons (T := fillers) (by simp), if_pos (Finset.mem_insert_self _ _), hmine]

/-- **Padding keeps the bricks**: it brings a list to the length of the longer of the two, and there
are as many positions as the list was shorter, each with a filler, without which the list is left as
it was. -/
theorem pad_keeps_bricks (mine theirs : List Brick) :
    (pad mine theirs).length = max mine.length theirs.length ∧
      ∃ fillers : Finset Nat, fillers.card = theirs.length - mine.length ∧
        (∀ i ∈ fillers, (pad mine theirs)[i]? = some Brick.filler) ∧
          without fillers (pad mine theirs) = mine :=
  ⟨length_pad mine theirs, (filled_pad mine theirs).exists_positions⟩

/-- Padding puts in no brick for no string. -/
theorem not_isBottom_of_mem_pad {mine theirs : List Brick} {b : Brick}
    (hmine : mine.any Brick.isBottom = false) (h : b ∈ pad mine theirs) : b.isBottom = false := by
  cases mem_pad h with
  | inl hb => exact any_isBottom_eq_false_iff.1 hmine b hb
  | inr hb => exact hb ▸ Brick.not_isBottom_filler

end Alignment

namespace BrickSeq

variable {x y : BrickSeq}

/-- The first bricks of the pairs are the first list, padded. -/
theorem map_fst_paired (x y : BrickSeq) :
    (paired x y).map Prod.fst = Alignment.pad x.bricks y.bricks := by
  apply List.map_fst_zip
  have hlen := Alignment.length_pad x.bricks y.bricks
  have hlen' := Alignment.length_pad y.bricks x.bricks
  omega

/-- The second bricks of the pairs are the second list, padded. -/
theorem map_snd_paired (x y : BrickSeq) :
    (paired x y).map Prod.snd = Alignment.pad y.bricks x.bricks := by
  apply List.map_snd_zip
  have hlen := Alignment.length_pad x.bricks y.bricks
  have hlen' := Alignment.length_pad y.bricks x.bricks
  omega

/-- There are as many pairs as the longer of the two lists has bricks. -/
theorem length_paired (x y : BrickSeq) : (paired x y).length = max x.length y.length := by
  rw [← List.length_map Prod.fst, map_fst_paired, Alignment.length_pad]
  rfl

/-- Pairing from the other side swaps the pairs. -/
theorem paired_swap (x y : BrickSeq) : (paired x y).map Prod.swap = paired y x :=
  List.zip_swap _ _

/-- Sequences that stand for something have no brick for no string in their pairs. -/
theorem not_isBottom_of_mem_paired (hx : x.isBottom = false) (hy : y.isBottom = false)
    {p : Brick × Brick} (hp : p ∈ paired x y) : p.1.isBottom = false ∧ p.2.isBottom = false := by
  have hparts := List.of_mem_zip hp
  exact ⟨Alignment.not_isBottom_of_mem_pad (any_isBottom_of_not_isBottom hx) hparts.1,
    Alignment.not_isBottom_of_mem_pad (any_isBottom_of_not_isBottom hy) hparts.2⟩

end BrickSeq

end StringBricks
