import StringBricks.Proofs.Brick.Join
import StringBricks.Proofs.BrickSeq.Order
import StringBricks.Proofs.BrickSeq.Padding

/-!
# The join of sequences

A candidate for an upper bound is kept only if it covers both sequences, so a join is above both,
whatever padding and normal form make of them (`BrickSeq.le_join_left`, `BrickSeq.le_join_right`).
The bricks are joined pair by pair, so the join does not depend on the order of the sequences,
unless both stand for no string; then it is the second one (`BrickSeq.join_comm`).
-/

set_option autoImplicit false

namespace StringBricks

namespace BrickSeq

variable {x y : BrickSeq}

/-! ## Covering -/

/-- What covers two sequences is above the first one. -/
theorem le_covering_left (x y c : BrickSeq) : x.le (covering x y c) = true := by
  unfold covering
  split
  · next h => exact (Bool.and_eq_true_iff.1 h).1
  · exact le_top x

/-- What covers two sequences does not depend on their order. -/
theorem covering_comm (x y c : BrickSeq) : covering x y c = covering y x c := by
  unfold covering
  rw [Bool.and_comm]

/-- What covers two sequences is above the second one. -/
theorem le_covering_right (x y c : BrickSeq) : y.le (covering x y c) = true := by
  rw [covering_comm]
  exact le_covering_left y x c

/-! ## Join -/

/-- A sequence for no string adds nothing to the one that it is joined with. -/
theorem join_of_isBottom_left (hx : x.isBottom = true) (y : BrickSeq) : x.join y = y := by
  unfold join
  rw [if_pos hx]

/-- A sequence for no string adds nothing to the one before it. -/
theorem join_of_isBottom_right (hx : x.isBottom = false) (hy : y.isBottom = true) :
    x.join y = x := by
  unfold join
  rw [hx, if_neg Bool.false_ne_true, if_pos hy]

/-- The join of two sequences that stand for something. -/
theorem join_eq (hx : x.isBottom = false) (hy : y.isBottom = false) :
    x.join y = if x.isTop || y.isTop then top
      else covering x y (normalized ((paired x y).map fun (a, b) => a.join b)) := by
  unfold join
  rw [hx, hy]
  rfl

/-- Nothing is added to the top sequence. -/
theorem join_top_left (y : BrickSeq) : top.join y = top := by
  unfold join
  rw [not_isBottom_top, isTop_top]
  simp

/-- A join is above its first operand. -/
theorem le_join_left (x y : BrickSeq) : x.le (x.join y) = true := by
  unfold join
  split
  · next hx => exact le_of_isBottom hx y
  · split
    · exact le_refl x
    · split
      · exact le_top x
      · exact le_covering_left x y _

/-- A join is above its second operand. -/
theorem le_join_right (x y : BrickSeq) : y.le (x.join y) = true := by
  unfold join
  split
  · exact le_refl y
  · split
    · next hy => exact le_of_isBottom hy x
    · split
      · exact le_top y
      · exact le_covering_right x y _

/-- The bricks that are joined pair by pair are the same ones from either side. -/
theorem map_join_paired_comm (hx : x.isBottom = false) (hy : y.isBottom = false) :
    ((paired x y).map fun (a, b) => a.join b) = (paired y x).map fun (a, b) => a.join b := by
  rw [← paired_swap x y, List.map_map]
  apply List.map_congr_left
  intro p hp
  have hparts := not_isBottom_of_mem_paired hx hy hp
  exact Brick.join_comm hparts.1 hparts.2

/-- The join of two sequences does not depend on their order, if one of them stands for something.
-/
theorem join_comm (h : x.isBottom = false ∨ y.isBottom = false) : x.join y = y.join x := by
  by_cases hx : x.isBottom = true
  · have hy : y.isBottom = false := h.resolve_left (by rw [hx]; exact Bool.noConfusion)
    rw [join_of_isBottom_left hx, join_of_isBottom_right hy hx]
  · rw [Bool.not_eq_true] at hx
    by_cases hy : y.isBottom = true
    · rw [join_of_isBottom_right hx hy, join_of_isBottom_left hy]
    · rw [Bool.not_eq_true] at hy
      rw [join_eq hx hy, join_eq hy hx, Bool.or_comm, map_join_paired_comm hx hy, covering_comm]

/-- Either join of two sequences is below the other, also where they differ. -/
theorem join_le_join_comm (x y : BrickSeq) : (x.join y).le (y.join x) = true := by
  by_cases h : x.isBottom = false ∨ y.isBottom = false
  · rw [join_comm h]
    exact le_refl _
  · rw [not_or, Bool.not_eq_false, Bool.not_eq_false] at h
    rw [join_of_isBottom_left h.1]
    exact le_of_isBottom h.2 _

end BrickSeq

end StringBricks
