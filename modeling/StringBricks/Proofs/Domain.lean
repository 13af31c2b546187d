import StringBricks.Domain

/-!
# Laws of abstract domains

What a search in a domain relies on: an order with extrema, and joins and widenings that are above
their operands. Nothing is asked of the meet, and the order need not tell apart all values.
-/

set_option autoImplicit false

namespace StringBricks

namespace Domain

variable {α : Type} {d : Domain α}

/-- The order is reflexive and transitive, with `bottom` below everything and `top` above, and what
is below `bottom` is recognised as such. -/
structure IsOrdered (d : Domain α) : Prop where
  le_refl (x : α) : d.le x x = true
  le_trans {x y z : α} (hxy : d.le x y = true) (hyz : d.le y z = true) : d.le x z = true
  bottom_le (x : α) : d.le d.bottom x = true
  le_top (x : α) : d.le x d.top = true
  isBottom_of_le_bottom {x : α} (h : d.le x d.bottom = true) : d.isBottom x = true

/-- The join of two values is above both. -/
structure JoinCovers (d : Domain α) (x y : α) : Prop where
  le_join_left : d.le x (d.join x y) = true
  le_join_right : d.le y (d.join x y) = true

/-- The join of two values is the least value above both. -/
structure JoinIsLeast (d : Domain α) (x y : α) : Prop extends JoinCovers d x y where
  join_le {z : α} (hx : d.le x z = true) (hy : d.le y z = true) : d.le (d.join x y) z = true

/-- Join and widening of two values are above both, the widening has no fault, and the joins from
either side count as equal. -/
structure Covers (d : Domain α) (x y : α) : Prop extends JoinCovers d x y where
  join_comm : d.equiv (d.join x y) (d.join y x) = true
  exists_widen : ∃ w, d.widen x y = .ok w ∧ d.le x w = true ∧ d.le y w = true

/-- What is above a join is above both operands. -/
theorem JoinCovers.le_of_join_le {x y z : α} (h : d.JoinCovers x y) (hd : d.IsOrdered)
    (hz : d.le (d.join x y) z = true) : d.le x z = true ∧ d.le y z = true :=
  ⟨hd.le_trans h.le_join_left hz, hd.le_trans h.le_join_right hz⟩

end Domain

end StringBricks
