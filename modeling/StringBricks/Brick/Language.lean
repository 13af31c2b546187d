import StringBricks.Brick.Basic

/-!
# The strings of a brick

Which strings a brick stands for, said without any of the operations on bricks. The filler stands
for the empty string alone (`denotes_filler`), a literal for its string (`denotes_literal`), and the
top brick for every string (`denotes_top`).
-/

set_option autoImplicit false

namespace StringBricks

/-- Whether `k` repetitions stay within the bound. -/
def Bound.Admits : Bound → Nat → Prop
  | finite n, k => k ≤ n.toNat
  | infinite, _ => True

/-- Whether `w` is a concatenation of `k` strings that the content allows. -/
def Content.Spells (c : Content) : Nat → String → Prop
  | 0, w => w = ""
  | k + 1, w => ∃ s t, c.Allows s ∧ c.Spells k t ∧ w = s ++ t

namespace Content

/-- No repetitions spell the empty string. -/
@[simp] theorem spells_zero {c : Content} {w : String} : c.Spells 0 w ↔ w = "" := Iff.rfl

/-- One more repetition comes before the others. -/
theorem spells_succ {c : Content} {k : Nat} {w : String} :
    c.Spells (k + 1) w ↔ ∃ s t, c.Allows s ∧ c.Spells k t ∧ w = s ++ t := Iff.rfl

/-- One repetition spells a string of the content. -/
@[simp] theorem spells_one {c : Content} {w : String} : c.Spells 1 w ↔ c.Allows w := by
  simp [spells_succ]

end Content

namespace Brick

/-- Whether `w` is one of the strings that the brick stands for. -/
def Denotes (b : Brick) (w : String) : Prop :=
  b.isBottom = false ∧ ∃ k, b.lo.toNat ≤ k ∧ b.hi.Admits k ∧ b.content.Spells k w

/-- A brick for no string stands for none. -/
theorem not_denotes_of_isBottom {b : Brick} (h : b.isBottom = true) (w : String) : ¬ b.Denotes w :=
  fun hw => Bool.noConfusion (hw.1.symm.trans h)

/-- The filler stands for the empty string. -/
@[simp] theorem denotes_filler {w : String} : filler.Denotes w ↔ w = "" := by
  constructor
  · rintro ⟨-, k, -, hk, hw⟩
    obtain rfl : k = 0 := Nat.le_zero.1 hk
    exact hw
  · rintro rfl
    exact ⟨by decide, 0, Nat.le_refl _, Nat.le_refl _, rfl⟩

/-- The brick for a string stands for that string. -/
@[simp] theorem denotes_literal {s w : String} : (literal s).Denotes w ↔ w = s := by
  constructor
  · rintro ⟨-, k, hlo, hhi, hw⟩
    obtain rfl : k = 1 := Nat.le_antisymm hhi hlo
    exact StringSet.mem_singleton.1 (Content.spells_one.1 hw)
  · rintro rfl
    exact ⟨rfl, 1, Nat.le_refl _, Nat.le_refl _,
      Content.spells_one.2 (StringSet.mem_singleton.2 rfl)⟩

/-- The top brick stands for every string. -/
@[simp] theorem denotes_top (w : String) : top.Denotes w :=
  ⟨by decide, 1, Nat.zero_le _, trivial, Content.spells_one.2 trivial⟩

end Brick

end StringBricks
