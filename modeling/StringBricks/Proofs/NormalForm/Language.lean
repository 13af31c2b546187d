import StringBricks.Proofs.NormalForm.Rewriting
import StringBricks.BrickSeq.Language

/-!
# The strings of the normal form

No rule loses a string, as long as the sums of counts stay below the cap or the string is no longer
than the cap (`NormalForm.Rewrites.concatenates`): repetitions beyond the length of a string can be
left out. No rule adds a string, as long as the sums stay below the cap
(`NormalForm.Rewrites.concatenates_of`). The weight of a list bounds all its sums.
-/

set_option autoImplicit false

namespace StringBricks

/-- A list of one brick stands for the strings of that brick. -/
theorem concatenates_singleton {b : Brick} {w : String} : Concatenates [b] w ↔ b.Denotes w := by
  simp [Concatenates]

/-- A list of two bricks stands for a string of the first followed by one of the second. -/
theorem concatenates_pair {a b : Brick} {w : String} :
    Concatenates [a, b] w ↔ ∃ s t, a.Denotes s ∧ b.Denotes t ∧ w = s ++ t := by
  simp [Concatenates]

/-- What two lists one after the other stand for is a string of the first followed by one of the
second. -/
theorem concatenates_append {l m : List Brick} {w : String} :
    Concatenates (l ++ m) w ↔ ∃ s t, Concatenates l s ∧ Concatenates m t ∧ w = s ++ t := by
  induction l generalizing w with
  | nil => simp [Concatenates]
  | cons b l ih =>
    constructor
    · rintro ⟨r, u, hr, hu, rfl⟩
      obtain ⟨s, t, hs, ht, rfl⟩ := ih.1 hu
      exact ⟨r ++ s, t, ⟨r, s, hr, hs, rfl⟩, ht, String.append_assoc.symm⟩
    · rintro ⟨s, t, ⟨r, s', hr, hs', rfl⟩, ht, rfl⟩
      exact ⟨r, s' ++ t, hr, ih.2 ⟨s', t, hs', ht, rfl⟩, String.append_assoc⟩

namespace Bound

/-- Beyond what was taken away, a bound admits what the difference admits. -/
theorem admits_add_iff {a r : Bound} {n : Count} (h : a.sub (.finite n) = .ok r) (k : Nat) :
    a.Admits (n.toNat + k) ↔ r.Admits k := by
  cases sub_eq_ok h with
  | inl hinf =>
    rw [hinf.1, hinf.2]
    exact Iff.rfl
  | inr hfin =>
    obtain ⟨m, j, rfl, rfl, hsum⟩ := hfin
    show n.toNat + k ≤ m.toNat ↔ k ≤ j.toNat
    omega

/-- A number of repetitions in the sum of two ranges is the sum of a number from each. -/
theorem exists_admits_add {lo lo' : Count} {hi hi' : Bound} {n : Nat} (h : .finite lo ≤ hi)
    (h' : .finite lo' ≤ hi') (hlo : lo.toNat + lo'.toNat ≤ n) (hhi : (hi + hi').Admits n) :
    ∃ j k, lo.toNat ≤ j ∧ hi.Admits j ∧ lo'.toNat ≤ k ∧ hi'.Admits k ∧ n = j + k := by
  rw [← admits_toNat_iff] at h h'
  cases hi with
  | infinite => exact ⟨n - lo'.toNat, lo'.toNat, by omega, trivial, Nat.le_refl _, h', by omega⟩
  | finite m =>
    cases hi' with
    | infinite => exact ⟨lo.toNat, n - lo.toNat, Nat.le_refl _, h, by omega, trivial, by omega⟩
    | finite m' =>
      have hle : n ≤ m.toNat + m'.toNat := by
        have hsum : n ≤ (m + m').toNat := hhi
        rw [Count.toNat_add] at hsum
        omega
      have hm : lo.toNat ≤ m.toNat := h
      have hm' : lo'.toNat ≤ m'.toNat := h'
      -- as many as possible go to the first range, but the second one keeps its minimum
      refine ⟨min m.toNat (n - lo'.toNat), n - min m.toNat (n - lo'.toNat), ?_, ?_, ?_, ?_, ?_⟩
      · omega
      · exact Nat.min_le_left _ _
      · omega
      · show n - min m.toNat (n - lo'.toNat) ≤ m'.toNat
        omega
      · omega

end Bound

namespace Brick

/-- A brick that occurs exactly once stands for its content. -/
@[simp] theorem denotes_once {c : Content} {w : String} : Denotes ⟨c, 1, 1⟩ w ↔ c.Allows w := by
  constructor
  · rintro ⟨-, k, hlo, hhi, hw⟩
    obtain rfl : k = 1 := Nat.le_antisymm hhi hlo
    exact Content.spells_one.1 hw
  · intro hw
    have hne : c ≠ .known .empty := by
      intro hc
      rw [hc] at hw
      exact StringSet.not_mem_empty w hw
    exact ⟨not_isBottom_once.2 hne, 1, Nat.le_refl _, Nat.le_refl _, Content.spells_one.2 hw⟩

/-- An exact number of occurrences, as the strings of the power. -/
theorem denotes_power {c : Content} {k : Count} (hk : 1 ≤ k.toNat)
    (h : isBottom ⟨c, k, .finite k⟩ = false) {w : String} :
    Denotes ⟨c, k, .finite k⟩ w ↔ Denotes ⟨c.power k.toNat, 1, 1⟩ w := by
  rw [denotes_once, Content.allows_power hk, denotes_iff h]
  constructor
  · rintro ⟨n, hlo, hhi, hw⟩
    obtain rfl : n = k.toNat := Nat.le_antisymm hhi hlo
    exact hw
  · intro hw
    exact ⟨k.toNat, Nat.le_refl _, Nat.le_refl _, hw⟩

/-- A range, as its mandatory occurrences followed by the optional ones. -/
theorem concatenates_split {c : Content} {lo : Count} {hi rest : Bound}
    (hrest : hi.sub (.finite lo) = .ok rest) (h : isBottom ⟨c, lo, hi⟩ = false)
    (hhead : isBottom ⟨c, lo, .finite lo⟩ = false) (htail : isBottom ⟨c, 0, rest⟩ = false)
    {w : String} :
    Concatenates [⟨c, lo, .finite lo⟩, ⟨c, 0, rest⟩] w ↔ Denotes ⟨c, lo, hi⟩ w := by
  rw [concatenates_pair, denotes_iff h]
  constructor
  · rintro ⟨s, t, hs, ht, rfl⟩
    obtain ⟨j, hlo, hhi, hs⟩ := (denotes_iff hhead).1 hs
    obtain ⟨k, -, hk, ht⟩ := (denotes_iff htail).1 ht
    obtain rfl : j = lo.toNat := Nat.le_antisymm hhi hlo
    exact ⟨lo.toNat + k, Nat.le_add_right _ _, (Bound.admits_add_iff hrest k).2 hk,
      Content.spells_add.2 ⟨s, t, hs, ht, rfl⟩⟩
  · rintro ⟨n, hlo, hhi, hw⟩
    obtain ⟨k, rfl⟩ := Nat.exists_eq_add_of_le hlo
    obtain ⟨s, t, hs, ht, rfl⟩ := Content.spells_add.1 hw
    refine ⟨s, t, (denotes_iff hhead).2 ?_, (denotes_iff htail).2 ?_, rfl⟩
    · exact ⟨lo.toNat, Nat.le_refl _, Nat.le_refl _, hs⟩
    · exact ⟨k, Nat.zero_le k, (Bound.admits_add_iff hrest k).1 hhi, ht⟩

variable {c : Content} {lo lo' : Count} {hi hi' : Bound}

/-- Two bricks over one content lose no string when their ranges are added, if the sum stays below
the cap or the string is no longer than the cap. -/
theorem denotes_equal (h : isBottom ⟨c, lo, hi⟩ = false) (h' : isBottom ⟨c, lo', hi'⟩ = false)
    (hsum : isBottom ⟨c, lo + lo', hi + hi'⟩ = false) {s t : String} (hs : Denotes ⟨c, lo, hi⟩ s)
    (ht : Denotes ⟨c, lo', hi'⟩ t)
    (hfit : NormalForm.weight ⟨c, lo, hi⟩ + NormalForm.weight ⟨c, lo', hi'⟩ ≤ Count.cap ∨
      (s ++ t).length ≤ Count.cap) :
    Denotes ⟨c, lo + lo', hi + hi'⟩ (s ++ t) := by
  obtain ⟨j, hj, hhij, hs⟩ := (denotes_iff h).1 hs
  obtain ⟨k, hk, hhik, ht⟩ := (denotes_iff h').1 ht
  have hw : c.Spells (j + k) (s ++ t) := Content.spells_add.2 ⟨s, t, hs, ht, rfl⟩
  rw [denotes_iff hsum]
  have hlo : (lo + lo').toNat ≤ j + k := by
    rw [Count.toNat_add]
    simp only at hj hk
    omega
  cases hi with
  | infinite => exact ⟨j + k, hlo, by simp [Bound.Admits], hw⟩
  | finite m =>
    cases hi' with
    | infinite => exact ⟨j + k, hlo, by simp [Bound.Admits], hw⟩
    | finite m' =>
      have hjm : j ≤ m.toNat := hhij
      have hkm : k ≤ m'.toNat := hhik
      by_cases hcap : j + k ≤ Count.cap
      · refine ⟨j + k, hlo, ?_, hw⟩
        show j + k ≤ (m + m').toNat
        rw [Count.toNat_add]
        omega
      · -- the sum saturates, so the weights do not fit and the string has to be short
        have hshort : (s ++ t).length ≤ Count.cap := by
          cases hfit with
          | inl hweight =>
            have hweight' : m.toNat + m'.toNat ≤ Count.cap := hweight
            omega
          | inr hshort => exact hshort
        refine ⟨Count.cap, ?_, ?_, Content.spells_of_length_le hw hshort (by omega)⟩
        · exact (lo + lo').toNat_le_cap
        · show Count.cap ≤ (m + m').toNat
          rw [Count.toNat_add]
          omega

/-- Two bricks over one content get no new string when their ranges are added below the cap. -/
theorem exists_denotes_of_equal (h : isBottom ⟨c, lo, hi⟩ = false)
    (h' : isBottom ⟨c, lo', hi'⟩ = false)
    (hfit : NormalForm.weight ⟨c, lo, hi⟩ + NormalForm.weight ⟨c, lo', hi'⟩ ≤ Count.cap)
    {w : String} (hw : Denotes ⟨c, lo + lo', hi + hi'⟩ w) :
    ∃ s t, Denotes ⟨c, lo, hi⟩ s ∧ Denotes ⟨c, lo', hi'⟩ t ∧ w = s ++ t := by
  obtain ⟨-, n, hlo, hhi, hw⟩ := hw
  have hmin : lo.toNat + lo'.toNat ≤ n := by
    have hweight := NormalForm.lo_le_weight h
    have hweight' := NormalForm.lo_le_weight h'
    simp only [Count.toNat_add] at hlo hweight hweight'
    omega
  obtain ⟨j, k, hj, hhij, hk, hhik, rfl⟩ :=
    Bound.exists_admits_add (lo_le_hi h) (lo_le_hi h') hmin hhi
  obtain ⟨s, t, hs, ht, rfl⟩ := Content.spells_add.1 hw
  exact ⟨s, t, (denotes_iff h).2 ⟨j, hj, hhij, hs⟩, (denotes_iff h').2 ⟨k, hk, hhik, ht⟩, rfl⟩

end Brick

namespace NormalForm

namespace Rewrites

variable {l m : List Brick}

/-- The rules lose no string, if the list weighs no more than the cap or the string is no longer
than the cap. -/
theorem concatenates (h : Rewrites l m) (hl : l.any Brick.isBottom = false) {w : String}
    (hfit : totalWeight l ≤ Count.cap ∨ w.length ≤ Count.cap) (hw : Concatenates l w) :
    Concatenates m w := by
  induction h generalizing w with
  | refl l => exact hw
  | trans h₁ _ ih₁ ih₂ =>
    have hfit' := hfit.imp_left (Nat.le_trans (h₁.totalWeight_le hl))
    exact ih₂ (h₁.any_isBottom hl) hfit' (ih₁ hl hfit hw)
  | append _ _ ih₁ ih₂ =>
    rw [List.any_append, Bool.or_eq_false_iff] at hl
    obtain ⟨s, t, hs, ht, rfl⟩ := concatenates_append.1 hw
    rw [totalWeight_append, String.length_append] at hfit
    have hleft := ih₁ hl.1 (by omega) hs
    have hright := ih₂ hl.2 (by omega) ht
    exact concatenates_append.2 ⟨s, t, hleft, hright, rfl⟩
  | filler => exact Brick.denotes_filler.1 (concatenates_singleton.1 hw)
  | single a b =>
    obtain ⟨s, t, hs, ht, rfl⟩ := concatenates_pair.1 hw
    rw [concatenates_singleton, Brick.denotes_once]
    apply StringSet.mem_cross.2
    exact ⟨s, Brick.denotes_once.1 hs, t, Brick.denotes_once.1 ht, rfl⟩
  | collapse c hk =>
    simp only [List.any_cons, List.any_nil, Bool.or_false] at hl
    rw [concatenates_singleton] at hw ⊢
    exact (Brick.denotes_power (by omega) hl).1 hw
  | equal c lo lo' hi hi' =>
    have hsum := (Rewrites.equal c lo lo' hi hi').any_isBottom hl
    simp only [List.any_cons, List.any_nil, Bool.or_false, Bool.or_eq_false_iff] at hl hsum
    obtain ⟨s, t, hs, ht, rfl⟩ := concatenates_pair.1 hw
    apply concatenates_singleton.2
    exact Brick.denotes_equal hl.1 hl.2 hsum hs ht hfit
  | split c hlo hlt hrest =>
    have hparts := (Rewrites.split c hlo hlt hrest).any_isBottom hl
    simp only [List.any_cons, List.any_nil, Bool.or_false, Bool.or_eq_false_iff] at hl hparts
    rw [concatenates_singleton] at hw
    exact (Brick.concatenates_split hrest hl hparts.1 hparts.2).2 hw

/-- The rules add no string, if the list weighs no more than the cap. -/
theorem concatenates_of (h : Rewrites l m) (hl : l.any Brick.isBottom = false) {w : String}
    (hfit : totalWeight l ≤ Count.cap) (hw : Concatenates m w) : Concatenates l w := by
  induction h generalizing w with
  | refl l => exact hw
  | trans h₁ _ ih₁ ih₂ =>
    have hfit' := Nat.le_trans (h₁.totalWeight_le hl) hfit
    exact ih₁ hl hfit (ih₂ (h₁.any_isBottom hl) hfit' hw)
  | append _ _ ih₁ ih₂ =>
    rw [List.any_append, Bool.or_eq_false_iff] at hl
    obtain ⟨s, t, hs, ht, rfl⟩ := concatenates_append.1 hw
    rw [totalWeight_append] at hfit
    have hleft := ih₁ hl.1 (by omega) hs
    have hright := ih₂ hl.2 (by omega) ht
    exact concatenates_append.2 ⟨s, t, hleft, hright, rfl⟩
  | filler => exact concatenates_singleton.2 (Brick.denotes_filler.2 hw)
  | single a b =>
    rw [concatenates_singleton, Brick.denotes_once] at hw
    obtain ⟨s, hs, t, ht, rfl⟩ := StringSet.mem_cross.1 hw
    apply concatenates_pair.2
    exact ⟨s, t, Brick.denotes_once.2 hs, Brick.denotes_once.2 ht, rfl⟩
  | collapse c hk =>
    simp only [List.any_cons, List.any_nil, Bool.or_false] at hl
    rw [concatenates_singleton] at hw ⊢
    exact (Brick.denotes_power (by omega) hl).2 hw
  | equal c lo lo' hi hi' =>
    simp only [List.any_cons, List.any_nil, Bool.or_false, Bool.or_eq_false_iff] at hl
    rw [concatenates_singleton] at hw
    apply concatenates_pair.2
    exact Brick.exists_denotes_of_equal hl.1 hl.2 hfit hw
  | split c hlo hlt hrest =>
    have hparts := (Rewrites.split c hlo hlt hrest).any_isBottom hl
    simp only [List.any_cons, List.any_nil, Bool.or_false, Bool.or_eq_false_iff] at hl hparts
    rw [concatenates_singleton]
    exact (Brick.concatenates_split hrest hl hparts.1 hparts.2).1 hw

end Rewrites

end NormalForm

end StringBricks
