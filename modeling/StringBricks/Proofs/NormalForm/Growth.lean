import StringBricks.Proofs.NormalForm.Rewriting
import Mathlib.Algebra.Group.Nat.Defs
import Mathlib.Data.List.Perm.Subperm

/-!
# How large sets grow in the normal form

Powers and products make larger sets, but not without limit. The volume of a list counts the ways of
choosing one member for each mandatory repetition. No rule adds to the volume
(`NormalForm.Rewrites.volume_le`), and no rule makes a set that is larger than both the volume and
the sets there were (`NormalForm.Rewrites.variety_le`).
-/

set_option autoImplicit false

namespace StringBricks

namespace StringSet

/-- A merge with one more string in front is longer by at most that string. -/
theorem length_mergeHead_le {s : String} {rest : List String → List String} {n : Nat}
    (hrest : ∀ m, (rest m).length ≤ n + m.length) (m : List String) :
    (mergeHead s rest m).length ≤ n + 1 + m.length := by
  induction m with
  | nil =>
    have h := hrest []
    simp only [mergeHead, List.length_cons, List.length_nil] at h ⊢
    omega
  | cons t m ih =>
    unfold mergeHead
    split
    · have h := hrest (t :: m)
      simp only [List.length_cons] at h ⊢
      omega
    · split
      · have h := hrest m
        simp only [List.length_cons]
        omega
      · simp only [List.length_cons]
        omega

/-- A merge has at most the members of both lists. -/
theorem length_merge_le (l m : List String) : (merge l m).length ≤ l.length + m.length := by
  induction l generalizing m with
  | nil => simp [merge]
  | cons s l ih => exact length_mergeHead_le ih m

/-- A union has at most the members of both sets. -/
theorem size_union_le (a b : StringSet) : (a.union b).size ≤ a.size + b.size :=
  length_merge_le a.toList b.toList

/-- A map does not make more members. -/
theorem size_map_le (f : String → String) (a : StringSet) : (a.map f).size ≤ a.size := by
  have hlist : ∀ l : List String, (ofList l).size ≤ l.length := by
    intro l
    induction l with
    | nil => exact Nat.le_refl 0
    | cons s l ih =>
      have hinsert : (insert s (ofList l)).size ≤ 1 + (ofList l).size := size_union_le _ _
      rw [List.length_cons]
      exact Nat.le_trans hinsert (by omega)
  have hmap := hlist (a.toList.map f)
  rw [List.length_map] at hmap
  exact hmap

/-- A product has at most one member for each pair. -/
theorem size_cross_le (a b : StringSet) : (a.cross b).size ≤ a.size * b.size := by
  unfold cross size
  induction a.toList with
  | nil => simp [empty]
  | cons s l ih =>
    have hunion := size_union_le (b.map (s ++ ·))
      (l.foldr (fun s products => (b.map (s ++ ·)).union products) empty)
    have hrow := size_map_le (s ++ ·) b
    unfold size at hunion hrow
    rw [List.foldr_cons, List.length_cons, Nat.succ_mul]
    omega

/-- A power has at most one member for each choice of a member at every repetition. -/
theorem size_power_le (a : StringSet) {k : Nat} (hk : 1 ≤ k) : (a.power k).size ≤ a.size ^ k := by
  obtain ⟨k, rfl⟩ := Nat.exists_eq_add_of_le' hk
  clear hk
  induction k with
  | zero => simp
  | succ k ih =>
    rw [power_add_two]
    calc ((a.power (k + 1)).cross a).size
        ≤ (a.power (k + 1)).size * a.size := size_cross_le _ a
      _ ≤ a.size ^ (k + 1) * a.size := Nat.mul_le_mul_right _ ih
      _ = a.size ^ (k + 1 + 1) := (Nat.pow_succ ..).symm

/-- A set in another one that is not larger is that set. -/
theorem eq_of_subset {a b : StringSet} (h : ∀ s, s ∈ a → s ∈ b) (hsize : b.size ≤ a.size) :
    a = b := by
  have hnodup : a.toList.Nodup := by
    refine List.Pairwise.imp ?_ a.ascending
    intro s t hlt heq
    rw [heq] at hlt
    exact String.lt_irrefl t hlt
  have hperm := (List.subperm_of_subset hnodup h).perm_of_length_le hsize
  ext s
  exact hperm.mem_iff

/-- Only the empty set has no members. -/
theorem size_eq_zero_iff {a : StringSet} : a.size = 0 ↔ a = .empty := by
  rw [← isEmpty_iff]
  exact List.length_eq_zero_iff.trans List.isEmpty_iff.symm

end StringSet

/-- The number of strings that a repetition may be, where unknown content counts as one. -/
def Content.variety : Content → Nat
  | .known members => members.size
  | .unknown => 1

/-- A power allows at most one string for each choice at every repetition. -/
theorem Content.variety_power_le (c : Content) {k : Nat} (hk : 1 ≤ k) :
    (c.power k).variety ≤ c.variety ^ k := by
  cases c with
  | unknown => simp [power, variety]
  | known a => exact StringSet.size_power_le a hk

/-- What must occur is something. -/
theorem Brick.variety_pos {b : Brick} (h : b.isBottom = false) (hlo : 1 ≤ b.lo.toNat) :
    1 ≤ b.content.variety := by
  cases hc : b.content with
  | unknown => exact Nat.le_refl 1
  | known a =>
    have hne : a ≠ .empty := members_ne_empty h (hi_ne_zero h hlo) hc
    apply Nat.pos_of_ne_zero
    intro hzero
    exact hne (StringSet.size_eq_zero_iff.1 hzero)

namespace NormalForm

/-- The number of ways to choose one member for every mandatory repetition. -/
def volume (l : List Brick) : Nat :=
  l.foldr (fun b total => b.content.variety ^ b.lo.toNat * total) 1

/-- There is one way to choose nothing. -/
@[simp] theorem volume_nil : volume [] = 1 := rfl

/-- The choices for the first brick are independent of those for the others. -/
@[simp] theorem volume_cons (b : Brick) (l : List Brick) :
    volume (b :: l) = b.content.variety ^ b.lo.toNat * volume l := rfl

/-- The choices for two lists are independent of each other. -/
theorem volume_append (l m : List Brick) : volume (l ++ m) = volume l * volume m := by
  induction l with
  | nil => simp
  | cons b l ih => rw [List.cons_append, volume_cons, volume_cons, ih, Nat.mul_assoc]

/-- Where every brick stands for something, there is a way to choose. -/
theorem one_le_volume {l : List Brick} (h : l.any Brick.isBottom = false) : 1 ≤ volume l := by
  induction l with
  | nil => exact Nat.le_refl 1
  | cons b l ih =>
    rw [List.any_cons, Bool.or_eq_false_iff] at h
    have hfactor : 1 ≤ b.content.variety ^ b.lo.toNat := by
      by_cases hlo : 1 ≤ b.lo.toNat
      · exact Nat.one_le_pow _ _ (Brick.variety_pos h.1 hlo)
      · have hzero : b.lo.toNat = 0 := by omega
        exact Nat.le_of_eq (by rw [hzero, Nat.pow_zero])
    exact Nat.mul_le_mul hfactor (ih h.2)

namespace Rewrites

variable {l m : List Brick}

/-- No rule adds to the volume. -/
theorem volume_le (h : Rewrites l m) (hl : l.any Brick.isBottom = false) :
    volume m ≤ volume l := by
  induction h with
  | refl l => exact Nat.le_refl _
  | trans h₁ _ ih₁ ih₂ =>
    apply Nat.le_trans _ (ih₁ hl)
    exact ih₂ (h₁.any_isBottom hl)
  | append _ _ ih₁ ih₂ =>
    rw [List.any_append, Bool.or_eq_false_iff] at hl
    rw [volume_append, volume_append]
    exact Nat.mul_le_mul (ih₁ hl.1) (ih₂ hl.2)
  | filler => simp [Brick.filler]
  | single s t =>
    simpa [Content.variety] using StringSet.size_cross_le s t
  | collapse c hk =>
    simpa using c.variety_power_le (Nat.le_of_succ_le hk)
  | @equal c lo lo' hi hi' =>
    simp only [List.any_cons, List.any_nil, Bool.or_false, Bool.or_eq_false_iff] at hl
    simp only [volume_cons, volume_nil, Nat.mul_one, ← Nat.pow_add]
    -- the sum may saturate, and a power with fewer factors is smaller if there are factors at all
    have hsum : (lo + lo').toNat ≤ lo.toNat + lo'.toNat := by
      rw [Count.toNat_add]
      omega
    by_cases hlo : 1 ≤ lo.toNat
    · exact Nat.pow_le_pow_right (Brick.variety_pos hl.1 hlo) hsum
    · by_cases hlo' : 1 ≤ lo'.toNat
      · exact Nat.pow_le_pow_right (Brick.variety_pos hl.2 hlo') hsum
      · have hzero : lo.toNat + lo'.toNat = 0 := by omega
        have hzero' : (lo + lo').toNat = 0 := by omega
        exact Nat.le_of_eq (by rw [hzero, hzero'])
  | split c hlo hlt hrest => simp

/-- No rule makes a set that is larger than the volume and the sets before. -/
theorem variety_le (h : Rewrites l m) (hl : l.any Brick.isBottom = false) {n : Nat}
    (hvolume : volume l ≤ n) (hvariety : ∀ b ∈ l, b.content.variety ≤ n) :
    ∀ b ∈ m, b.content.variety ≤ n := by
  induction h with
  | refl l => exact hvariety
  | trans h₁ _ ih₁ ih₂ =>
    have hvolume' := Nat.le_trans (h₁.volume_le hl) hvolume
    exact ih₂ (h₁.any_isBottom hl) hvolume' (ih₁ hl hvolume hvariety)
  | @append l l' m m' _ _ ih₁ ih₂ =>
    rw [List.any_append, Bool.or_eq_false_iff] at hl
    rw [volume_append] at hvolume
    have hleft : volume l ≤ n :=
      Nat.le_trans (Nat.le_mul_of_pos_right _ (one_le_volume hl.2)) hvolume
    have hright : volume m ≤ n :=
      Nat.le_trans (Nat.le_mul_of_pos_left _ (one_le_volume hl.1)) hvolume
    intro b hb
    cases List.mem_append.1 hb with
    | inl hb => exact ih₁ hl.1 hleft (fun a ha => hvariety a (List.mem_append_left m ha)) b hb
    | inr hb => exact ih₂ hl.2 hright (fun a ha => hvariety a (List.mem_append_right l ha)) b hb
  | filler => simp
  | single s t =>
    intro b hb
    rw [List.mem_singleton.1 hb]
    refine Nat.le_trans (StringSet.size_cross_le s t) ?_
    simpa [Content.variety] using hvolume
  | collapse c hk =>
    intro b hb
    rw [List.mem_singleton.1 hb]
    refine Nat.le_trans (c.variety_power_le (Nat.le_of_succ_le hk)) ?_
    simpa using hvolume
  | equal c lo lo' hi hi' =>
    intro b hb
    rw [List.mem_singleton.1 hb]
    exact hvariety ⟨c, lo, hi⟩ List.mem_cons_self
  | @split c lo hi rest hlo hlt hrest =>
    intro b hb
    have hc : b.content = c := by
      cases List.mem_cons.1 hb with
      | inl hb => rw [hb]
      | inr hb => rw [List.mem_singleton.1 hb]
    rw [hc]
    exact hvariety ⟨c, lo, hi⟩ List.mem_cons_self

end Rewrites

end NormalForm

end StringBricks
