import StringBricks.Proofs.NormalForm.Stabilization
import StringBricks.Proofs.NormalForm.Extent
import Mathlib.Algebra.Group.Nat.Defs

/-!
# How many cycles there are

A cycle leaves work for the next one where merging has made a brick that must occur more than once,
or a brick with the content of a neighbour. Whatever takes part in such work was put together from
what took part in the work before it, and two bricks over one content make one that is twice as
long. So the strings double at least every other cycle (`NormalForm.LongWork.cycle_cycle`), and as
no rule adds to the length of what must occur, there are only about twice as many cycles as this
length has binary digits (`NormalForm.settlesWithin_of_mandatoryLength_lt`). The limit on the number
of cycles is out of reach of all lists whose mandatory strings have fewer than `2 ^ 256` characters.
-/

set_option autoImplicit false

namespace StringBricks

/-- What may occur adds up to more than one occurrence. -/
theorem Bound.add_ne_one {a b : Bound} (ha : a ≠ 0) (hb : b ≠ 0) : a + b ≠ 1 := by
  have hpos : ∀ n : Count, finite n ≠ 0 → n.toNat ≠ 0 := by
    intro n hn hzero
    exact hn (congrArg finite (Count.ext hzero))
  cases a with
  | infinite => simp
  | finite m =>
    cases b with
    | infinite => simp
    | finite n =>
      intro hsum
      have hcount : m + n = 1 := Bound.finite.inj hsum
      have hone : (m + n).toNat = 1 := congrArg Count.toNat hcount
      have hm := hpos m ha
      have hn := hpos n hb
      have hcap : 2 ≤ Count.cap := by decide
      rw [Count.toNat_add] at hone
      omega

namespace NormalForm

variable {a b c : Brick} {l : List Brick} {d e m : Nat}

/-- All that a cycle has left to do to a list has long strings: what must occur more than once has
at least the length `d`, and neighbours over the same content have at least the length `e`, one of
them being mandatory. -/
structure LongWork (d e : Nat) (l : List Brick) : Prop where
  not_isBottom : ∀ b ∈ l, b.isBottom = false
  repeated : ∀ b ∈ l, 2 ≤ b.lo.toNat → d ≤ b.mandatoryLength
  neighbors : l.IsChain fun a b => mergeSingle? a b = none ∧
    (a.content = b.content → e ≤ a.content.extent ∧ (1 ≤ a.lo.toNat ∨ 1 ≤ b.lo.toNat))

/-- If the strings that a list must have are shorter than those of all work left, there is none
left. -/
theorem LongWork.stable (h : LongWork d e l) (hd : mandatoryLength l < d)
    (he : mandatoryLength l < e) : Stable l := by
  have hpart : ∀ b ∈ l, b.mandatoryLength ≤ mandatoryLength l := fun b hb => le_total_of_mem hb
  rw [stable_iff (any_isBottom_eq_false_iff.2 h.not_isBottom), hasMergeableNeighbors_eq_false_iff]
  refine ⟨?_, h.neighbors.imp_of_mem_imp ?_⟩
  · intro b hb
    by_contra hlo
    have hlong := h.repeated b hb (by omega)
    have hshort := hpart b hb
    omega
  · rintro a b ha hb ⟨hnone, hlong⟩
    refine ⟨fun heq => ?_, hnone⟩
    obtain ⟨hlen, hlo⟩ := hlong heq
    cases hlo with
    | inl hlo =>
      have hle := Nat.le_trans (Nat.le_mul_of_pos_left _ hlo) (hpart a ha)
      omega
    | inr hlo =>
      have hle := Nat.le_trans (Nat.le_mul_of_pos_left _ hlo) (hpart b hb)
      rw [heq] at hlen
      omega

/-! ## Merging -/

/-- What two bricks that stand for something are merged into stands for something. -/
theorem not_isBottom_of_rewrites_pair (h : Rewrites [a, b] [c]) (ha : a.isBottom = false)
    (hb : b.isBottom = false) : c.isBottom = false := by
  have hc := h.any_isBottom (by simp [ha, hb])
  simpa using hc

/-- Bricks over one content that stand for something add up to more than one occurrence. -/
theorem mergeSingle?_of_mergeEqual? (h : mergeEqual? a b = some c) (ha : a.isBottom = false)
    (hb : b.isBottom = false) (f : Brick) : mergeSingle? c f = none ∧ mergeSingle? f c = none := by
  have hc : ∀ s : StringSet, c ≠ ⟨.known s, 1, 1⟩ := by
    rintro s rfl
    obtain ⟨heq, hsum⟩ := mergeEqual?_eq_some h
    have hset : .known s = a.content := congrArg Brick.content hsum
    have hhi : 1 = a.hi + b.hi := congrArg Brick.hi hsum
    have hempty := (Brick.not_isBottom_iff.1 ha).2 s hset.symm
    have hempty' := (Brick.not_isBottom_iff.1 hb).2 s (hset.trans heq).symm
    by_cases hs : s = .empty
    · have hzero : a.hi + b.hi = 0 := Bound.add_eq_zero_iff.2 ⟨hempty.1 hs, hempty'.1 hs⟩
      exact Bound.one_ne_zero (hhi.trans hzero)
    · exact Bound.add_ne_one (mt hempty.2 hs) (mt hempty'.2 hs) hhi.symm
  rw [mergeSingle?_eq_none_iff, mergeSingle?_eq_none_iff]
  constructor
  · rintro ⟨s, -, hs, -⟩
    exact hc s hs
  · rintro ⟨-, t, -, ht⟩
    exact hc t ht

/-- Different sets with members have some extent together. -/
theorem one_le_extent_add (h : mergeSingle? a b ≠ none) (ha : a.isBottom = false)
    (hb : b.isBottom = false) (hne : a.content ≠ b.content) :
    1 ≤ a.content.extent + b.content.extent := by
  rw [Ne, mergeSingle?_eq_none_iff, not_not] at h
  obtain ⟨s, t, rfl, rfl⟩ := h
  have hs : s ≠ .empty := by simpa using Brick.not_isBottom_once.1 ha
  have ht : t ≠ .empty := by simpa using Brick.not_isBottom_once.1 hb
  by_contra hzero
  have hsum : s.extent + t.extent = 0 := Nat.eq_zero_of_not_pos hzero
  apply hne
  rw [StringSet.eq_singleton_of_extent hs (by omega),
    StringSet.eq_singleton_of_extent ht (by omega)]

/-- The longest string of a product is as long as those of both sets together. -/
theorem extent_of_mergeSingle? (h : mergeSingle? a b = some c) (ha : a.isBottom = false)
    (hb : b.isBottom = false) :
    c.content.extent = a.content.extent + b.content.extent := by
  obtain ⟨s, t, rfl, rfl, rfl⟩ := mergeSingle?_eq_some h
  exact StringSet.extent_cross (by simpa using Brick.not_isBottom_once.1 ha)
    (by simpa using Brick.not_isBottom_once.1 hb)

/-- A brick that stands for something and has at least the length `m` if it must occur more than
once. -/
def LongIfRepeated (m : Nat) (b : Brick) : Prop :=
  b.isBottom = false ∧ (2 ≤ b.lo.toNat → m ≤ b.content.extent)

/-- Neighbours over one content have at least the length `m`, and those that occur once and differ
have at least the length `d` together. -/
def LongNeighbors (m d : Nat) (a b : Brick) : Prop :=
  (a.content = b.content → m ≤ a.content.extent) ∧
    (mergeSingle? a b ≠ none → a.content ≠ b.content → d ≤ a.content.extent + b.content.extent)

/-- Neighbours that are left by the merging of equal contents differ, and have come together only if
they were together before. -/
theorem longNeighbors_mergeEqual (hl : ∀ b ∈ l, LongIfRepeated m b)
    (h : l.IsChain (LongNeighbors m d)) :
    (∀ b ∈ mergeEqual l, LongIfRepeated m b) ∧
      (mergeEqual l).IsChain fun a b => a.content ≠ b.content ∧ LongNeighbors m d a b := by
  refine isChain_mergeNeighbors ?merged ?next ?previous ?apart hl h
  case merged =>
    intro a b c hc ha hb hab
    refine ⟨not_isBottom_of_rewrites_pair (rewrites_mergeEqual? hc) ha.1 hb.1, fun _ => ?_⟩
    obtain ⟨heq, rfl⟩ := mergeEqual?_eq_some hc
    exact hab.1 heq
  case next =>
    intro a b c hc ha hb hab f _
    refine ⟨fun _ => ?_, fun hcf => absurd (mergeSingle?_of_mergeEqual? hc ha.1 hb.1 f).1 hcf⟩
    obtain ⟨heq, rfl⟩ := mergeEqual?_eq_some hc
    exact hab.1 heq
  case previous =>
    rintro a b c hc ha hb - f ⟨hne, -⟩
    have hsame : c.content = a.content := by
      rw [(mergeEqual?_eq_some hc).2]
    rw [hsame]
    refine ⟨hne, fun heq => absurd (heq.trans hsame) hne, fun hfc => ?_⟩
    exact absurd (mergeSingle?_of_mergeEqual? hc ha.1 hb.1 f).2 hfc
  case apart =>
    intro a b hnone hab
    exact ⟨mergeEqual?_eq_none_iff.1 hnone, hab⟩

/-- What is merged of bricks that occur once and differ is long enough for all the work that comes
with it. -/
theorem longWork_mergeSingles (hl : ∀ b ∈ l, LongIfRepeated m b)
    (h : l.IsChain fun a b => a.content ≠ b.content ∧ LongNeighbors m d a b) :
    LongWork (2 * m) d (mergeSingles l) := by
  have hmerged : (∀ b ∈ mergeSingles l, LongIfRepeated m b) ∧
      (mergeSingles l).IsChain fun a b => mergeSingle? a b = none ∧
        (a.content = b.content → d ≤ a.content.extent ∧ (1 ≤ a.lo.toNat ∨ 1 ≤ b.lo.toNat)) := by
    have hrelated := h.imp (S := fun a b =>
      (a.content = b.content → d ≤ a.content.extent ∧ (1 ≤ a.lo.toNat ∨ 1 ≤ b.lo.toNat)) ∧
        (mergeSingle? a b ≠ none → d ≤ a.content.extent + b.content.extent))
      fun a b hab => ⟨fun heq => absurd heq hab.1, fun hsingle => hab.2.2 hsingle hab.1⟩
    have hlong : ∀ {a b c : Brick}, mergeSingle? a b = some c → LongIfRepeated m a →
        LongIfRepeated m b → (mergeSingle? a b ≠ none → d ≤ a.content.extent + b.content.extent) →
        d ≤ c.content.extent := by
      intro a b c hc ha hb hab
      rw [extent_of_mergeSingle? hc ha.1 hb.1]
      exact hab (hc ▸ nofun)
    refine isChain_mergeNeighbors ?merged ?next ?previous ?apart hl hrelated
    case merged =>
      intro a b c hc ha hb _
      refine ⟨not_isBottom_of_rewrites_pair (rewrites_mergeSingle? hc) ha.1 hb.1, fun hlo => ?_⟩
      obtain ⟨s, t, rfl, rfl, rfl⟩ := mergeSingle?_eq_some hc
      exact absurd (show 2 ≤ 1 from hlo) (by decide)
    case next =>
      intro a b c hc ha hb hab f _
      have hc' := hlong hc ha hb hab.2
      obtain ⟨s, t, rfl, rfl, rfl⟩ := mergeSingle?_eq_some hc
      exact ⟨fun _ => ⟨hc', .inl (Nat.le_refl 1)⟩, fun _ => Nat.le_trans hc' (Nat.le_add_right _ _)⟩
    case previous =>
      rintro a b c hc ha hb hab f ⟨hnone, -⟩
      have hc' := hlong hc ha hb hab.2
      obtain ⟨s, t, rfl, rfl, rfl⟩ := mergeSingle?_eq_some hc
      refine ⟨?_, fun heq => ⟨heq ▸ hc', .inr (Nat.le_refl 1)⟩⟩
      rw [mergeSingle?_eq_none_iff] at hnone ⊢
      rintro ⟨u, -, hf, -⟩
      exact hnone ⟨u, s, hf, rfl⟩
    case apart =>
      intro a b hnone hab
      exact ⟨hnone, hab.1⟩
  refine ⟨fun b hb => (hmerged.1 b hb).1, ?_, hmerged.2⟩
  intro b hb hlo
  exact Nat.mul_le_mul hlo ((hmerged.1 b hb).2 hlo)

/-! ## Opening -/

/-- What a brick is opened into is that brick, its power, or the rest of its range. -/
theorem mem_opened (hb : b.isBottom = false) (hc : c ∈ opened b) :
    (b.lo.toNat ≤ 1 ∧ c = b) ∨ (2 ≤ b.lo.toNat ∧
      (c.content = b.content.power b.lo.toNat ∧ c.lo = 1 ∨ c.content = b.content ∧ c.lo = 0)) := by
  by_cases hlo : 2 ≤ b.lo.toNat
  · refine .inr ⟨hlo, ?_⟩
    obtain ⟨head, hcontent, hhead, hopened | ⟨rest, -, hopened⟩⟩ := opened_cases hb hlo
    · rw [hopened, List.mem_singleton] at hc
      exact .inl (hc ▸ ⟨hcontent, hhead⟩)
    · rw [hopened, List.mem_cons, List.mem_singleton] at hc
      cases hc with
      | inl hc => exact .inl (hc ▸ ⟨hcontent, hhead⟩)
      | inr hc => exact .inr (hc ▸ ⟨rfl, rfl⟩)
  · have hlo' : b.lo.toNat ≤ 1 := Nat.le_of_lt_succ (Nat.not_le.1 hlo)
    rw [opened_of_lo_le hb hlo', List.mem_singleton] at hc
    exact .inl ⟨hlo', hc⟩

/-- Nothing that a brick is opened into must occur more than once. -/
theorem lo_le_of_mem_opened (hb : b.isBottom = false) (hc : c ∈ opened b) : c.lo.toNat ≤ 1 := by
  obtain ⟨hlo, rfl⟩ | ⟨-, ⟨-, hlo⟩ | ⟨-, hlo⟩⟩ := mem_opened hb hc
  · exact hlo
  · exact hlo ▸ Nat.le_refl 1
  · exact hlo ▸ Nat.zero_le 1

/-- Opening makes no brick for no string. -/
theorem not_isBottom_of_mem_flatMap_opened (hl : l.any Brick.isBottom = false) :
    ∀ c ∈ l.flatMap opened, c.isBottom = false :=
  any_isBottom_eq_false_iff.1 ((rewrites_flatMap rewrites_opened l).any_isBottom hl)

/-- A cycle merges opened bricks, none of which must occur more than once. -/
theorem longWork_cycle_of_opened (hl : l.any Brick.isBottom = false)
    (h : (l.flatMap opened).IsChain (LongNeighbors m d)) : LongWork (2 * m) d (cycle l) := by
  have hrepeated : ∀ b ∈ l.flatMap opened, LongIfRepeated m b := by
    intro c hc
    refine ⟨not_isBottom_of_mem_flatMap_opened hl c hc, fun hlo => ?_⟩
    obtain ⟨b, hb, hc⟩ := List.mem_flatMap.1 hc
    have hbot := any_isBottom_eq_false_iff.1 hl b hb
    exact absurd (lo_le_of_mem_opened hbot hc) (Nat.not_le.2 hlo)
  obtain ⟨hall, hchain⟩ := longNeighbors_mergeEqual hrepeated h
  rw [cycle_eq]
  exact longWork_mergeSingles hall hchain

/-- The power of a brick is as many times longer than its content as the brick must occur, and it is
that content if there is no extent. -/
theorem extent_power_of_lo (hb : b.isBottom = false) (hlo : 2 ≤ b.lo.toNat) :
    (b.content.power b.lo.toNat).extent = b.lo.toNat * b.content.extent ∧
      (b.content.extent = 0 → b.content.power b.lo.toNat = b.content) := by
  have hlo' : 1 ≤ b.lo.toNat := Nat.le_of_succ_le hlo
  have hcontent : b.content ≠ .known .empty := fun hempty =>
    Brick.members_ne_empty hb (Brick.hi_ne_zero hb hlo') hempty rfl
  exact ⟨Content.extent_power hcontent hlo',
    fun hzero => Content.power_of_extent hcontent hzero hlo'⟩

namespace LongWork

/-- A brick that comes of an opened one is long, unless it has the same content. -/
theorem content_of_mem_opened (h : LongWork d e l) (hb : b ∈ l) (hc : c ∈ opened b) :
    c.content = b.content ∨ max d 1 ≤ c.content.extent := by
  have hbot := h.not_isBottom b hb
  obtain ⟨-, rfl⟩ | ⟨hlo, ⟨hcontent, -⟩ | ⟨hcontent, -⟩⟩ := mem_opened hbot hc
  · exact .inl rfl
  · obtain ⟨hextent, hsame⟩ := extent_power_of_lo hbot hlo
    by_cases hzero : b.content.extent = 0
    · exact .inl (hcontent.trans (hsame hzero))
    · have hlong := h.repeated b hb hlo
      have hpos : 1 ≤ b.lo.toNat * b.content.extent :=
        Nat.mul_pos (Nat.lt_of_succ_le (Nat.le_of_succ_le hlo)) (Nat.pos_of_ne_zero hzero)
      rw [hcontent, hextent]
      exact .inr (Nat.max_le.2 ⟨hlong, hpos⟩)
  · exact .inl hcontent

/-- A brick that comes of an opened one and occurs is long, unless it was there before. -/
theorem extent_of_mem_opened (h : LongWork d e l) (hb : b ∈ l) (hc : c ∈ opened b)
    (hlo : c.lo = 1) :
    c = b ∨ d ≤ c.content.extent := by
  have hbot := h.not_isBottom b hb
  obtain ⟨-, rfl⟩ | ⟨hrepeated, ⟨hcontent, -⟩ | ⟨-, hzero⟩⟩ := mem_opened hbot hc
  · exact .inl rfl
  · rw [hcontent, (extent_power_of_lo hbot hrepeated).1]
    exact .inr (h.repeated b hb hrepeated)
  · rw [hlo] at hzero
    exact absurd hzero (by decide)

end LongWork

/-- What replaces related neighbours is related, if whatever comes of the one is related to whatever
comes of the other. -/
theorem isChain_flatMap {R S : Brick → Brick → Prop} {f : Brick → List Brick}
    (hf : ∀ b ∈ l, f b ≠ []) (hin : ∀ b ∈ l, (f b).IsChain S) (h : l.IsChain R)
    (hRS : ∀ a ∈ l, ∀ b ∈ l, R a b → ∀ x ∈ f a, ∀ y ∈ f b, S x y) : (l.flatMap f).IsChain S := by
  have hne : [] ∉ l.map f := by simpa using hf
  rw [List.flatMap_def, List.isChain_flatten hne]
  refine ⟨by simpa using hin, (List.isChain_map f).2 (h.imp_of_mem_imp ?_)⟩
  intro a b ha hb hab x hx y hy
  exact hRS a ha b hb hab x (List.mem_of_mem_getLast? hx) y (List.mem_of_mem_head? hy)

/-- An opened brick becomes something, of which no two neighbours can be merged. -/
theorem isChain_opened (hb : b.isBottom = false) :
    opened b ≠ [] ∧ (opened b).IsChain (LongNeighbors m d) := by
  by_cases hlo : 2 ≤ b.lo.toNat
  · obtain ⟨head, -, -, hopened | ⟨rest, hne, hopened⟩⟩ := opened_cases hb hlo
    · rw [hopened]
      exact ⟨nofun, List.isChain_singleton head⟩
    · rw [hopened]
      have hnone : mergeSingle? head ⟨b.content, 0, rest⟩ = none := by
        rw [mergeSingle?_eq_none_iff]
        rintro ⟨-, t, -, htail⟩
        have hlo : (0 : Count) = 1 := congrArg Brick.lo htail
        exact absurd hlo (by decide)
      have hpair : LongNeighbors m d head ⟨b.content, 0, rest⟩ :=
        ⟨fun heq => absurd heq hne, fun hsingle => absurd hnone hsingle⟩
      exact ⟨nofun, List.isChain_cons_cons.2 ⟨hpair, List.isChain_singleton _⟩⟩
  · rw [opened_of_lo_le hb (Nat.le_of_lt_succ (Nat.not_le.1 hlo))]
    exact ⟨nofun, List.isChain_singleton b⟩

namespace LongWork

/-- What the bricks of a list become is as long as the work that is left. -/
theorem longNeighbors_opened (h : LongWork d e l) :
    (l.flatMap opened).IsChain (LongNeighbors (min e (max d 1)) (max d 1)) := by
  have hblock : ∀ b ∈ l, opened b ≠ [] ∧
      (opened b).IsChain (LongNeighbors (min e (max d 1)) (max d 1)) :=
    fun b hb => isChain_opened (h.not_isBottom b hb)
  refine isChain_flatMap (fun b hb => (hblock b hb).1) (fun b hb => (hblock b hb).2) h.neighbors ?_
  rintro a ha b hb ⟨hnone, hequal⟩ x hx y hy
  constructor
  · intro heq
    obtain hxa | hlong := h.content_of_mem_opened ha hx
    · obtain hyb | hlong := h.content_of_mem_opened hb hy
      · rw [hxa]
        exact Nat.le_trans (Nat.min_le_left _ _) (hequal (hxa.symm.trans (heq.trans hyb))).1
      · rw [heq]
        exact Nat.le_trans (Nat.min_le_right _ _) hlong
    · exact Nat.le_trans (Nat.min_le_right _ _) hlong
  · intro hsingle hne
    have hbot : ∀ b ∈ l, ∀ c ∈ opened b, c.isBottom = false := fun b hb =>
      any_isBottom_eq_false_iff.1
        ((rewrites_opened b).any_isBottom (by simpa using h.not_isBottom b hb))
    have hpos := one_le_extent_add hsingle (hbot a ha x hx) (hbot b hb y hy) hne
    refine Nat.max_le.2 ⟨?_, hpos⟩
    have hones : x.lo = 1 ∧ y.lo = 1 := by
      rw [Ne, mergeSingle?_eq_none_iff, not_not] at hsingle
      obtain ⟨s, t, rfl, rfl⟩ := hsingle
      exact ⟨rfl, rfl⟩
    -- one of the two is new, as they would have been merged before
    obtain rfl | hlong := h.extent_of_mem_opened ha hx hones.1
    · obtain rfl | hlong := h.extent_of_mem_opened hb hy hones.2
      · exact absurd hnone hsingle
      · exact Nat.le_trans hlong (Nat.le_add_left _ _)
    · exact Nat.le_trans hlong (Nat.le_add_right _ _)

/-- A cycle that leaves long work makes the work for the next one longer. -/
theorem cycle (h : LongWork d e l) :
    LongWork (2 * min e (max d 1)) (max d 1) (NormalForm.cycle l) :=
  longWork_cycle_of_opened (any_isBottom_eq_false_iff.2 h.not_isBottom) h.longNeighbors_opened

/-- Two cycles double the length of all work that is left. -/
theorem cycle_cycle (h : LongWork d d l) (hd : 1 ≤ d) :
    LongWork (2 * d) (2 * d) (NormalForm.cycle (NormalForm.cycle l)) := by
  have hmax : max d 1 = d := Nat.max_eq_left hd
  have honce := h.cycle
  rw [hmax, Nat.min_self] at honce
  have htwice := honce.cycle
  rwa [Nat.max_eq_left (by omega), Nat.min_eq_left (by omega)] at htwice

end LongWork

/-! ## Rounds -/

/-- After the first cycle, neighbours over the same content have some extent. -/
theorem longWork_cycle (hl : l.any Brick.isBottom = false) : LongWork 0 1 (cycle l) := by
  have hopened := not_isBottom_of_mem_flatMap_opened hl
  have hchain : (l.flatMap opened).IsChain (LongNeighbors 0 1) := by
    rw [isChain_iff_forall_mem_zip]
    intro p hp
    obtain ⟨hfirst, hsecond⟩ := List.of_mem_zip hp
    have hfirst' := hopened p.1 hfirst
    have hsecond' := hopened p.2 (List.mem_of_mem_tail hsecond)
    exact ⟨fun _ => Nat.zero_le _,
      fun hsingle hne => one_le_extent_add hsingle hfirst' hsecond' hne⟩
  exact longWork_cycle_of_opened hl hchain

/-- The work that is left doubles in length with every other cycle. -/
theorem longWork_cycled (hl : l.any Brick.isBottom = false) (k : Nat) :
    LongWork (2 ^ (k + 1)) (2 ^ (k + 1)) (cycled (2 * k + 3) l) := by
  induction k with
  | zero =>
    have hsecond : LongWork 2 1 (cycle (cycle l)) := (longWork_cycle hl).cycle
    have hthird : LongWork 2 2 (cycle (cycle (cycle l))) := hsecond.cycle
    exact hthird
  | succ k ih =>
    have hcycles : 2 * (k + 1) + 3 = 2 * k + 3 + 1 + 1 := by omega
    rw [Nat.pow_succ' (n := k + 1), hcycles, cycled_add_one, cycled_add_one]
    exact ih.cycle_cycle Nat.one_le_two_pow

/-- Any number of cycles apply the rules. -/
theorem rewrites_cycled (n : Nat) (l : List Brick) : Rewrites l (cycled n l) := by
  induction n with
  | zero => exact .refl l
  | succ n ih => exact ih.trans (rewrites_cycle _)

/-- A list settles within about twice as many rounds as the length of its mandatory strings has
binary digits. -/
theorem settlesWithin_of_mandatoryLength_lt {k : Nat} (h : mandatoryLength l < 2 ^ (k + 1)) :
    SettlesWithin (2 * k + 4) l := by
  by_cases hl : l.any Brick.isBottom = true
  · exact .inl hl
  · rw [Bool.not_eq_true] at hl
    have hdropped := (rewrites_dropFillers l).any_isBottom hl
    have hrules := (rewrites_dropFillers l).trans (rewrites_cycled (2 * k + 3) _)
    have hshort := Nat.lt_of_le_of_lt (hrules.mandatoryLength_le hl) h
    exact .inr ⟨2 * k + 3, Nat.lt_succ_self _, (longWork_cycled hdropped k).stable hshort hshort⟩

/-- The limit on the number of cycles is not reached by any list whose mandatory strings have fewer
than `2 ^ 256` characters. -/
theorem settlesWithin_maxCycles (h : mandatoryLength l < 2 ^ 256) : SettlesWithin maxCycles l := by
  have hrounds : SettlesWithin (2 * 255 + 4) l := settlesWithin_of_mandatoryLength_lt h
  exact hrounds.mono (by decide)

end NormalForm

end StringBricks
