import StringBricks.BrickSeq.Text
import StringBricks.Proofs.BrickSeq.Order
import StringBricks.Proofs.Text

/-!
# Sequences are told by their text

A content is written between brackets or as `K`, a brick shows where its range ends, and a sequence
is written between braces. So bricks that stand for something can be told apart, whatever text comes
behind them (`Brick.endsBefore_text`), and so can sequences (`BrickSeq.text_eq_iff`). Only the
sequences that stand for no string share one text.
-/

set_option autoImplicit false

namespace StringBricks

open Text

variable {r r' : List Char}

/-! ## Ranges and contents -/

/-- A count is written in decimal digits. -/
theorem Count.toList_toString (n : Count) :
    (toString n.toNat).toList = Nat.toDigits 10 n.toNat := by
  rw [Nat.toString_eq_ofList_toDigits, String.toList_ofList]

/-- A count is read back in front of any character that is not a digit. -/
theorem Count.digits_append_inj {m n : Count} {c : Char} (hc : ∀ d, Nat.digitChar d ≠ c)
    (h : (toString m.toNat).toList ++ c :: r = (toString n.toNat).toList ++ c :: r') :
    m = n ∧ r = r' := by
  rw [toList_toString, toList_toString] at h
  obtain ⟨heq, hr⟩ := toDigits_append_inj (by decide) (by decide) hc h
  exact ⟨Count.ext heq, hr⟩

/-- No count is written like the infinite bound. -/
theorem Count.digits_ne_infinite (n : Count) : (toString n.toNat).toList ++ r ≠ '∞' :: r' := by
  rw [toList_toString]
  intro h
  cases hdigits : Nat.toDigits 10 n.toNat with
  | nil => exact Nat.toDigits_ne_nil hdigits
  | cons c l =>
    rw [hdigits, List.cons_append] at h
    obtain ⟨d, hd⟩ := mem_toDigits (c := c) (by decide) (hdigits ▸ List.mem_cons_self)
    exact Nat.digitChar_ne '∞' rfl (hd.symm.trans (List.cons.inj h).1)

/-- A bound is read back in front of the closing parenthesis. -/
theorem Bound.text_append_inj {a b : Bound}
    (h : a.text.toList ++ ')' :: r = b.text.toList ++ ')' :: r') : a = b ∧ r = r' := by
  cases a with
  | finite m =>
    cases b with
    | finite n =>
      obtain ⟨rfl, hr⟩ := Count.digits_append_inj (fun _ => Nat.digitChar_ne ')' rfl) h
      exact ⟨rfl, hr⟩
    | infinite => exact absurd h m.digits_ne_infinite
  | infinite =>
    cases b with
    | finite n => exact absurd h.symm n.digits_ne_infinite
    | infinite => exact ⟨rfl, by simpa using h⟩

/-- Quoted strings are read back in front of any rest, and none begins with a bracket. -/
theorem endsBefore_quoted : EndsBefore ']' (fun _ => True) fun s => (quoted s).toList where
  append_inj _ _ h := quoted_append_inj h
  ne_stop _ h := by simp [quoted] at h

/-- A content is read back in front of any rest. -/
theorem Content.text_append_inj {a b : Content}
    (h : a.text.toList ++ r = b.text.toList ++ r') : a = b ∧ r = r' := by
  cases a with
  | known l =>
    cases b with
    | known m =>
      have hinner : (commaSeparated (l.toList.map quoted)).toList ++ ']' :: r =
          (commaSeparated (m.toList.map quoted)).toList ++ ']' :: r' := by simpa [text] using h
      obtain ⟨heq, hr⟩ := endsBefore_quoted.commaSeparated_inj (by decide)
        (fun _ _ => trivial) (fun _ _ => trivial) hinner
      have hset : l = m := by
        cases l
        cases m
        cases heq
        rfl
      exact ⟨congrArg known hset, hr⟩
    | unknown => simp [text] at h
  | unknown =>
    cases b with
    | known m => simp [text] at h
    | unknown => exact ⟨rfl, by simpa [text] using h⟩

/-- A content starts with a bracket or with `K`. -/
theorem Content.text_ne_cons {c : Char} (hbracket : c ≠ '[') (hunknown : c ≠ 'K') (a : Content) :
    a.text.toList ++ r ≠ c :: r' := by
  intro h
  cases a with
  | known l =>
    rw [text, String.toList_append, String.toList_append] at h
    exact hbracket (List.cons.inj h).1.symm
  | unknown => exact hunknown (List.cons.inj h).1.symm

/-! ## Bricks -/

namespace Brick

/-- The top brick is written as one sign. -/
theorem toList_text_top : top.text.toList = ['⊤'] := rfl

/-- A brick that stands for something, but not for everything, is written as its content and its
range. -/
theorem toList_text {b : Brick} (hb : b.isBottom = false) (htop : b ≠ top) :
    b.text.toList = b.content.text.toList ++ '(' :: ((toString b.lo.toNat).toList ++
      ',' :: (b.hi.text.toList ++ [')'])) := by
  unfold text
  rw [if_neg (mt isTop_iff.1 htop), hb]
  simp

/-- The text of a brick that stands for something, but not for everything, starts as a content. -/
theorem text_ne_cons {b : Brick} (hb : b.isBottom = false) (htop : b ≠ top) {c : Char}
    (hbracket : c ≠ '[') (hunknown : c ≠ 'K') : b.text.toList ++ r ≠ c :: r' := by
  rw [toList_text hb htop, List.append_assoc]
  exact Content.text_ne_cons hbracket hunknown b.content

/-- Bricks that stand for something can be read back from what they are written as, one behind the
other, up to a closing brace. -/
theorem endsBefore_text : EndsBefore '\x7d' (fun b : Brick => b.isBottom = false)
    fun b => b.text.toList where
  append_inj {a b r r'} ha hb h := by
    by_cases hatop : a = top
    · by_cases hbtop : b = top
      · rw [hatop, hbtop] at h ⊢
        exact ⟨rfl, List.append_cancel_left h⟩
      · rw [hatop, toList_text_top] at h
        exact absurd h.symm (text_ne_cons hb hbtop (by decide) (by decide))
    · by_cases hbtop : b = top
      · rw [hbtop, toList_text_top] at h
        exact absurd h (text_ne_cons ha hatop (by decide) (by decide))
      · rw [toList_text ha hatop, toList_text hb hbtop] at h
        simp only [List.append_assoc, List.cons_append] at h
        obtain ⟨hcontent, h⟩ := Content.text_append_inj h
        obtain ⟨hlo, h⟩ := Count.digits_append_inj (fun _ => Nat.digitChar_ne ',' rfl)
          (List.cons.inj h).2
        obtain ⟨hhi, hr⟩ := Bound.text_append_inj h
        cases a
        cases b
        cases hcontent
        cases hlo
        cases hhi
        exact ⟨rfl, hr⟩
  ne_stop {a r r'} ha h := by
    by_cases hatop : a = top
    · rw [hatop, toList_text_top] at h
      exact absurd (List.cons.inj h).1 (by decide)
    · exact text_ne_cons ha hatop (by decide) (by decide) h

end Brick

/-! ## Sequences -/

namespace BrickSeq

variable {x y : BrickSeq}

/-- The top sequence is written as one sign. -/
theorem text_top : top.text = "⊤" := rfl

/-- Every sequence for no string is written as one sign. -/
theorem text_of_isBottom (h : x.isBottom = true) : x.text = "⊥" := by
  have htop : ¬ x.isTop = true := by
    intro htop
    rw [isTop_iff.1 htop] at h
    cases h
  unfold text
  rw [if_neg htop, if_pos h]

/-- A sequence that stands for something, but not for everything, is written between braces. -/
theorem toList_text (hx : x.isBottom = false) (htop : x ≠ top) :
    x.text.toList = '\x7b' :: ((commaSeparated (x.bricks.map Brick.text)).toList ++ ['\x7d']) := by
  unfold text
  rw [if_neg (mt isTop_iff.1 htop), hx]
  simp

/-- Only the top sequence is written as the sign for it. -/
theorem text_eq_top_iff (x : BrickSeq) : x.text = "⊤" ↔ x = top := by
  constructor
  · intro h
    by_contra htop
    cases hx : x.isBottom with
    | true =>
      rw [text_of_isBottom hx] at h
      exact absurd h (by decide)
    | false =>
      have hlist := (toList_text hx htop).symm.trans (congrArg String.toList h)
      exact absurd (List.cons.inj hlist).1 (by decide)
  · rintro rfl
    exact text_top

/-- Only sequences for no string are written as the sign for them. -/
theorem text_eq_bottom_iff (x : BrickSeq) : x.text = "⊥" ↔ x.isBottom = true := by
  constructor
  · intro h
    by_cases htop : x = top
    · rw [htop, text_top] at h
      exact absurd h (by decide)
    · by_contra hx
      have hlist := (toList_text (Bool.not_eq_true _ ▸ hx) htop).symm.trans
        (congrArg String.toList h)
      exact absurd (List.cons.inj hlist).1 (by decide)
  · exact text_of_isBottom

/-- **Sequences are told by their text**: two sequences have the same text exactly if they are the
same or both stand for no string. -/
theorem text_eq_iff (x y : BrickSeq) :
    x.text = y.text ↔ x = y ∨ x.isBottom = true ∧ y.isBottom = true := by
  constructor
  · intro h
    cases hx : x.isBottom with
    | true =>
      have hy : y.isBottom = true := (text_eq_bottom_iff y).1 (h.symm.trans (text_of_isBottom hx))
      exact .inr ⟨rfl, hy⟩
    | false =>
      left
      by_cases htop : x = top
      · rw [htop] at h ⊢
        exact ((text_eq_top_iff y).1 h.symm).symm
      · have hy : y.isBottom = false := by
          rw [← Bool.not_eq_true, ← text_eq_bottom_iff, ← h, text_eq_bottom_iff, hx]
          decide
        have hytop : y ≠ top := by
          rwa [Ne, ← text_eq_top_iff, ← h, text_eq_top_iff]
        have hlist := congrArg String.toList h
        rw [toList_text hx htop, toList_text hy hytop] at hlist
        obtain ⟨hbricks, -⟩ := Brick.endsBefore_text.commaSeparated_inj (by decide)
          (fun _ => not_isBottom_of_mem hx) (fun _ => not_isBottom_of_mem hy)
          (List.cons.inj hlist).2
        exact BrickSeq.ext hbricks
  · rintro (rfl | ⟨hx, hy⟩)
    · rfl
    · rw [text_of_isBottom hx, text_of_isBottom hy]

/-- One string that holds the marks between two strings is not taken for two. -/
example : (ofBrick (.of ["a", "b"] 1 1)).text ≠ (ofBrick (.of ["a\", \"b"] 1 1)).text := by
  decide +kernel

end BrickSeq

end StringBricks
