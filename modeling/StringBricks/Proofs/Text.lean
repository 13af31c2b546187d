import StringBricks.Text.Quoted
import Mathlib.Data.List.TakeWhile

/-!
# Reading texts back

Written forms that come one after the other can be told apart if each shows where it ends. A number
ends at the first character that is no digit (`toDigits_append_inj`). A list ends at a character
that none of its members can start with, written with commas or without
(`EndsBefore.commaSeparated_inj`, `EndsBefore.flatMap_inj`). So a quoted string, as the list of its
characters, ends at the first quote without a backslash (`quoted_append_inj`).
-/

set_option autoImplicit false

namespace StringBricks.Text

variable {α : Type} {P : α → Prop} {c stop : Char} {r r' : List Char}

/-- Up to the first `c`, two texts that are the same up to and after it are the same. -/
theorem append_cons_inj {l l' : List Char} (hl : c ∉ l) (hl' : c ∉ l')
    (h : l ++ c :: r = l' ++ c :: r') : l = l' ∧ r = r' := by
  have hpart : ∀ {m s : List Char}, c ∉ m → (m ++ c :: s).takeWhile (· ≠ c) = m := by
    intro m s hm
    rw [List.takeWhile_append_of_pos]
    · simp
    · intro a ha
      simpa using ne_of_mem_of_not_mem ha hm
  have heq : l = l' := by
    rw [← hpart (s := r) hl, h, hpart hl']
  subst heq
  exact ⟨rfl, by simpa using h⟩

/-! ## Numbers -/

/-- Digits up to sixteen have characters of their own. -/
theorem digitChar_inj {m n : Nat} (hm : m < 16) (hn : n < 16)
    (h : m.digitChar = n.digitChar) : m = n := by
  have hall : ∀ i < 16, ∀ j < 16, i.digitChar = j.digitChar → i = j := by decide
  exact hall m hm n hn h

/-- What is written of a number is digits. -/
theorem mem_toDigits {b : Nat} (hb : 1 < b) {n : Nat} (h : c ∈ Nat.toDigits b n) :
    ∃ d, c = Nat.digitChar d := by
  induction n using Nat.strongRecOn with
  | ind n ih =>
    rw [Nat.toDigits_eq_if hb] at h
    split at h
    · exact ⟨n, List.mem_singleton.1 h⟩
    · next hge =>
      cases List.mem_append.1 h with
      | inl h => exact ih (n / b) (Nat.div_lt_self (by omega) hb) h
      | inr h => exact ⟨n % b, List.mem_singleton.1 h⟩

/-- The digits to a base up to sixteen tell the number. -/
theorem toDigits_injective {b : Nat} (hb : 1 < b) (hb16 : b ≤ 16) :
    Function.Injective (Nat.toDigits b) := by
  intro m n h
  induction m using Nat.strongRecOn generalizing n with
  | ind m ih =>
    have hlonger : ∀ {x y : Char} {k : Nat}, [x] ≠ Nat.toDigits b k ++ [y] := by
      intro x y k heq
      have hnil : [] ++ [x] = Nat.toDigits b k ++ [y] := heq
      exact Nat.toDigits_ne_nil (List.append_inj' hnil rfl).1.symm
    rw [Nat.toDigits_eq_if hb, Nat.toDigits_eq_if (n := n) hb] at h
    split at h
    · split at h
      · exact digitChar_inj (by omega) (by omega) (List.singleton_inj.1 h)
      · exact absurd h hlonger
    · split at h
      · exact absurd h.symm hlonger
      · next hm hn =>
        have hlt : ∀ k, k % b < 16 := fun k => Nat.lt_of_lt_of_le (Nat.mod_lt k (by omega)) hb16
        have hparts := List.append_inj' h rfl
        have hdiv := ih (m / b) (Nat.div_lt_self (by omega) hb) hparts.1
        have hmod := digitChar_inj (hlt m) (hlt n) (List.singleton_inj.1 hparts.2)
        rw [← Nat.div_add_mod m b, ← Nat.div_add_mod n b, hdiv, hmod]

/-- Digits end before any character that is none. -/
theorem toDigits_append_inj {b m n : Nat} (hb : 1 < b) (hb16 : b ≤ 16)
    (hc : ∀ d, Nat.digitChar d ≠ c) (h : Nat.toDigits b m ++ c :: r = Nat.toDigits b n ++ c :: r') :
    m = n ∧ r = r' := by
  have hnot : ∀ k, c ∉ Nat.toDigits b k := by
    intro k hmem
    obtain ⟨d, hd⟩ := mem_toDigits hb hmem
    exact hc d hd.symm
  obtain ⟨hdigits, hrest⟩ := append_cons_inj (hnot m) (hnot n) h
  exact ⟨toDigits_injective hb hb16 hdigits, hrest⟩

/-! ## Lists -/

/-- Whether the values with `P` are written so that what comes behind one can be told from it, and
so that none of them starts with the character `stop`. -/
structure EndsBefore (stop : Char) (P : α → Prop) (write : α → List Char) : Prop where
  append_inj {a b : α} {r r' : List Char} (ha : P a) (hb : P b)
    (h : write a ++ r = write b ++ r') : a = b ∧ r = r'
  ne_stop {a : α} {r r' : List Char} (ha : P a) : write a ++ r ≠ stop :: r'

/-- Values one behind the other end at the first `stop` where a value could start. -/
theorem EndsBefore.flatMap_inj {write : α → List Char} (hw : EndsBefore stop P write)
    {l l' : List α} (hl : ∀ a ∈ l, P a) (hl' : ∀ a ∈ l', P a)
    (h : l.flatMap write ++ stop :: r = l'.flatMap write ++ stop :: r') : l = l' ∧ r = r' := by
  induction l generalizing l' with
  | nil =>
    cases l' with
    | nil => exact ⟨rfl, List.tail_eq_of_cons_eq h⟩
    | cons b l' =>
      rw [List.flatMap_cons, List.append_assoc] at h
      exact absurd h.symm (hw.ne_stop (hl' b List.mem_cons_self))
  | cons a l ih =>
    have ha := hl a List.mem_cons_self
    rw [List.flatMap_cons, List.append_assoc] at h
    cases l' with
    | nil => exact absurd h (hw.ne_stop ha)
    | cons b l' =>
      rw [List.flatMap_cons, List.append_assoc] at h
      obtain ⟨rfl, hrest⟩ := hw.append_inj ha (hl' b List.mem_cons_self) h
      obtain ⟨rfl, hr⟩ := ih (fun c hc => hl c (List.mem_cons_of_mem a hc))
        (fun c hc => hl' c (List.mem_cons_of_mem a hc)) hrest
      exact ⟨rfl, hr⟩

/-- A comma and a space in front change nothing, unless a comma is what ends the list. -/
theorem EndsBefore.behindComma {write : α → List Char} (hw : EndsBefore stop P write)
    (hstop : stop ≠ ',') : EndsBefore stop P fun a => ',' :: ' ' :: write a where
  append_inj ha hb h := hw.append_inj ha hb (by simpa using h)
  ne_stop ha h := hstop (List.head_eq_of_cons_eq h).symm

/-- The texts after the first one are written behind a comma and a blank. -/
theorem toList_commaSeparated_cons (s : String) (l : List String) :
    (commaSeparated (s :: l)).toList = s.toList ++ l.flatMap fun t => ',' :: ' ' :: t.toList := by
  induction l generalizing s with
  | nil => simp [commaSeparated]
  | cons t l ih =>
    rw [commaSeparated, String.toList_append, String.toList_append, ih t]
    · simp
    · exact List.cons_ne_nil t l

/-- What is written with commas between can be told up to a `stop` behind it. -/
theorem EndsBefore.commaSeparated_inj {write : α → String}
    (hw : EndsBefore stop P fun a => (write a).toList) (hstop : stop ≠ ',') {l l' : List α}
    (hl : ∀ a ∈ l, P a) (hl' : ∀ a ∈ l', P a)
    (h : (commaSeparated (l.map write)).toList ++ stop :: r =
      (commaSeparated (l'.map write)).toList ++ stop :: r') : l = l' ∧ r = r' := by
  cases l with
  | nil =>
    cases l' with
    | nil => exact ⟨rfl, by simpa [commaSeparated] using h⟩
    | cons b l' =>
      rw [List.map_cons, toList_commaSeparated_cons, List.append_assoc] at h
      exact absurd h.symm (hw.ne_stop (hl' b List.mem_cons_self))
  | cons a l =>
    have ha := hl a List.mem_cons_self
    rw [List.map_cons, toList_commaSeparated_cons, List.append_assoc] at h
    cases l' with
    | nil => exact absurd h (hw.ne_stop ha)
    | cons b l' =>
      rw [List.map_cons, toList_commaSeparated_cons, List.append_assoc] at h
      obtain ⟨rfl, hrest⟩ := hw.append_inj ha (hl' b List.mem_cons_self) h
      rw [List.flatMap_map, List.flatMap_map] at hrest
      obtain ⟨rfl, hr⟩ := (hw.behindComma hstop).flatMap_inj
        (fun c hc => hl c (List.mem_cons_of_mem a hc))
        (fun c hc => hl' c (List.mem_cons_of_mem a hc)) hrest
      exact ⟨rfl, hr⟩

/-! ## Quoted strings -/

/-- The character that a letter stands for behind a backslash. -/
def named (letter : Char) : Option Char :=
  match letter with
  | '0' => some '\x00'
  | 't' => some '\t'
  | 'r' => some '\r'
  | 'n' => some '\n'
  | '"' => some '"'
  | '\\' => some '\\'
  | _ => none

/-- A character is written as itself, by a letter, or by its code point. -/
theorem spell_cases (c : Char) :
    (c ≠ '"' ∧ c ≠ '\\' ∧ spell c = [c]) ∨ (∃ letter, named letter = some c ∧
      spell c = ['\\', letter]) ∨
      spell c = '\\' :: 'u' :: '\x7b' :: (Nat.toDigits 16 c.toNat ++ ['\x7d']) := by
  unfold spell
  split
  · exact .inr (.inl ⟨'0', rfl, rfl⟩)
  · exact .inr (.inl ⟨'t', rfl, rfl⟩)
  · exact .inr (.inl ⟨'r', rfl, rfl⟩)
  · exact .inr (.inl ⟨'n', rfl, rfl⟩)
  · exact .inr (.inl ⟨'"', rfl, rfl⟩)
  · exact .inr (.inl ⟨'\\', rfl, rfl⟩)
  · split
    · exact .inl ⟨by assumption, by assumption, rfl⟩
    · exact .inr (.inr rfl)

/-- Spelled characters can be read back up to a quote: those that could be taken for one have a
backslash in front. -/
theorem endsBefore_spell : EndsBefore '"' (fun _ => True) spell where
  -- A backslash tells the first kind from the others, and an `u` behind it the third.
  append_inj {c d r r'} _ _ h := by
    rcases spell_cases c with ⟨-, hc, hspell⟩ | ⟨letter, hletter, hspell⟩ | hspell <;>
      rcases spell_cases d with ⟨-, hd, hspell'⟩ | ⟨letter', hletter', hspell'⟩ | hspell' <;>
      rw [hspell, hspell'] at h
    · exact List.cons.inj h
    · exact absurd (List.cons.inj h).1 hc
    · exact absurd (List.cons.inj h).1 hc
    · exact absurd (List.cons.inj h).1.symm hd
    · obtain ⟨rfl, hr⟩ := List.cons.inj (List.cons.inj h).2
      exact ⟨Option.some.inj (hletter.symm.trans hletter'), hr⟩
    · obtain ⟨rfl, -⟩ := List.cons.inj (List.cons.inj h).2
      cases hletter
    · exact absurd (List.cons.inj h).1.symm hd
    · obtain ⟨rfl, -⟩ := List.cons.inj (List.cons.inj h).2
      cases hletter'
    · have hdigits : Nat.toDigits 16 c.toNat ++ '\x7d' :: r =
          Nat.toDigits 16 d.toNat ++ '\x7d' :: r' := by simpa using h
      obtain ⟨hcode, hr⟩ := toDigits_append_inj (by decide) (by decide)
        (fun _ => Nat.digitChar_ne '\x7d' rfl) hdigits
      exact ⟨Char.toNat_inj.1 hcode, hr⟩
  ne_stop {c r r'} _ h := by
    rcases spell_cases c with ⟨hc, -, hspell⟩ | ⟨letter, -, hspell⟩ | hspell <;> rw [hspell] at h
    · exact hc (List.cons.inj h).1
    · exact absurd (List.cons.inj h).1 (by decide)
    · exact absurd (List.cons.inj h).1 (by decide)

/-- A quoted string can be told from what comes behind it. -/
theorem quoted_append_inj {s t : String} (h : (quoted s).toList ++ r = (quoted t).toList ++ r') :
    s = t ∧ r = r' := by
  have hinner : s.toList.flatMap spell ++ '"' :: r = t.toList.flatMap spell ++ '"' :: r' := by
    simpa [quoted] using h
  obtain ⟨heq, hr⟩ := endsBefore_spell.flatMap_inj (fun _ _ => trivial) (fun _ _ => trivial) hinner
  exact ⟨String.toList_inj.1 heq, hr⟩

end StringBricks.Text
