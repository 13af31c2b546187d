import StringBricks.Text.Visible

/-!
# Quoted strings

A string is written between double quotes. A quote, a backslash and the four common controls have
short names after a backslash; any other character that cannot be read off a page is written by its
code point, in lowercase hexadecimal digits between braces; all else stands for itself.
-/

set_option autoImplicit false

namespace StringBricks.Text

/-- How the character `c` is written between quotes. -/
def spell (c : Char) : List Char :=
  match c with
  | '\x00' => ['\\', '0']
  | '\t' => ['\\', 't']
  | '\r' => ['\\', 'r']
  | '\n' => ['\\', 'n']
  | '"' => ['\\', '"']
  | '\\' => ['\\', '\\']
  | c =>
    if isVisible c then [c]
    else ['\\', 'u', '\x7b'] ++ Nat.toDigits 16 c.toNat ++ ['\x7d']

/-- The string `s` between double quotes. -/
def quoted (s : String) : String :=
  String.ofList ('"' :: (s.toList.flatMap spell ++ ['"']))

/-- The texts in order, with a comma and a space between neighbours. -/
def commaSeparated : List String → String
  | [] => ""
  | [text] => text
  | text :: rest => text ++ ", " ++ commaSeparated rest

end StringBricks.Text
