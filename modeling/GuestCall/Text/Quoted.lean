/-
# Quoted text

A text between double quotes, as messages and values show it. Quotes and backslashes are marked
with a backslash, four controls have letters, and every other character that would not show by
itself is written as its code point in braces.

Key definition: `quoted`.
-/
import GuestCall.Text.Glyph
import GuestCall.Text.Hex

namespace GuestCall

/-- A character as its code point in braces. -/
def codePoint (c : Char) : List Char :=
  ['\\', 'u', '\x7b'] ++ Nat.toDigits 16 c.toNat ++ ['\x7d']

/-- One character inside quotes. -/
def quotedChar (c : Char) : List Char :=
  match c with
  | '\x00' => ['\\', '0']
  | '\t' => ['\\', 't']
  | '\r' => ['\\', 'r']
  | '\n' => ['\\', 'n']
  | '"' => ['\\', '"']
  | '\\' => ['\\', '\\']
  | c =>
    if ' ' ≤ c ∧ c ≤ '~' then [c]
    else if isExtending c || hasNoGlyph c then codePoint c
    else [c]

/-- A text between double quotes. -/
def quoted (s : String) : String :=
  "\"" ++ String.ofList (s.toList.flatMap quotedChar) ++ "\""

end GuestCall
