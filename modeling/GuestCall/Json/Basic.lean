/-
# JSON values and their text

The values that configurations and signature tables are kept as, and two ways to write them:
without any blanks, or with one member a line and two blanks a level. Strings are escaped byte by
byte, so a byte of a character beyond ASCII stands for itself.

Key definitions:
* `Json`;
* `Json.compact` and `Json.pretty`, the bytes of a value;
* `Json.escapeByte`, the form of one byte inside a string.
-/
import GuestCall.Text.Hex

namespace GuestCall

/-- A JSON value. Members of an object keep their order and may repeat. -/
inductive Json where
  | null
  | bool (b : Bool)
  | number (n : Nat)
  | string (s : String)
  | array (items : List Json)
  | object (members : List (String × Json))
  /-- A well-formed value without a use here: a number that is not a plain natural one, a string
  that is no text, or an object with such a key. It can be passed over, and nothing else. -/
  | unusable

namespace Json

/-- The bytes of an ASCII text. -/
def ascii (s : String) : List UInt8 := s.toUTF8.data.toList

/-- One byte of a string. Quotes and backslashes are marked with a backslash, five controls have
letters, and the other controls are written as their code point. -/
def escapeByte (b : UInt8) : List UInt8 :=
  if b = 0x22 then [0x5C, 0x22]
  else if b = 0x5C then [0x5C, 0x5C]
  else if b = 0x08 then [0x5C, 0x62]
  else if b = 0x0C then [0x5C, 0x66]
  else if b = 0x0A then [0x5C, 0x6E]
  else if b = 0x0D then [0x5C, 0x72]
  else if b = 0x09 then [0x5C, 0x74]
  else if b < 0x20 then
    [0x5C, 0x75, 0x30, 0x30, if b < 0x10 then 0x30 else 0x31,
      (Hex.digit (b.toNat % 16)).toNat.toUInt8]
  else [b]

/-- A string in quotes. -/
def quoted (s : String) : List UInt8 :=
  0x22 :: s.toUTF8.data.toList.flatMap escapeByte ++ [0x22]

/-- The decimal digits of a number. -/
def digits (n : Nat) : List UInt8 := (Nat.toDigits 10 n).map fun c => c.toNat.toUInt8

mutual

/-- A value without any blanks. -/
def compact : Json → List UInt8
  | .null => ascii "null"
  | .bool true => ascii "true"
  | .bool false => ascii "false"
  | .number n => digits n
  | .string s => quoted s
  | .array items => 0x5B :: compactItems items ++ [0x5D]
  | .object members => 0x7B :: compactMembers members ++ [0x7D]
  | .unusable => ascii "null"

/-- Items with commas between them. -/
def compactItems : List Json → List UInt8
  | [] => []
  | [item] => compact item
  | item :: rest => compact item ++ 0x2C :: compactItems rest

/-- Members with commas between them. -/
def compactMembers : List (String × Json) → List UInt8
  | [] => []
  | [(key, value)] => quoted key ++ 0x3A :: compact value
  | (key, value) :: rest => quoted key ++ 0x3A :: compact value ++ 0x2C :: compactMembers rest

end

/-- A line break and the blanks of a level. -/
def newLine (level : Nat) : List UInt8 := 0x0A :: List.replicate (2 * level) 0x20

mutual

/-- A value with one item or member a line, at a level of nesting. -/
def prettyAt (level : Nat) : Json → List UInt8
  | .array [] => [0x5B, 0x5D]
  | .array (item :: rest) =>
    0x5B :: prettyItems (level + 1) (item :: rest) ++ newLine level ++ [0x5D]
  | .object [] => [0x7B, 0x7D]
  | .object (member :: rest) =>
    0x7B :: prettyMembers (level + 1) (member :: rest) ++ newLine level ++ [0x7D]
  | .null => ascii "null"
  | .bool true => ascii "true"
  | .bool false => ascii "false"
  | .number n => digits n
  | .string s => quoted s
  | .unusable => ascii "null"

/-- Items on lines of their own. -/
def prettyItems (level : Nat) : List Json → List UInt8
  | [] => []
  | [item] => newLine level ++ prettyAt level item
  | item :: rest => newLine level ++ prettyAt level item ++ 0x2C :: prettyItems level rest

/-- Members on lines of their own. -/
def prettyMembers (level : Nat) : List (String × Json) → List UInt8
  | [] => []
  | [(key, value)] => newLine level ++ quoted key ++ 0x3A :: 0x20 :: prettyAt level value
  | (key, value) :: rest =>
    newLine level ++ quoted key ++ 0x3A :: 0x20 :: prettyAt level value ++
      0x2C :: prettyMembers level rest

end

/-- A value with one item or member a line. -/
def pretty (j : Json) : List UInt8 := prettyAt 0 j

/-- The text of written bytes. -/
def textOf (bytes : List UInt8) : String := (String.fromUTF8? bytes.toByteArray).getD ""

end Json

end GuestCall
