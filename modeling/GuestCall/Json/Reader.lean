/-
# Reading JSON

A value is read from the front of some bytes; the reader returns it with the bytes after it, or
nothing if no value stands there. Everything that only has to be passed over is checked for its
form and no further.

Key definitions:
* `Json.readString`, the contents of a string after its opening quote;
* `Json.readValue`, `Json.readItems` and `Json.readMembers`, the three mutual readers;
* `Json.ofBytes?`, the value that some bytes are the text of.
-/
import GuestCall.Json.Basic

namespace GuestCall.Json

/-- Whether a byte may stand between tokens. -/
def isBlank (b : UInt8) : Bool := b == 0x20 || b == 0x0A || b == 0x0D || b == 0x09

/-- The bytes after any blanks. -/
def skipBlanks : List UInt8 → List UInt8
  | b :: rest => if isBlank b then skipBlanks rest else b :: rest
  | [] => []

/-- Whether a byte is a decimal digit. -/
def isDigit (b : UInt8) : Bool := 0x30 ≤ b && b ≤ 0x39

/-- The value of a hexadecimal digit of either case. -/
def hexValue? (b : UInt8) : Option Nat :=
  if 0x30 ≤ b ∧ b ≤ 0x39 then some (b.toNat - 0x30)
  else if 0x61 ≤ b ∧ b ≤ 0x66 then some (b.toNat - 0x61 + 10)
  else if 0x41 ≤ b ∧ b ≤ 0x46 then some (b.toNat - 0x41 + 10)
  else none

/-- The byte that a letter after a backslash stands for. -/
def letterValue? (b : UInt8) : Option UInt8 :=
  if b = 0x22 ∨ b = 0x5C ∨ b = 0x2F then some b
  else if b = 0x62 then some 0x08
  else if b = 0x66 then some 0x0C
  else if b = 0x6E then some 0x0A
  else if b = 0x72 then some 0x0D
  else if b = 0x74 then some 0x09
  else none

/-- Whether a code unit is the first of a pair. -/
def isLead (unit : Nat) : Bool := 0xD800 ≤ unit && unit ≤ 0xDBFF

/-- Whether a code unit is the second of a pair. -/
def isTrail (unit : Nat) : Bool := 0xDC00 ≤ unit && unit ≤ 0xDFFF

/-- The contents of a string that are read so far, last byte first. They are `sound` as long as
they can be a text, and `lead?` is the first half of a pair that waits for its second. -/
structure Contents where
  reversed : List UInt8
  sound : Bool
  lead? : Option Nat

namespace Contents

/-- Nothing read yet. -/
def empty : Contents := ⟨[], true, none⟩

/-- A waiting half of a pair does not find the other one. -/
def settle (c : Contents) : Contents :=
  match c.lead? with
  | some _ => { c with sound := false, lead? := none }
  | none => c

/-- One more byte. -/
def push (c : Contents) (b : UInt8) : Contents :=
  let c := c.settle
  { c with reversed := b :: c.reversed }

/-- The bytes of one more character. -/
def pushCodePoint (c : Contents) (n : Nat) : Contents :=
  { c with reversed := (String.utf8EncodeChar (Char.ofNat n)).reverse ++ c.reversed }

/-- One more code unit, where no half of a pair waits. -/
def pushFirstUnit (c : Contents) (unit : Nat) : Contents :=
  if isLead unit then { c with lead? := some unit }
  else if isTrail unit then { c with sound := false }
  else c.pushCodePoint unit

/-- One more code unit. -/
def pushUnit (c : Contents) (unit : Nat) : Contents :=
  match c.lead? with
  | some lead =>
    if isTrail unit then
      { c with lead? := none }.pushCodePoint (0x10000 + (lead - 0xD800) * 0x400 + (unit - 0xDC00))
    else c.settle.pushFirstUnit unit
  | none => c.pushFirstUnit unit

/-- The text of the contents, if they are one. -/
def text? (c : Contents) : Option String :=
  let c := c.settle
  if c.sound then String.fromUTF8? c.reversed.reverse.toByteArray else none

end Contents

/-- Where the reader of a string stands: between characters, after a backslash, or inside a code
unit with `owed` digits to come and the number of those before. -/
inductive Escape where
  | none
  | backslash
  | unit (owed value : Nat)

/-- The contents of a string from a place on, and the bytes after its closing quote. -/
def readString : List UInt8 → Escape → Contents → Option (Contents × List UInt8)
  | [], _, _ => none
  | b :: rest, .none, c =>
    if b = 0x22 then some (c, rest)
    else if b = 0x5C then readString rest .backslash c
    else if b < 0x20 then none
    else readString rest .none (c.push b)
  | b :: rest, .backslash, c =>
    if b = 0x75 then readString rest (.unit 4 0) c
    else
      match letterValue? b with
      | some b => readString rest .none (c.push b)
      | none => none
  | b :: rest, .unit owed value, c =>
    match hexValue? b with
    | none => none
    | some digit =>
      if owed ≤ 1 then readString rest .none (c.pushUnit (value * 16 + digit))
      else readString rest (.unit (owed - 1) (value * 16 + digit)) c

/-- The bytes after at least one digit. -/
def skipDigits? (bytes : List UInt8) : Option (List UInt8) :=
  match bytes with
  | b :: rest => if isDigit b then some (rest.dropWhile isDigit) else none
  | [] => none

/-- The bytes after an optional fraction. -/
def skipFraction? (bytes : List UInt8) : Option (List UInt8) :=
  match bytes with
  | [] => some []
  | b :: rest => if b = 0x2E then skipDigits? rest else some bytes

/-- The bytes after an optional exponent. -/
def skipExponent? (bytes : List UInt8) : Option (List UInt8) :=
  match bytes with
  | [] => some []
  | b :: rest =>
    if b = 0x65 ∨ b = 0x45 then
      match rest with
      | [] => none
      | sign :: rest' =>
        if sign = 0x2B ∨ sign = 0x2D then skipDigits? rest' else skipDigits? rest
    else some bytes

/-- The number of some decimal digits. -/
def digitsValue (ds : List UInt8) : Nat := ds.foldl (fun n b => n * 10 + (b.toNat - 0x30)) 0

/-- The digits before a point: a lone zero, or digits that start with another one. -/
def readWhole? (bytes : List UInt8) : Option (Nat × List UInt8) :=
  let ds := bytes.takeWhile isDigit
  match ds with
  | [] => none
  | first :: more =>
    if first = 0x30 ∧ more ≠ [] then none
    else some (digitsValue ds, bytes.dropWhile isDigit)

/-- The bytes after an optional fraction and an optional exponent. -/
def skipTail? (bytes : List UInt8) : Option (List UInt8) :=
  match skipFraction? bytes with
  | some rest => skipExponent? rest
  | none => none

/-- A number without a sign. Only plain natural ones keep their value. -/
def readUnsigned (bytes : List UInt8) : Option (Json × List UInt8) :=
  match readWhole? bytes with
  | none => none
  | some (n, whole) =>
    match skipTail? whole with
    | none => none
    | some rest => some (if rest.length = whole.length then .number n else .unusable, rest)

/-- A number. -/
def readNumber (bytes : List UInt8) : Option (Json × List UInt8) :=
  match bytes with
  | [] => none
  | b :: rest =>
    if b = 0x2D then (readUnsigned rest).map fun (_, rest) => (.unusable, rest)
    else readUnsigned bytes

/-- The bytes after a word. -/
def skipWord? : List UInt8 → List UInt8 → Option (List UInt8)
  | [], bytes => some bytes
  | w :: word, b :: bytes => if w = b then skipWord? word bytes else none
  | _ :: _, [] => none

/-- The members of an object, unless one of the keys is no text. -/
def objectOf (members : List (Option String × Json)) : Json :=
  match members.mapM fun m => m.1.map fun key => (key, m.2) with
  | some members => .object members
  | none => .unusable

/-- The key of a member, and the bytes after the colon. -/
def readKey (bytes : List UInt8) : Option (Option String × List UInt8) :=
  match skipBlanks bytes with
  | [] => none
  | b :: rest =>
    if b = 0x22 then
      match readString rest .none .empty with
      | none => none
      | some (key, rest) =>
        match skipBlanks rest with
        | [] => none
        | b :: rest => if b = 0x3A then some (key.text?, rest) else none
    else none

mutual

/-- A value and the bytes after it. Every call reads at least one byte before it comes back to a
value, so twice the number of bytes is fuel enough. -/
def readValue : Nat → List UInt8 → Option (Json × List UInt8)
  | 0, _ => none
  | fuel + 1, bytes =>
    match skipBlanks bytes with
    | [] => none
    | b :: rest =>
      if b = 0x6E then (skipWord? (ascii "ull") rest).map fun rest => (.null, rest)
      else if b = 0x74 then (skipWord? (ascii "rue") rest).map fun rest => (.bool true, rest)
      else if b = 0x66 then (skipWord? (ascii "alse") rest).map fun rest => (.bool false, rest)
      else if b = 0x22 then
        (readString rest .none .empty).map fun (c, rest) =>
          (match c.text? with
            | some s => .string s
            | none => .unusable, rest)
      else if b = 0x5B then
        match skipBlanks rest with
        | [] => none
        | b :: rest' =>
          if b = 0x5D then some (.array [], rest')
          else (readItems fuel (b :: rest')).map fun (items, rest) => (.array items, rest)
      else if b = 0x7B then
        match skipBlanks rest with
        | [] => none
        | b :: rest' =>
          if b = 0x7D then some (.object [], rest')
          else (readMembers fuel (b :: rest')).map fun (members, rest) => (objectOf members, rest)
      else readNumber (b :: rest)

/-- The items of an array up to its closing bracket. -/
def readItems : Nat → List UInt8 → Option (List Json × List UInt8)
  | 0, _ => none
  | fuel + 1, bytes =>
    match readValue fuel bytes with
    | none => none
    | some (item, rest) =>
      match skipBlanks rest with
      | [] => none
      | b :: rest =>
        if b = 0x5D then some ([item], rest)
        else if b = 0x2C then
          (readItems fuel rest).map fun (items, rest) => (item :: items, rest)
        else none

/-- The members of an object up to its closing brace. -/
def readMembers : Nat → List UInt8 → Option (List (Option String × Json) × List UInt8)
  | 0, _ => none
  | fuel + 1, bytes =>
    match readKey bytes with
    | none => none
    | some (key, rest) =>
      match readValue fuel rest with
      | none => none
      | some (value, rest) =>
        match skipBlanks rest with
        | [] => none
        | b :: rest =>
          if b = 0x7D then some ([(key, value)], rest)
          else if b = 0x2C then
            (readMembers fuel rest).map fun (members, rest) => ((key, value) :: members, rest)
          else none

end

/-- The value that some bytes are the text of, blanks around it allowed. -/
def ofBytes? (bytes : List UInt8) : Option Json :=
  match readValue (2 * bytes.length + 2) bytes with
  | some (value, rest) => if (skipBlanks rest).isEmpty then some value else none
  | none => none

end GuestCall.Json
