/-
# UTF-8

Bytes that are the UTF-8 form of a text become that text; others are refused with the place of the
first fault. The scan keeps how many continuation bytes a character still owes and between which
bounds the next one must lie, so a fault is found at the first byte that rules the text out.

Key definitions:
* `Utf8.decode`, the text of some bytes or their first fault;
* `Utf8.scan`, the search for the fault.

Key theorem: `Utf8.decode_eq_ok_iff`, bytes are read as a text exactly when they are its form.
-/

namespace GuestCall.Utf8

/-- The first place where bytes stop being UTF-8. -/
structure Fault where
  /-- Where the faulty character starts. -/
  index : Nat
  /-- How many bytes are at fault, or nothing when the bytes end inside a character. -/
  length? : Option Nat
  deriving DecidableEq, Repr

/-- What the fault says. -/
def Fault.message (f : Fault) : String :=
  match f.length? with
  | some length => s!"invalid utf-8 sequence of {length} bytes from index {f.index}"
  | none => s!"incomplete utf-8 byte sequence from index {f.index}"

/-- Where the scan stands: between characters, or inside one that started at `start` and of which
`seen` bytes are read and `owed` are missing, the next one between `low` and `high`. -/
inductive Place where
  | between
  | inside (start seen owed : Nat) (low high : UInt8)

/-- The place after a byte between characters, or nothing if no character starts with it. -/
def first? (index : Nat) (b : UInt8) : Option Place :=
  if b ≤ 0x7F then some .between
  else if 0xC2 ≤ b ∧ b ≤ 0xDF then some (.inside index 1 1 0x80 0xBF)
  else if b = 0xE0 then some (.inside index 1 2 0xA0 0xBF)
  else if b = 0xED then some (.inside index 1 2 0x80 0x9F)
  else if 0xE1 ≤ b ∧ b ≤ 0xEF then some (.inside index 1 2 0x80 0xBF)
  else if b = 0xF0 then some (.inside index 1 3 0x90 0xBF)
  else if 0xF1 ≤ b ∧ b ≤ 0xF3 then some (.inside index 1 3 0x80 0xBF)
  else if b = 0xF4 then some (.inside index 1 3 0x80 0x8F)
  else none

/-- The first fault of some bytes, read from a place on. -/
def scan : List UInt8 → Nat → Place → Option Fault
  | [], _, .between => none
  | [], _, .inside start _ _ _ _ => some ⟨start, none⟩
  | b :: rest, index, .between =>
    match first? index b with
    | some place => scan rest (index + 1) place
    | none => some ⟨index, some 1⟩
  | b :: rest, index, .inside start seen owed low high =>
    if low ≤ b ∧ b ≤ high then
      scan rest (index + 1)
        (if owed ≤ 1 then .between else .inside start (seen + 1) (owed - 1) 0x80 0xBF)
    else some ⟨start, some seen⟩

/-- The text whose UTF-8 form the bytes are, or the first fault. -/
def decode (bytes : ByteArray) : Except Fault String :=
  match String.fromUTF8? bytes with
  | some text => .ok text
  | none => .error ((scan bytes.data.toList 0 .between).getD ⟨bytes.size, none⟩)

/-- Bytes are read as a text exactly when they are its UTF-8 form. -/
theorem decode_eq_ok_iff {bytes : ByteArray} {text : String} :
    decode bytes = .ok text ↔ text.toUTF8 = bytes := by
  unfold decode String.fromUTF8?
  by_cases h : bytes.IsValidUTF8
  · simp only [h, dite_true, Except.ok.injEq]
    constructor
    · rintro rfl; rfl
    · rintro rfl; rfl
  · simp only [h, dite_false, reduceCtorEq, false_iff]
    rintro rfl
    exact h text.isValidUTF8

end GuestCall.Utf8
