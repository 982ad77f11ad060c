/-
# Shapes of JSON values

How records and alternatives are kept as JSON. A record is an object with its fields under their
names, in any order and among others that are passed over, or an array of its fields in order; a
field may be missing at the end of an array as in an object, and none may be given twice. An
alternative is its name, or an object whose only member has that name.

Key definitions:
* `Json.fields?`, the fields of a record;
* `Json.alternative?`, the name of an alternative and what belongs to it.
-/
import GuestCall.Json.Basic

namespace GuestCall.Json

/-- The value of a field that is given at most once. -/
def field? (name : String) (members : List (String × Json)) : Option (Option Json) :=
  match members.filter (·.1 == name) with
  | [] => some none
  | [(_, value)] => some (some value)
  | _ => none

/-- The fields of a record, each with its value if it is given. -/
def fields? (names : List String) : Json → Option (List (Option Json))
  | .object members => names.mapM fun name => field? name members
  | .array items =>
    if items.length ≤ names.length then
      some (items.map some ++ List.replicate (names.length - items.length) none)
    else none
  | _ => none

/-- The name of an alternative and what belongs to it. -/
def alternative? : Json → Option (String × Option Json)
  | .string name => some (name, none)
  | .object [(name, value)] => some (name, some value)
  | _ => none

/-- The name of an alternative to which nothing belongs. -/
def plain? (j : Json) : Option String :=
  match j.alternative? with
  | some (name, none) => some name
  | some (name, some .null) => some name
  | _ => none

/-- A text. -/
def string? : Json → Option String
  | .string s => some s
  | _ => none

/-- A truth value. -/
def bool? : Json → Option Bool
  | .bool b => some b
  | _ => none

/-- A number of 32 bits. -/
def word? : Json → Option UInt32
  | .number n => if n < UInt32.size then some n.toUInt32 else none
  | _ => none

theorem word?_number (w : UInt32) : word? (.number w.toNat) = some w := by
  have h : w.toNat < UInt32.size := w.toNat_lt
  show (if w.toNat < UInt32.size then some w.toNat.toUInt32 else none) = some w
  rw [if_pos h]
  exact congrArg some (UInt32.ofNat_toNat)

/-- The items of an array. -/
def items? : Json → Option (List Json)
  | .array items => some items
  | _ => none

/-- An optional field: its value, or what stands for it when it is missing. -/
def getOr {α : Type} (read : Json → Option α) (default : α) : Option Json → Option α
  | some j => read j
  | none => some default

/-- A field that has to be given. -/
def getField {α : Type} (read : Json → Option α) (field : Option Json) : Option α :=
  field.bind read

end GuestCall.Json
