/-
# Signature tables as JSON

The form in which a table is kept in a module, and the reader that accepts it with blanks, in any
order of fields, or as arrays. The convention of a signature is only written when it is not the
standard one; a missing result is `unit` and a missing convention is the standard one.

Key definitions:
* `SignatureTable.toJson` and `SignatureTable.ofJson?`, with their parts;
* `SignatureTable.bytes` and `SignatureTable.ofBytes?`, the same over bytes.

Key theorem: `SignatureTable.ofJson?_toJson`, a table is read back from its form.
-/
import GuestCall.Json.Reader
import GuestCall.Json.Shape
import GuestCall.Signature.Basic

namespace GuestCall

/-- The JSON form of a kind: its name. -/
def ScalarKind.toJson (kind : ScalarKind) : Json := .string kind.name

/-- The kind of a JSON form. -/
def ScalarKind.ofJson? (j : Json) : Option ScalarKind := j.plain?.bind ofName?

namespace ParamKind

/-- The JSON form of a parameter. -/
def toJson : ParamKind → Json
  | .scalar kind => .object [("scalar", kind.toJson)]
  | .slice kind => .object [("slice", kind.toJson)]
  | .sliceMut kind => .object [("slice_mut", kind.toJson)]
  | .vec kind => .object [("vec", kind.toJson)]
  | .str => .string "str"

/-- The parameter of a JSON form. -/
def ofJson? (j : Json) : Option ParamKind :=
  match j.alternative? with
  | some ("scalar", some kind) => (ScalarKind.ofJson? kind).map .scalar
  | some ("slice", some kind) => (ScalarKind.ofJson? kind).map .slice
  | some ("slice_mut", some kind) => (ScalarKind.ofJson? kind).map .sliceMut
  | some ("vec", some kind) => (ScalarKind.ofJson? kind).map .vec
  | some ("str", none) => some .str
  | some ("str", some .null) => some .str
  | _ => none

theorem ofJson?_toJson (p : ParamKind) : ofJson? p.toJson = some p := by
  cases p with
  | str => rfl
  | scalar kind => cases kind <;> decide
  | slice kind => cases kind <;> decide
  | sliceMut kind => cases kind <;> decide
  | vec kind => cases kind <;> decide

end ParamKind

namespace ReturnKind

/-- The JSON form of a result. -/
def toJson : ReturnKind → Json
  | .unit => .string "unit"
  | .scalar kind => .object [("scalar", kind.toJson)]
  | .vec kind => .object [("vec", kind.toJson)]
  | .str => .string "str"
  | .bigDecimal => .string "big_decimal"

/-- The result of a JSON form. -/
def ofJson? (j : Json) : Option ReturnKind :=
  match j.alternative? with
  | some ("scalar", some kind) => (ScalarKind.ofJson? kind).map .scalar
  | some ("vec", some kind) => (ScalarKind.ofJson? kind).map .vec
  | _ =>
    match j.plain? with
    | some "unit" => some .unit
    | some "str" => some .str
    | some "big_decimal" => some .bigDecimal
    | _ => none

theorem ofJson?_toJson (r : ReturnKind) : ofJson? r.toJson = some r := by
  cases r with
  | unit => rfl
  | str => rfl
  | bigDecimal => rfl
  | scalar kind => cases kind <;> decide
  | vec kind => cases kind <;> decide

end ReturnKind

namespace Convention

/-- The JSON form of a convention. -/
def toJson : Convention → Json
  | .standard => .string "standard"
  | .legacyOutParam => .string "legacy_out_param"

/-- The convention of a JSON form. -/
def ofJson? (j : Json) : Option Convention :=
  match j.plain? with
  | some "standard" => some .standard
  | some "legacy_out_param" => some .legacyOutParam
  | _ => none

theorem ofJson?_toJson (c : Convention) : ofJson? c.toJson = some c := by
  cases c <;> rfl

end Convention

namespace Signature

/-- The JSON form of a signature. -/
def toJson (s : Signature) : Json :=
  .object ([("name", .string s.name), ("params", .array (s.params.map ParamKind.toJson)),
    ("ret", s.ret.toJson)] ++
    if s.isLegacy then [("convention", s.convention.toJson)] else [])

/-- The parameters of a JSON form. -/
def paramsOfJson? (j : Json) : Option (List ParamKind) :=
  j.items?.bind fun items => items.mapM ParamKind.ofJson?

/-- The signature of a JSON form. -/
def ofJson? (j : Json) : Option Signature :=
  match j.fields? ["name", "params", "ret", "convention"] with
  | some [name, params, ret, convention] => do
    let name ← Json.getField Json.string? name
    let params ← Json.getField paramsOfJson? params
    let ret ← Json.getOr ReturnKind.ofJson? .unit ret
    let convention ← Json.getOr Convention.ofJson? .standard convention
    return ⟨name, params, ret, convention⟩
  | _ => none

/-- The text of the JSON form of a signature. -/
def jsonText (s : Signature) : String := Json.textOf s.toJson.compact

theorem mapM_ofJson?_toJson (params : List ParamKind) :
    (params.map ParamKind.toJson).mapM ParamKind.ofJson? = some params := by
  induction params with
  | nil => rfl
  | cons p rest ih => simp [ParamKind.ofJson?_toJson, ih]

/-- A signature is read back from its form. -/
theorem ofJson?_toJson (s : Signature) : ofJson? s.toJson = some s := by
  obtain ⟨name, params, ret, convention⟩ := s
  cases convention <;>
    simp [toJson, ofJson?, isLegacy, Json.fields?, Json.field?, Json.getField, Json.getOr,
      Json.string?, paramsOfJson?, Json.items?, mapM_ofJson?_toJson, ReturnKind.ofJson?_toJson,
      Convention.ofJson?_toJson, -List.mapM_map]

end Signature

namespace SignatureTable

/-- The JSON form of a table. -/
def toJson (t : SignatureTable) : Json :=
  .object [("version", .number t.version.toNat), ("exports", .array (t.exports.map Signature.toJson))]

/-- The entries of a JSON form. -/
def exportsOfJson? (j : Json) : Option (List Signature) :=
  j.items?.bind fun items => items.mapM Signature.ofJson?

/-- The table of a JSON form. -/
def ofJson? (j : Json) : Option SignatureTable :=
  match j.fields? ["version", "exports"] with
  | some [version, exports] => do
    let version ← Json.getField Json.word? version
    let exports ← Json.getField exportsOfJson? exports
    return ⟨version, exports⟩
  | _ => none

/-- The bytes that keep a table in a module. -/
def bytes (t : SignatureTable) : List UInt8 := t.toJson.compact

/-- The text of the JSON form of a table. -/
def jsonText (t : SignatureTable) : String := Json.textOf t.bytes

/-- The table that some bytes keep. -/
def ofBytes? (bytes : List UInt8) : Option SignatureTable := (Json.ofBytes? bytes).bind ofJson?

theorem mapM_ofJson?_toJson (exports : List Signature) :
    (exports.map Signature.toJson).mapM Signature.ofJson? = some exports := by
  induction exports with
  | nil => rfl
  | cons s rest ih => simp [Signature.ofJson?_toJson, ih]

/-- A table is read back from its form. -/
theorem ofJson?_toJson (t : SignatureTable) : ofJson? t.toJson = some t := by
  obtain ⟨version, exports⟩ := t
  simp [toJson, ofJson?, Json.fields?, Json.field?, Json.getField, Json.word?_number,
    exportsOfJson?, Json.items?, mapM_ofJson?_toJson, -List.mapM_map]

end SignatureTable

end GuestCall
