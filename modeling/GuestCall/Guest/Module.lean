/-
# Guest modules

A guest module is a program together with what the host reads off its bytes: their digest, the
functions that can be called, and the signatures that the module declares about them. A function
that takes or returns a reference cannot be called from the host, so it is left out.

Key definitions:
* `GuestModule`, with `GuestModule.find?`;
* `GuestModule.tableOf`, the signatures of a program;
* `GuestModule.ofBytes`.
-/
import GuestCall.Digest
import GuestCall.Error
import GuestCall.Signature.Json

namespace GuestCall

/-- The shape of a function type, if it is about numbers only. -/
def ExportShape.ofType? (type : Wasm.FuncType) : Option ExportShape :=
  match type.params.mapM Wasm.ValType.core?, type.results.mapM Wasm.ValType.core? with
  | some params, some results => some ⟨params, results⟩
  | _, _ => none

/-- A function that the host can call, with its place in the program. -/
structure ExportedFunction where
  name : String
  shape : ExportShape
  index : Nat
  deriving DecidableEq

/-- A module that is ready to have instances. -/
structure GuestModule where
  program : Wasm.Program
  digest : String
  /-- The signatures that the module declares, if it declares any. -/
  table? : Option SignatureTable
  /-- What the host can call, sorted by name. -/
  exports : List ExportedFunction

namespace GuestModule

/-- The function of an export, if the host can call it. -/
def exported? (p : Wasm.Program) (e : Wasm.Export) : Option ExportedFunction :=
  match (p.functionType? e).bind ExportShape.ofType? with
  | some shape => some ⟨e.name, shape, e.index⟩
  | none => none

/-- What the host can call of a program, sorted by name. -/
def exportsOf (p : Wasm.Program) : List ExportedFunction :=
  (p.exports.filterMap (exported? p)).mergeSort fun a b => a.name ≤ b.name

/-- The signatures that a program declares in a custom section. -/
def tableOf (p : Wasm.Program) (name : String) : Except BindError (Option SignatureTable) :=
  match p.custom? name with
  | none => .ok none
  | some contents =>
    match SignatureTable.ofBytes? contents with
    | none => .error (.metadata (.json name))
    | some table =>
      if table.version = SignatureTable.currentVersion then .ok (some table)
      else .error (.metadata (.version name table.version))

/-- The module of some bytes, with the signatures of a custom section. -/
def ofBytes (name : String) (bytes : List UInt8) : Except BindError GuestModule :=
  match Wasm.Program.ofBytes? bytes with
  | none => .error (.compile .malformed)
  | some program =>
    match tableOf program name with
    | .error e => .error e
    | .ok table? => .ok ⟨program, contentDigest bytes.toByteArray, table?, exportsOf program⟩

/-- The function of a name. -/
def find? (m : GuestModule) (name : String) : Option ExportedFunction :=
  m.exports.find? (·.name == name)

/-- The signature that the module declares under a name. -/
def declared? (m : GuestModule) (name : String) : Option Signature := m.table?.bind (·.get? name)

end GuestModule

end GuestCall
