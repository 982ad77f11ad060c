/-
# Export signatures

How an export is called: what each argument and the result are to the host, and the machine types
that they lower to. Buffers cross as a pair of a pointer and a count, buffer results as a pointer
to a descriptor of three words.

Key definitions:
* `ParamKind`, `ReturnKind` and `Convention`, the parts of a `Signature`;
* `ParamKind.coreTypes` and `ReturnKind.coreTypes`, the lowering;
* `Signature.check`, the rules a signature obeys by itself;
* `SignatureTable`, the signatures of a module and the version of their form.
-/
import GuestCall.Scalar.Kind

namespace GuestCall

/-- How one host argument crosses the boundary. -/
inductive ParamKind where
  /-- As one machine argument. -/
  | scalar (kind : ScalarKind)
  /-- Copied into a buffer that only lives during the call. -/
  | slice (kind : ScalarKind)
  /-- Copied in, changed by the guest, and copied back. -/
  | sliceMut (kind : ScalarKind)
  /-- Copied into an input buffer. -/
  | vec (kind : ScalarKind)
  /-- The UTF-8 bytes of a text, copied in. -/
  | str
  deriving DecidableEq

namespace ParamKind

/-- The text of a parameter in a signature. -/
def text : ParamKind → String
  | .scalar kind => kind.name
  | .slice kind => s!"&[{kind.name}]"
  | .sliceMut kind => s!"&mut [{kind.name}]"
  | .vec kind => s!"Vec<{kind.name}>"
  | .str => "String"

/-- The machine arguments that a parameter takes. -/
def coreTypes : ParamKind → List CoreType
  | .scalar kind => [kind.coreType]
  | _ => [.i32, .i32]

/-- Whether a parameter needs a buffer in guest memory. -/
def needsAllocation : ParamKind → Bool
  | .scalar _ => false
  | _ => true

/-- Whether a parameter is copied back after the call. -/
def isInPlace : ParamKind → Bool
  | .sliceMut _ => true
  | _ => false

/-- The kind of the elements of an array parameter. -/
def element? : ParamKind → Option ScalarKind
  | .slice kind | .sliceMut kind | .vec kind => some kind
  | .scalar _ | .str => none

end ParamKind

/-- What an export hands back. -/
inductive ReturnKind where
  | unit
  | scalar (kind : ScalarKind)
  /-- A fresh buffer of elements, through a descriptor. -/
  | vec (kind : ScalarKind)
  /-- A text, through a descriptor of its UTF-8 bytes. -/
  | str
  /-- The decimal digits of an integer, through a descriptor. -/
  | bigDecimal
  deriving DecidableEq

namespace ReturnKind

/-- The text of a result in a signature. -/
def text : ReturnKind → String
  | .unit => "()"
  | .scalar kind => kind.name
  | .vec kind => s!"Vec<{kind.name}>"
  | .str => "String"
  | .bigDecimal => "BigDecimal"

/-- The machine results that a result takes. -/
def coreTypes : ReturnKind → List CoreType
  | .unit => []
  | .scalar kind => [kind.coreType]
  | _ => [.i32]

/-- Whether a result comes through a descriptor. -/
def isBuffer : ReturnKind → Bool
  | .vec _ | .str | .bigDecimal => true
  | .unit | .scalar _ => false

end ReturnKind

/-- Where the result of a call goes. -/
inductive Convention where
  /-- To the caller. -/
  | standard
  /-- Into an array that the caller passes as one more argument, the last one. -/
  | legacyOutParam
  deriving DecidableEq

/-- How one export is called. -/
structure Signature where
  /-- The name of the export for the host. -/
  name : String
  params : List ParamKind
  ret : ReturnKind
  convention : Convention
  deriving DecidableEq

/-- Why a signature contradicts itself. -/
inductive SignatureFault where
  | emptyName
  /-- The result of a call that writes into an array has to be an array. -/
  | legacyReturn (ret : ReturnKind)
  deriving DecidableEq

/-- What the fault says. -/
def SignatureFault.message : SignatureFault → String
  | .emptyName => "empty export name"
  | .legacyReturn ret =>
    s!"legacy output-array convention needs a Vec return, found {ret.text}"

/-- A fault, together with the export it was found in. -/
structure SignatureError where
  exportName : String
  fault : SignatureFault
  deriving DecidableEq

/-- What the error says. -/
def SignatureError.message (e : SignatureError) : String :=
  s!"invalid signature for `{e.exportName}`: {e.fault.message}"

namespace Signature

/-- Whether the result goes into an array of the caller. -/
def isLegacy (s : Signature) : Bool := s.convention == .legacyOutParam

/-- How many arguments the host passes. -/
def hostArity (s : Signature) : Nat := s.params.length + (if s.isLegacy then 1 else 0)

/-- The machine types of the arguments, in order. -/
def coreParams (s : Signature) : List CoreType := s.params.flatMap ParamKind.coreTypes

/-- The machine types of the results. -/
def coreResults (s : Signature) : List CoreType := s.ret.coreTypes

/-- The fault of a signature that contradicts itself. -/
def fault? (s : Signature) : Option SignatureFault :=
  if s.name = "" then some .emptyName
  else
    match s.convention, s.ret with
    | .legacyOutParam, .vec _ => none
    | .legacyOutParam, ret => some (.legacyReturn ret)
    | .standard, _ => none

/-- Whether a signature obeys the rules. -/
def check (s : Signature) : Except SignatureError Unit :=
  match s.fault? with
  | some fault => .error ⟨s.name, fault⟩
  | none => .ok ()

/-- The text of a signature. -/
def text (s : Signature) : String :=
  s.name ++ "(" ++ ", ".intercalate (s.params.map ParamKind.text) ++ ") -> " ++ s.ret.text

end Signature

/-- The signatures of a module, in the order in which they were declared. -/
structure SignatureTable where
  version : UInt32
  exports : List Signature
  deriving DecidableEq

namespace SignatureTable

/-- The version of the form in which tables are kept in modules. -/
def currentVersion : UInt32 := 1

/-- A table without entries. -/
def empty : SignatureTable := ⟨currentVersion, []⟩

/-- The table with one more entry at its end. -/
def push (t : SignatureTable) (s : Signature) : SignatureTable :=
  { t with exports := t.exports ++ [s] }

/-- The first entry of a name. -/
def get? (t : SignatureTable) (name : String) : Option Signature :=
  t.exports.find? (·.name == name)

end SignatureTable

end GuestCall
