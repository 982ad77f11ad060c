/-
# Errors of binding and calling

Why loading a module, making an instance, or a call fails. Each error is a cause with what it is
about; its words are given in one place, `BindError.message`. Wherever a caller may report an error
of its own kind, the cause `note` carries its words.

Key definitions:
* `BindError`, with the causes it is made of;
* `BindError.kind`, a coarse classification, and `ErrorKind.isFatal`, whether an instance is to be
  given up after an error;
* `BindError.message`.
-/
import GuestCall.Config
import GuestCall.Signature.Basic
import GuestCall.Text.Utf8
import GuestCall.Value
import GuestCall.Wasm.Machine

namespace GuestCall

/-- Why some bytes are no module. -/
inductive CompileFault where
  | malformed
  | note (text : String)
  deriving DecidableEq

/-- What the fault says. -/
def CompileFault.message : CompileFault → String
  | .malformed => "not a valid module"
  | .note text => text

/-- Why a module has no instance. -/
inductive InstantiationFault where
  | import (scope name : String)
  | segmentOutOfBounds
  | start (cause : Wasm.Trap)
  | noMemory
  | note (text : String)
  deriving DecidableEq

/-- The name under which an instance makes its memory visible. -/
def memoryExport : String := "memory"

/-- What the fault says. -/
def InstantiationFault.message : InstantiationFault → String
  | .import scope name => s!"nothing is given for import {name} of {scope}"
  | .segmentOutOfBounds => "a data segment does not fit in memory"
  | .start cause => s!"start function trapped: {cause.message}"
  | .noMemory => s!"module does not export `{memoryExport}`"
  | .note text => text

/-- What was found where something else was expected. -/
inductive Found where
  | value (v : Value)
  | ofKind (kind : ValueKind)
  | arrayOf (element : ScalarKind)
  | mutableArray (element : ScalarKind)
  deriving DecidableEq

/-- The words for what was found. -/
def Found.text : Found → String
  | .value v => v.text
  | .ofKind kind => kind.name
  | .arrayOf element => s!"an array of {element.name}"
  | .mutableArray element => s!"a mutable array of {element.name}"

/-- Why arguments do not fit an export. -/
inductive Mismatch where
  | arity (signature : Signature) (found : Nat)
  | argument (index : Nat) (param : ParamKind) (found : Found)
  | outputArray (index : Nat) (kind : ScalarKind) (found : Found)
  | scalar (kind : ScalarKind) (found : ValueKind)
  | buffer (param : ParamKind) (found : Found)
  | rawCount (expected found : Nat)
  | rawType (index : Nat) (found expected : CoreType)
  | note (text : String)
  deriving DecidableEq

/-- What the mismatch says. -/
def Mismatch.message : Mismatch → String
  | .arity signature found =>
    s!"`{signature.text}` takes {signature.hostArity} arguments, got {found}"
  | .argument index param found =>
    s!"argument {index}: expected {param.text}, got {found.text}"
  | .outputArray index kind found =>
    s!"argument {index}: expected an output array of {kind.name}, got {found.text}"
  | .scalar kind found => s!"expected {kind.name}, got {found.name}"
  | .buffer param found => s!"expected {param.text}, got {found.text}"
  | .rawCount expected found => s!"expected {expected} raw arguments, got {found}"
  | .rawType index found expected =>
    s!"raw argument {index} is {found.name}, expected {expected.name}"
  | .note text => text

/-- Why a call trapped. -/
inductive TrapCause where
  | machine (trap : Wasm.Trap)
  | note (text : String)
  deriving DecidableEq

/-- What the cause says. -/
def TrapCause.message : TrapCause → String
  | .machine trap => trap.message
  | .note text => text

/-- Why a result is not well formed. -/
inductive EncodingFault where
  | outOfRange (value : Int) (kind : ScalarKind)
  | coreType (kind : ScalarKind) (found : CoreValue)
  | noResult (ret : ReturnKind)
  | noDescriptor (found : CoreValue)
  | capacityOverflow (capacity : UInt32)
  | lengthExceedsCapacity (length capacity : UInt32)
  | utf8 (fault : Utf8.Fault)
  | noDecimal (text : String)
  | noArray
  | note (text : String)
  deriving DecidableEq

/-- What the fault says. -/
def EncodingFault.message : EncodingFault → String
  | .outOfRange value kind => s!"{value} is out of range for {kind.name}"
  | .coreType kind found =>
    s!"expected a {kind.coreType.name} result for {kind.name}, got {found.text}"
  | .noResult ret => s!"no result for {ret.text}"
  | .noDescriptor found => s!"expected a descriptor pointer, got {found.text}"
  | .capacityOverflow capacity => s!"capacity {capacity.toNat} overflows linear memory"
  | .lengthExceedsCapacity length capacity =>
    s!"descriptor length {length.toNat} exceeds capacity {capacity.toNat}"
  | .utf8 fault => fault.message
  | .noDecimal text => s!"{quoted text} is not a decimal integer"
  | .noArray => "legacy output was not an array"
  | .note text => text

/-- The name of the export that allocates guest memory. -/
def allocExport : String := "__wasmbind_builtin_alloc"

/-- The name of the export that frees guest memory. -/
def deallocExport : String := "__wasmbind_builtin_dealloc"

/-- The name of the export that counts the allocated bytes. -/
def liveExport : String := "__wasmbind_builtin_live"

/-- The mark of the exports that serve the host itself. -/
def builtinMark : String := "__wasmbind_builtin_"

/-- Why guest memory could not be had. -/
inductive AllocationFault where
  | null
  | noAllocator
  /-- The allocator itself failed, with that message. -/
  | failed (message : String)
  | noPointer
  | nullDescriptor (exportName : String)
  | tooLarge (bytes : Nat)
  | pageLimit (wanted limit : Nat)
  | growthRefused
  | note (text : String)
  deriving DecidableEq

/-- What the fault says. -/
def AllocationFault.message : AllocationFault → String
  | .null => "guest allocator returned null"
  | .noAllocator => s!"module does not export `{allocExport}`"
  | .failed message => message
  | .noPointer => "allocator returned no pointer"
  | .nullDescriptor exportName => s!"`{exportName}` returned a null result descriptor"
  | .tooLarge bytes => s!"{bytes} bytes does not fit in wasm32 memory"
  | .pageLimit wanted limit => s!"{wanted} pages exceeds the limit of {limit}"
  | .growthRefused => "out of bounds memory growth"
  | .note text => text

/-- The parameter and result types of an export. -/
structure ExportShape where
  params : List CoreType
  results : List CoreType
  deriving DecidableEq

/-- The names of some types. -/
def typeList (types : List CoreType) : String := ", ".intercalate (types.map CoreType.name)

/-- Two lists of types as a function type. -/
def ExportShape.text (s : ExportShape) : String := s!"({typeList s.params}) -> ({typeList s.results})"

/-- What a signature lowers to. -/
def Signature.shape (s : Signature) : ExportShape := ⟨s.coreParams, s.coreResults⟩

/-- Why a signature does not fit an export. -/
inductive PlanFault where
  | declaration (error : SignatureError)
  | lowering (signature : Signature) (found : ExportShape)
  | manyResults (count : Nat)
  | notExported
  | note (text : String)
  deriving DecidableEq

/-- What the fault says. -/
def PlanFault.message : PlanFault → String
  | .declaration error => error.message
  | .lowering signature found =>
    s!"`{signature.text}` lowers to {signature.shape.text}, but the export has type {found.text}"
  | .manyResults count => s!"{count} results cannot be derived without metadata"
  | .notExported => "declared in metadata but not exported"
  | .note text => text

/-- Why the signature table of a module could not be read. -/
inductive MetadataFault where
  | json (name : String)
  | version (name : String) (found : UInt32)
  | note (text : String)
  deriving DecidableEq

/-- What the fault says. -/
def MetadataFault.message : MetadataFault → String
  | .json name => s!"section `{name}`: malformed JSON"
  | .version name found =>
    s!"section `{name}` has version {found.toNat}, expected {SignatureTable.currentVersion.toNat}"
  | .note text => text

/-- Why binding or calling failed. -/
inductive BindError where
  | compile (fault : CompileFault)
  | instantiation (fault : InstantiationFault)
  | exportNotFound (name : String)
  | argumentMismatch (exportName : String) (reason : Mismatch)
  | trap (exportName : String) (arguments : List CoreValue) (cause : TrapCause)
  | encoding (exportName : String) (fault : EncodingFault)
  | allocation (requested : UInt32) (fault : AllocationFault)
  | doubleFree (id : Nat) (ptr : UInt32)
  | danglingHandle (id : Nat) (ptr : UInt32) (handleEpoch currentEpoch : Nat)
  | outOfBounds (offset length memoryLength : Nat)
  | invalidSignature (exportName : String) (fault : PlanFault)
  | metadata (fault : MetadataFault)
  | config (fault : ConfigFault)
  deriving DecidableEq

/-- The kinds of errors. -/
inductive ErrorKind where
  | compile
  | instantiation
  | exportNotFound
  | argumentMismatch
  | trap
  | encoding
  | allocation
  | doubleFree
  | danglingHandle
  | outOfBounds
  | invalidSignature
  | metadata
  | config
  deriving DecidableEq

/-- The name of a kind of errors. -/
def ErrorKind.name : ErrorKind → String
  | .compile => "Compile"
  | .instantiation => "Instantiation"
  | .exportNotFound => "ExportNotFound"
  | .argumentMismatch => "ArgumentMismatch"
  | .trap => "Trap"
  | .encoding => "Encoding"
  | .allocation => "Allocation"
  | .doubleFree => "DoubleFree"
  | .danglingHandle => "DanglingHandle"
  | .outOfBounds => "OutOfBounds"
  | .invalidSignature => "InvalidSignature"
  | .metadata => "Metadata"
  | .config => "Config"

/-- Whether an instance is to be given up after an error of this kind: its heap may be half
updated, or the books of the host no longer match it. -/
def ErrorKind.isFatal : ErrorKind → Bool
  | .instantiation | .trap | .doubleFree | .danglingHandle => true
  | _ => false

namespace BindError

/-- The kind of an error. -/
def kind : BindError → ErrorKind
  | .compile _ => .compile
  | .instantiation _ => .instantiation
  | .exportNotFound _ => .exportNotFound
  | .argumentMismatch _ _ => .argumentMismatch
  | .trap _ _ _ => .trap
  | .encoding _ _ => .encoding
  | .allocation _ _ => .allocation
  | .doubleFree _ _ => .doubleFree
  | .danglingHandle _ _ _ _ => .danglingHandle
  | .outOfBounds _ _ _ => .outOfBounds
  | .invalidSignature _ _ => .invalidSignature
  | .metadata _ => .metadata
  | .config _ => .config

/-- Whether an instance is to be given up after the error. -/
def isFatal (e : BindError) : Bool := e.kind.isFatal

/-- What the error says. -/
def message : BindError → String
  | .compile fault => s!"failed to compile module: {fault.message}"
  | .instantiation fault => s!"failed to instantiate module: {fault.message}"
  | .exportNotFound name => s!"export not found: {name}"
  | .argumentMismatch exportName reason =>
    s!"argument mismatch calling `{exportName}`: {reason.message}"
  | .trap exportName arguments cause =>
    s!"`{exportName}({CoreValue.listText arguments})` trapped: {cause.message}"
  | .encoding exportName fault => s!"invalid result from `{exportName}`: {fault.message}"
  | .allocation requested fault =>
    s!"guest allocation of {requested.toNat} bytes failed: {fault.message}"
  | .doubleFree id ptr => s!"allocation #{id} at {Hex.address ptr.toNat} was already released"
  | .danglingHandle id ptr handleEpoch currentEpoch =>
    s!"allocation #{id} at {Hex.address ptr.toNat} is stale " ++
      s!"(epoch {handleEpoch}, memory at epoch {currentEpoch})"
  | .outOfBounds offset length memoryLength =>
    s!"memory access out of bounds: {Hex.address offset}+{length} exceeds {memoryLength} bytes"
  | .invalidSignature exportName fault =>
    s!"invalid signature for `{exportName}`: {fault.message}"
  | .metadata fault => s!"invalid metadata section: {fault.message}"
  | .config fault => s!"invalid configuration: {fault.message}"

end BindError

end GuestCall
