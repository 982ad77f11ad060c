/-
# Drafts of guests

A draft is a guest module under construction. It has an allocator from the start; functions, their
signatures and static data are added step by step, and at the end the module is written down and
checked. Every wrapped function has a name of its own, and a step that fails changes nothing.

Key definitions:
* `Draft`, and `Draft.empty`;
* `Draft.addFunction`, `Draft.addTyped` and `Draft.declare`, the steps;
* `Draft.toModule` and `Draft.finish`, the module and its bytes.
-/
import GuestCall.Draft.Allocator
import GuestCall.Draft.StaticData
import GuestCall.Guest.Module

namespace GuestCall

/-- Why a draft refuses a step, or is no module. -/
inductive DraftError where
  | signature (error : SignatureError)
  | duplicate (name : String)
  /-- The static data reaches into the heap. -/
  | dataOverflow (stop : Nat)
  /-- The finished module breaks a rule. -/
  | invalid
  deriving DecidableEq

/-- What the error says. -/
def DraftError.message : DraftError → String
  | .signature error => s!"invalid signature: {error.message}"
  | .duplicate name => s!"duplicate export: {name}"
  | .dataOverflow stop =>
    s!"limit exceeded: static data ends at {stop} but the heap starts at {heapStart}"
  | .invalid => "the module is not valid"

/-- How a function of a draft is visible. -/
inductive Visibility where
  | hidden
  /-- Under a name that serves the host itself. -/
  | builtin (name : String)
  /-- Under the mark of wrapped exports and a name of its own. -/
  | wrapped (name : String)
  deriving DecidableEq

/-- The name of the export, if there is one. -/
def Visibility.exportName? : Visibility → Option String
  | .hidden => none
  | .builtin name => some name
  | .wrapped name => some (wrappedMark ++ name)

/-- A function of a draft. -/
structure DraftFunction where
  type : Wasm.FuncType
  visibility : Visibility
  body : Wasm.Body
  deriving DecidableEq

/-- A guest module under construction. -/
structure Draft where
  functions : List DraftFunction
  table : SignatureTable
  /-- The section for the signatures, if they are written down. -/
  tableSection? : Option String
  data : StaticData
  deriving DecidableEq

namespace Draft

/-- The type of functions between words. -/
def wordType (params results : Nat) : Wasm.FuncType :=
  ⟨List.replicate params .i32, List.replicate results .i32⟩

/-- The functions that every draft has. -/
def builtins : List DraftFunction :=
  [⟨wordType 1 1, .builtin allocExport, Allocator.alloc⟩,
    ⟨wordType 2 0, .builtin deallocExport, Allocator.dealloc⟩,
    ⟨wordType 0 1, .builtin liveExport, Allocator.live⟩,
    ⟨wordType 3 1, .hidden, Allocator.newDescriptor⟩]

/-- A draft with an allocator only. -/
def empty : Draft := ⟨builtins, .empty, some metadataSection, .empty⟩

/-- Whether there is a wrapped function of some name. -/
def isTaken (d : Draft) (name : String) : Bool :=
  d.functions.any fun f => f.visibility == .wrapped name

/-- Adds a wrapped function without a signature. The result is its place. -/
def addFunction (d : Draft) (name : String) (type : Wasm.FuncType) (body : Wasm.Body) :
    Except DraftError (Nat × Draft) :=
  if d.isTaken name then .error (.duplicate name)
  else
    .ok (d.functions.length, { d with functions := d.functions ++ [⟨type, .wrapped name, body⟩] })

/-- Adds a signature without a function. -/
def declare (d : Draft) (s : Signature) : Except DraftError Draft :=
  match s.check with
  | .error e => .error (.signature e)
  | .ok _ => .ok { d with table := d.table.push s }

/-- The function type that a signature lowers to. -/
def typeOf (s : Signature) : Wasm.FuncType := ⟨s.coreParams.map .num, s.coreResults.map .num⟩

/-- Adds a wrapped function with its signature. The result is its place. -/
def addTyped (d : Draft) (s : Signature) (body : Wasm.Body) : Except DraftError (Nat × Draft) :=
  match s.check with
  | .error e => .error (.signature e)
  | .ok _ =>
    match d.addFunction s.name (typeOf s) body with
    | .error e => .error e
    | .ok (place, d) => .ok (place, { d with table := d.table.push s })

/-- The place of some constant bytes. -/
def intern (d : Draft) (bytes : List UInt8) : Span × Draft :=
  match d.data.intern bytes with
  | (span, data) => (span, { d with data })

/-- The types of the functions, each of them once, in the order of their first use. -/
def types (d : Draft) : List Wasm.FuncType :=
  d.functions.foldl (fun types f => if types.contains f.type then types else types ++ [f.type]) []

/-- The exports: the memory, and then the functions that are visible. -/
def exports (d : Draft) : List Wasm.Export :=
  ⟨memoryExport, .memory, 0⟩ ::
    d.functions.zipIdx.filterMap fun p =>
      p.1.visibility.exportName?.map fun name => ⟨name, .function, p.2⟩

/-- The segment of the static data, if there is any. -/
def segments (d : Draft) : List Wasm.Segment :=
  if d.data.contents.isEmpty then []
  else [⟨some (.value (.i32 dataStart.toUInt32)), d.data.contents⟩]

/-- The section of the signatures, if they are written down. -/
def customs (d : Draft) : List Wasm.Custom :=
  match d.tableSection? with
  | some name => [⟨name, d.table.bytes⟩]
  | none => []

/-- The module of a draft. -/
def toModule (d : Draft) : Wasm.Module :=
  let types := d.types
  { types
    functions := d.functions.map fun f => types.idxOf f.type
    memories := [memoryLimits]
    globals := guestGlobals
    exports := d.exports
    bodies := d.functions.map (·.body)
    segments := d.segments
    customs := d.customs }

/-- The bytes of the finished module. The static data has to end before the heap, and the module
has to be valid. -/
def finish (d : Draft) : Except DraftError (List UInt8) :=
  if heapStart < d.data.stop then .error (.dataOverflow d.data.stop)
  else
    let bytes := d.toModule.bytes
    match Wasm.Program.ofBytes? bytes with
    | some _ => .ok bytes
    | none => .error .invalid

end Draft

end GuestCall
