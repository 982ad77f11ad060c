/-
# Instances

An instance is a guest module with a memory and globals of its own. The host calls its exports with
machine values, looks into its memory, and takes buffers from its allocator. The instance keeps the
length of its memory that was last looked at, and counts an epoch whenever that length has changed.

Key definitions:
* `Instance`, and `Instance.ofModule`, which makes one;
* `Instance.call`, a call of an export;
* `Instance.observe`, which notices growth;
* `Instance.onMemory`, work on the memory;
* the instance of `GuestAllocator`, by which an `Instance` keeps a ledger.
-/
import GuestCall.Guest.Module
import GuestCall.Ledger.Basic
import GuestCall.Memory.View

namespace GuestCall

namespace Wasm

/-- The value of a constant that does not depend on what is imported. -/
def ConstExpr.val? : ConstExpr → Option Val
  | .value v => some (.ofCore v)
  | .null type => some (.null type)
  | .global _ => none

/-- What a global starts as. Nothing is imported, so no global starts as another one. -/
def Global.start (g : Global) : Val := g.init.val?.getD (.zero g.type.type)

/-- The memory with the contents of a segment, if they fit. -/
def Segment.place? (s : Segment) (memory : Memory) : Option Memory :=
  match s.offset? with
  | none => some memory
  | some offset =>
    match offset.val? with
    | some (.i32 start) =>
      if start.toNat + s.contents.length ≤ memory.size then
        some (memory.write start.toNat s.contents.toByteArray)
      else none
    | _ => none

/-- The memory with the contents of all segments, if they fit. -/
def placeSegments? : List Segment → Memory → Option Memory
  | [], memory => some memory
  | s :: rest, memory =>
    match s.place? memory with
    | some memory => placeSegments? rest memory
    | none => none

namespace Program

/-- The memory that an instance starts with; it is empty where the program has none. -/
def freshMemory (p : Program) : Memory :=
  match p.memory? with
  | some limits => .zeroed limits.min (some (limits.max?.getD pageCeiling))
  | none => .zeroed 0 (some 0)

/-- The store that an instance starts with. -/
def freshStore (p : Program) : Except InstantiationFault Store :=
  match p.imports with
  | i :: _ => .error (.import i.scope i.name)
  | [] =>
    match placeSegments? p.segments p.freshMemory with
    | none => .error .segmentOutOfBounds
    | some memory =>
      let store : Store := ⟨memory, p.globals.map Global.start⟩
      match p.start? with
      | none => .ok store
      | some f =>
        match p.invoke depthLimit f [] store with
        | .results _ store => .ok store
        | .trap cause _ => .error (.start cause)

/-- Whether the memory is visible under a name. -/
def showsMemory (p : Program) (name : String) : Bool :=
  p.exports.any fun e => e.name == name && e.kind == .memory

end Program

end Wasm

/-- The reason why machine arguments do not fit a shape. -/
def ExportShape.mismatch? (shape : ExportShape) (arguments : List CoreValue) : Option Mismatch :=
  if arguments.length = shape.params.length then
    ((arguments.zip shape.params).zipIdx.find? fun p => p.1.1.type != p.1.2).map fun p =>
      .rawType p.2 p.1.1.type p.1.2
  else some (.rawCount shape.params.length arguments.length)

/-- A guest module at work. -/
structure Instance where
  module : GuestModule
  store : Wasm.Store
  /-- The most pages that the host grows the memory to. -/
  pageLimit : UInt32
  /-- How often the memory was found to have another length. -/
  epoch : Nat
  /-- The length of the memory when it was last looked at. -/
  observed : Nat

namespace Instance

/-- A new instance of a module. -/
def ofModule (m : GuestModule) (c : Config) : Except BindError Instance :=
  match m.program.freshStore with
  | .error fault => .error (.instantiation fault)
  | .ok store =>
    if m.program.showsMemory memoryExport then
      let length := store.memory.size
      .ok ⟨m, store, c.maxMemoryPages, 0, length⟩
    else .error (.instantiation .noMemory)

/-- Bytes of the memory. -/
def memoryLength (i : Instance) : Nat := i.store.memory.size

/-- The instance after a look at the length of its memory. -/
def observe (i : Instance) : Instance :=
  let length := i.memoryLength
  if length = i.observed then i else { i with observed := length, epoch := i.epoch + 1 }

/-- A run of a function by its place in the program. Growth is noticed whether or not it traps. -/
def run (name : String) (index : Nat) (arguments : List CoreValue) :
    Instance → Except BindError (List CoreValue) × Instance
  | ⟨module, store, pageLimit, epoch, observed⟩ =>
    match module.program.invoke Wasm.depthLimit index (arguments.reverse.map .ofCore) store with
    | .results stack store =>
      (.ok (stack.reverse.filterMap Wasm.Val.core?),
        observe ⟨module, store, pageLimit, epoch, observed⟩)
    | .trap cause store =>
      (.error (.trap name arguments (.machine cause)),
        observe ⟨module, store, pageLimit, epoch, observed⟩)

/-- A call of an export. The arguments are checked before the guest runs. -/
def call (name : String) (arguments : List CoreValue) (i : Instance) :
    Except BindError (List CoreValue) × Instance :=
  match i.module.find? name with
  | none => (.error (.exportNotFound name), i)
  | some f =>
    match f.shape.mismatch? arguments with
    | some reason => (.error (.argumentMismatch name reason), i)
    | none => i.run name f.index arguments

/-- Work on the memory of an instance. -/
def onMemory {α : Type} (f : Memory → α × Memory) : Instance → α × Instance
  | ⟨module, ⟨memory, globals⟩, pageLimit, epoch, observed⟩ =>
    match f memory with
    | (result, memory) => (result, ⟨module, ⟨memory, globals⟩, pageLimit, epoch, observed⟩)

/-- The memory grown by the host to at least some bytes, and whether it had to grow. -/
def ensure (bytes : Nat) (i : Instance) : Except BindError Bool × Instance :=
  let limit := i.pageLimit
  i.onMemory fun memory => memory.ensure limit bytes

/-- The word that a guest function returned first, if it did. -/
def firstWord? : List CoreValue → Option UInt32
  | .i32 v :: _ => some v
  | _ => none

/-- How many bytes the guest has allocated, if it tells. -/
def liveBytes (i : Instance) : Except BindError (Option UInt32) × Instance :=
  match i.module.find? liveExport with
  | none => (.ok none, i)
  | some _ =>
    match i.call liveExport [] with
    | (.ok results, i) => (.ok (firstWord? results), i)
    | (.error e, i) => (.error e, i)

/-- A new buffer from the allocator of the guest. -/
def alloc (i : Instance) (length : UInt32) : Except BindError UInt32 × Instance :=
  match i.module.find? allocExport with
  | none => (.error (.allocation length .noAllocator), i)
  | some _ =>
    match i.call allocExport [.i32 length] with
    | (.error e, i) => (.error (.allocation length (.failed e.message)), i)
    | (.ok results, i) =>
      match firstWord? results with
      | some ptr => (.ok ptr, i)
      | none => (.error (.allocation length .noPointer), i)

/-- A buffer back to the allocator of the guest. -/
def free (i : Instance) (ptr length : UInt32) : Except BindError Unit × Instance :=
  match i.call deallocExport [.i32 ptr, .i32 length] with
  | (.ok _, i) => (.ok (), i)
  | (.error e, i) => (.error e, i)

instance : GuestAllocator Instance where
  alloc := alloc
  free := free
  epoch i :=
    let i := i.observe
    let epoch := i.epoch
    (epoch, i)
  memoryLength := memoryLength

/-- The text of an instance, for whoever looks into it. -/
def debugText (i : Instance) : String :=
  "Instance \x7b module: " ++ quoted i.module.digest ++ ", memory_len: " ++ toString i.observed ++
    ", epoch: " ++ toString i.epoch ++ " \x7d"

end Instance

end GuestCall
