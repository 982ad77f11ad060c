/-
# Passing arguments

How a checked argument reaches the guest. A scalar travels as one machine value. A text or an array
is copied into a buffer that the ledger takes from the guest, and travels as the address of the
buffer and a count. An array that the guest may change is copied back from its buffer afterwards.

Key definitions:
* `Passed`, what an argument has become;
* `takeBuffer`, a buffer that the memory really covers;
* `passArgument`, and `copyBack`, its counterpart after the call.
-/
import GuestCall.Call.Argument
import GuestCall.Guest.Instance

namespace GuestCall

/-- What an argument has become: machine values, and the buffer that they point to. -/
structure Passed where
  raw : List CoreValue
  handle? : Option Handle
  deriving DecidableEq

/-- The size of a buffer of so many elements; addresses have to stay positive as signed words. -/
def bufferLength (count width : Nat) : Except BindError UInt32 :=
  if count * width ≤ 0x7FFFFFFF then .ok (count * width).toUInt32
  else .error (.allocation 0xFFFFFFFF (.tooLarge (count * width)))

/-- Takes a buffer from the guest. Where the memory does not cover it, the host grows the memory,
and the handle is refreshed. -/
def takeBuffer (length : UInt32) : Action Instance Handle := do
  let h ← Ledger.allocate length
  let grew ← Action.onGuest (Instance.ensure h.stop)
  if grew then Ledger.refresh h else return h

/-- Copies a text into a buffer. -/
def passText (text : String) : Action Instance Handle := do
  let bytes := text.toUTF8
  let length ← Action.ofExcept (bufferLength bytes.size 1)
  let h ← takeBuffer length
  Action.onGuest (Instance.onMemory fun memory => memory.writeBytes h.ptr bytes)
  return h

/-- Copies an array into a buffer. -/
def passArray (style : AccessStyle) (a : ScalarArray) : Action Instance Handle := do
  let length ← Action.ofExcept (bufferLength a.length a.kind.width)
  let h ← takeBuffer length
  Action.onGuest (Instance.onMemory fun memory => memory.writeScalars style h.ptr a.items)
  return h

/-- Passes an argument to a parameter. An array is taken as it comes: its kind is for
`Argument.check` to look at. -/
def passArgument (style : AccessStyle) (exportName : String) (param : ParamKind) (a : Argument) :
    Action Instance Passed :=
  match param, a with
  | .scalar kind, .byValue v =>
    match Scalar.ofValue? kind v with
    | some s => return ⟨[s.lower], none⟩
    | none => Action.fail (.argumentMismatch exportName (.scalar kind v.kind))
  | .str, .byValue (.str text) => do
    let h ← passText text
    return ⟨[.i32 h.ptr, .i32 h.len], some h⟩
  | param, a =>
    match a.array? with
    | some items => do
      let h ← passArray style items
      return ⟨[.i32 h.ptr, .i32 items.length.toUInt32], some h⟩
    | none => Action.fail (.argumentMismatch exportName (.buffer param a.found))

/-- The caller's array after its elements are read back from its buffer. It keeps its length, and
after an error that stopped the reading also its last elements. -/
def copyBack (style : AccessStyle) (h : Handle) (target : ScalarArray) (b : Books Instance) :
    Except BindError Unit × ScalarArray × Books Instance :=
  match Ledger.refresh h b with
  | (.error e, b) => (.error e, target, b)
  | (.ok h, b) =>
    match b.guest.store.memory.readElements style target.kind target.length h.ptr with
    | (items, none) => (.ok (), target.overwrite items, b)
    | (items, some e) => (.error e, target.overwrite items, b)

end GuestCall
