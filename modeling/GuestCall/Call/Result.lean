/-
# Results

How the machine results of a call become a host value. A scalar is narrowed to its kind. A buffer
result is the address of a descriptor of three words: where the data is, how many elements it has,
and how many it has room for. The data and the descriptor are entered in the ledger before they are
looked at, so they are given back whatever comes of them.

Key definitions:
* `Scalar.lift`, the scalar of a machine value;
* `Descriptor`, and `adoptBuffer`, which follows one;
* `decodeResult`.
-/
import GuestCall.Guest.Instance

namespace GuestCall

namespace Scalar

/-- The scalar of a narrow kind that a word holds. -/
def narrow (exportName : String) (kind : ScalarKind) (v : UInt32) : Except BindError Scalar :=
  match ofInt? kind v.toInt32.toInt with
  | some s => .ok s
  | none => .error (.encoding exportName (.outOfRange v.toInt32.toInt kind))

/-- The scalar of a kind that a machine value stands for. Any word but zero is true. -/
def lift (exportName : String) : ScalarKind → CoreValue → Except BindError Scalar
  | .bool, .i32 v => .ok (.bool (v != 0))
  | .u8, .i32 v => narrow exportName .u8 v
  | .i8, .i32 v => narrow exportName .i8 v
  | .u16, .i32 v => narrow exportName .u16 v
  | .i16, .i32 v => narrow exportName .i16 v
  | .u32, .i32 v => .ok (.u32 v)
  | .i32, .i32 v => .ok (.i32 v.toInt32)
  | .i64, .i64 v => .ok (.i64 v.toInt64)
  | .f32, .f32 v => .ok (.f32 v)
  | .f64, .f64 v => .ok (.f64 v)
  | kind, raw => .error (.encoding exportName (.coreType kind raw))

end Scalar

/-- Where a buffer result is: the address of its data, its count of elements, and the count that
it has room for. -/
structure Descriptor where
  ptr : UInt32
  len : UInt32
  cap : UInt32
  deriving DecidableEq

namespace Descriptor

/-- Bytes of a descriptor. -/
def width : UInt32 := 12

/-- Where the fields of a descriptor are. -/
def ptrOffset : UInt32 := 0

@[inherit_doc ptrOffset]
def lenOffset : UInt32 := 4

@[inherit_doc ptrOffset]
def capOffset : UInt32 := 8

/-- The descriptor at an address. -/
def read (style : AccessStyle) (memory : Memory) (address : UInt32) : Except BindError Descriptor :=
  match memory.readElement style (address + ptrOffset) .u32 with
  | .error e => .error e
  | .ok ptr =>
    match memory.readElement style (address + lenOffset) .u32 with
    | .error e => .error e
    | .ok len =>
      match memory.readElement style (address + capOffset) .u32 with
      | .error e => .error e
      | .ok cap => .ok ⟨ptr, len, cap⟩

end Descriptor

/-- The address of the descriptor that a machine value stands for. -/
def descriptorAddress (exportName : String) : CoreValue → Except BindError UInt32
  | .i32 0 => .error (.allocation 0 (.nullDescriptor exportName))
  | .i32 address => .ok address
  | other => .error (.encoding exportName (.noDescriptor other))

/-- Looks at the memory of the guest. -/
def lookAt {α : Type} (f : Memory → Except BindError α) : Action Instance α := fun b =>
  (f b.guest.store.memory, b)

/-- Follows a descriptor: enters its data and then itself in the ledger. The result is the handle
of the data and the count of elements, which the capacity has to cover. -/
def adoptBuffer (style : AccessStyle) (exportName : String) (width : Nat) (raw : CoreValue) :
    Action Instance (Handle × UInt32) := do
  let address ← Action.ofExcept (descriptorAddress exportName raw)
  let d ← lookAt fun memory => Descriptor.read style memory address
  let room := d.cap.toNat * width
  if 0xFFFFFFFF < room then Action.fail (.encoding exportName (.capacityOverflow d.cap))
  else
    let data ← Ledger.adopt d.ptr room.toUInt32
    let _ ← Ledger.adopt address Descriptor.width
    if d.cap < d.len then
      Action.fail (.encoding exportName (.lengthExceedsCapacity d.len d.cap))
    else return (data, d.len)

/-- The elements of a buffer result. -/
def takeElements (style : AccessStyle) (exportName : String) (kind : ScalarKind)
    (raw : CoreValue) : Action Instance ScalarArray := do
  let (h, len) ← adoptBuffer style exportName kind.width raw
  lookAt fun memory =>
    match memory.readElements style kind len.toNat h.ptr with
    | (items, none) => .ok (.ofElements kind items)
    | (_, some e) => .error e

/-- The text of a buffer result. -/
def takeText (style : AccessStyle) (exportName : String) (raw : CoreValue) :
    Action Instance String := do
  let (h, len) ← adoptBuffer style exportName 1 raw
  let bytes ← lookAt fun memory => memory.readBytes h.ptr len
  match Utf8.decode bytes with
  | .ok text => return text
  | .error fault => Action.fail (.encoding exportName (.utf8 fault))

/-- Whether some characters are an optional minus sign and at least one digit. -/
def isDecimal (cs : List Char) : Bool :=
  let digits := if cs.head? = some '-' then cs.tail else cs
  !digits.isEmpty && digits.all Char.isDigit

/-- The first machine result. -/
def firstResult (exportName : String) (ret : ReturnKind) (raw : List CoreValue) :
    Except BindError CoreValue :=
  match raw with
  | first :: _ => .ok first
  | [] => .error (.encoding exportName (.noResult ret))

/-- The host value of the machine results of an export. -/
def decodeResult (style : AccessStyle) (exportName : String) (ret : ReturnKind)
    (raw : List CoreValue) : Action Instance Value :=
  match ret with
  | .unit => return .unit
  | .scalar kind => do
    let first ← Action.ofExcept (firstResult exportName ret raw)
    let s ← Action.ofExcept (Scalar.lift exportName kind first)
    return s.toValue
  | .vec kind => do
    let first ← Action.ofExcept (firstResult exportName ret raw)
    let items ← takeElements style exportName kind first
    return .array items
  | .str => do
    let first ← Action.ofExcept (firstResult exportName ret raw)
    let text ← takeText style exportName first
    return .str text
  | .bigDecimal => do
    let first ← Action.ofExcept (firstResult exportName ret raw)
    let text ← takeText style exportName first
    if isDecimal text.toList then return .bigDecimal text
    else Action.fail (.encoding exportName (.noDecimal text))

end GuestCall
