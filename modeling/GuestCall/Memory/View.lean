/-
# Views of a memory

How the host reads and writes a memory. Every access names a range, and one that does not lie
inside the memory fails and changes nothing. The two access styles check and compose on their own:
the native one hands the bytes of a scalar to the access for bytes, the other one checks the range
of the scalar and then puts its bytes in place.

Key definitions:
* `Memory.range`, the check of a range;
* `Memory.readBytes` and `Memory.writeBytes`, `Memory.readElement` and `Memory.writeScalar`;
* `Memory.readElements` and `Memory.writeScalars`, one after the other;
* `Memory.ensure`, growth up to a number of bytes.
-/
import GuestCall.Error

namespace GuestCall.Memory

/-- Whether a range lies inside the memory. -/
def range (m : Memory) (offset : UInt32) (length : Nat) : Except BindError Unit :=
  if offset.toNat + length ≤ m.size then .ok ()
  else .error (.outOfBounds offset.toNat length m.size)

/-- The bytes of a range. -/
def readBytes (m : Memory) (offset length : UInt32) : Except BindError ByteArray :=
  match m.range offset length.toNat with
  | .ok _ => .ok (m.slice offset.toNat length.toNat)
  | .error e => .error e

/-- The memory with some bytes in place. -/
def writeBytes (m : Memory) (offset : UInt32) (source : ByteArray) :
    Except BindError Unit × Memory :=
  match m.range offset source.size with
  | .ok _ => (.ok (), m.write offset.toNat source)
  | .error e => (.error e, m)

/-- The payload of a kind at an address. -/
def readElement (style : AccessStyle) (m : Memory) (offset : UInt32) (kind : ScalarKind) :
    Except BindError kind.Element :=
  match m.range offset kind.width with
  | .ok _ => .ok (style.decode kind fun i => m.byteAt (offset.toNat + i))
  | .error e => .error e

/-- The scalar of a kind at an address. -/
def readScalar (style : AccessStyle) (m : Memory) (offset : UInt32) (kind : ScalarKind) :
    Except BindError Scalar :=
  (m.readElement style offset kind).map (Scalar.of kind)

/-- The memory with a scalar in place. -/
def writeScalar (style : AccessStyle) (m : Memory) (offset : UInt32) (s : Scalar) :
    Except BindError Unit × Memory :=
  match style with
  | .native => m.writeBytes offset (AccessStyle.native.encode s).toByteArray
  | .littleEndian =>
    match m.range offset s.kind.width with
    | .ok _ => (.ok (), m.write offset.toNat (AccessStyle.littleEndian.encode s).toByteArray)
    | .error e => (.error e, m)

/-- The payloads of so many elements from an address on, behind those read before, last one first;
the error, if there is one, stopped the reading. -/
def readElementsFrom (style : AccessStyle) (m : Memory) (kind : ScalarKind) :
    Nat → UInt32 → List kind.Element → List kind.Element × Option BindError
  | 0, _, done => (done.reverse, none)
  | count + 1, offset, done =>
    match m.readElement style offset kind with
    | .ok v => m.readElementsFrom style kind count (offset + kind.width.toUInt32) (v :: done)
    | .error e => (done.reverse, some e)

/-- The payloads of so many elements from an address on, up to the error that stopped the
reading. -/
def readElements (style : AccessStyle) (m : Memory) (kind : ScalarKind) (count : Nat)
    (offset : UInt32) : List kind.Element × Option BindError :=
  m.readElementsFrom style kind count offset []

/-- The memory with scalars in place one after the other, up to the first that does not fit. -/
def writeScalars (style : AccessStyle) (m : Memory) (offset : UInt32) :
    List Scalar → Except BindError Unit × Memory
  | [] => (.ok (), m)
  | s :: rest =>
    match m.writeScalar style offset s with
    | (.ok _, m) => m.writeScalars style (offset + s.kind.width.toUInt32) rest
    | (.error e, m) => (.error e, m)

/-- The memory grown by whole pages until it has at least some bytes, and whether it had to grow.
The host does not let it have more pages than `limit`. -/
def ensure (m : Memory) (limit : UInt32) (bytes : Nat) : Except BindError Bool × Memory :=
  if bytes ≤ m.size then (.ok false, m)
  else
    let shortfall := bytes - m.size
    let wanted := (bytes + pageSize - 1) / pageSize
    if limit.toNat < wanted then
      (.error (.allocation (min shortfall 0xFFFFFFFF).toUInt32 (.pageLimit wanted limit.toNat)), m)
    else
      match m.grow? (wanted - m.pages) with
      | some grown => (.ok true, grown)
      | none => (.error (.allocation shortfall.toUInt32 .growthRefused), m)

end GuestCall.Memory
