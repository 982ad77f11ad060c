/-
# Two ways into one memory

The two access styles go into a memory in different ways: the native one hands the bytes of a scalar to
the access for bytes, the other one checks the range of the scalar and then puts its bytes in place.
Both check the same range, and both write and read the same bytes, so no sequence of accesses can tell
them apart.

Key definitions: `MemoryOp`, an access, and `Memory.session`, accesses one after the other.
Key theorems: `readElement_style`, `writeScalar_style`, `session_style`.
-/
import GuestCall.Proofs.Memory.Access

namespace GuestCall

/-- An access to a memory. -/
inductive MemoryOp where
  | read (offset length : UInt32)
  | write (offset : UInt32) (source : ByteArray)
  | get (offset : UInt32) (kind : ScalarKind)
  | put (offset : UInt32) (s : Scalar)
  | ensure (bytes : Nat)

/-- What an access that succeeds says. -/
inductive MemoryAnswer where
  | bytes (contents : ByteArray)
  | scalar (s : Scalar)
  | done
  /-- Whether the memory had to grow. -/
  | grew (did : Bool)

namespace Memory

/-- An access, with a limit of pages for growth. -/
def access (style : AccessStyle) (limit : UInt32) (m : Memory) :
    MemoryOp → Except BindError MemoryAnswer × Memory
  | .read offset length => ((m.readBytes offset length).map .bytes, m)
  | .write offset source =>
    match m.writeBytes offset source with
    | (result, m) => (result.map fun _ => .done, m)
  | .get offset kind => ((m.readScalar style offset kind).map .scalar, m)
  | .put offset s =>
    match m.writeScalar style offset s with
    | (result, m) => (result.map fun _ => .done, m)
  | .ensure bytes =>
    match m.ensure limit bytes with
    | (result, m) => (result.map .grew, m)

/-- Accesses one after the other: their answers, and the memory after them. -/
def session (style : AccessStyle) (limit : UInt32) :
    List MemoryOp → Memory → List (Except BindError MemoryAnswer) × Memory
  | [], m => ([], m)
  | op :: rest, m =>
    match m.access style limit op with
    | (answer, m) =>
      match session style limit rest m with
      | (answers, m) => (answer :: answers, m)

theorem readElement_style (style : AccessStyle) (m : Memory) (offset : UInt32) (kind : ScalarKind) :
    m.readElement style offset kind = m.readElement .littleEndian offset kind := by
  simp only [readElement, AccessStyle.decode_eq]

/-- The native style checks as many bytes as it writes, the other one as many as the kind is wide. -/
theorem writeScalar_style (style : AccessStyle) (m : Memory) (offset : UInt32) (s : Scalar) :
    m.writeScalar style offset s = m.writeScalar .littleEndian offset s := by
  cases style with
  | littleEndian => rfl
  | native =>
    have hsize : (AccessStyle.native.encode s).toByteArray.size = s.kind.width :=
      List.size_toByteArray.trans (AccessStyle.length_encode _ s)
    have hbytes : AccessStyle.native.encode s = AccessStyle.littleEndian.encode s :=
      AccessStyle.encode_eq _ s
    unfold writeScalar writeBytes
    dsimp only
    rw [hsize, hbytes]

theorem readElementsFrom_style (style : AccessStyle) (m : Memory) {kind : ScalarKind} :
    ∀ (count : Nat) (offset : UInt32) (done : List kind.Element),
    m.readElementsFrom style kind count offset done =
      m.readElementsFrom .littleEndian kind count offset done
  | 0, _, _ => rfl
  | count + 1, offset, done => by
    rw [readElementsFrom, readElementsFrom, readElement_style]
    split
    · exact readElementsFrom_style style m count _ _
    · rfl

theorem readElements_style (style : AccessStyle) (m : Memory) (kind : ScalarKind) (count : Nat)
    (offset : UInt32) :
    m.readElements style kind count offset = m.readElements .littleEndian kind count offset :=
  readElementsFrom_style style m count offset []

theorem writeScalars_style (style : AccessStyle) : ∀ (items : List Scalar) (m : Memory)
    (offset : UInt32), m.writeScalars style offset items = m.writeScalars .littleEndian offset items
  | [], _, _ => rfl
  | s :: rest, m, offset => by
    rw [writeScalars, writeScalars, writeScalar_style]
    split
    · exact writeScalars_style style rest _ _
    · rfl

theorem access_style (style : AccessStyle) (limit : UInt32) (m : Memory) (op : MemoryOp) :
    m.access style limit op = m.access .littleEndian limit op := by
  cases op with
  | read | write | ensure => rfl
  | get offset kind => simp only [access, readScalar, readElement_style style m offset kind]
  | put offset s => simp only [access, writeScalar_style style m offset s]

/-- **Both styles are one**: whatever is accessed, and in whatever order, the answers are the same, and
so is the memory afterwards. -/
theorem session_style (style : AccessStyle) (limit : UInt32) : ∀ (ops : List MemoryOp) (m : Memory),
    session style limit ops m = session .littleEndian limit ops m
  | [], _ => rfl
  | op :: rest, m => by
    rw [session, session, access_style]
    dsimp only
    rw [session_style style limit rest]

end Memory

end GuestCall
