/-
# Laws of accesses

An access names a range of bytes, anywhere among the addresses. If all of them are in the memory, it works; if
one is not, it fails with an error that says which range was named and how large the memory is, and nothing
changes. What was written is read back, as it was and as its bytes, and whoever reads other bytes gets the
answer from before. None of this depends on the access style, so what is written in one style may be read in the
other.

Key definitions: `MemoryOp.named?`, the range of an access, and `Memory.SameOutside`.
Key theorems: `access_inside`, `access_outside`, `sameOutside_write`, `reads_follow_writes`.
-/
import GuestCall.Proofs.Memory.Styles

namespace GuestCall

namespace MemoryOp

/-- The first byte and the number of the bytes that an access names. Making room names none. -/
def named? : MemoryOp → Option (Nat × Nat)
  | .read offset length => some (offset.toNat, length.toNat)
  | .write offset source => some (offset.toNat, source.size)
  | .get offset kind => some (offset.toNat, kind.width)
  | .put offset s => some (offset.toNat, s.kind.width)
  | .ensure _ => none

/-- An access that only looks. -/
def Looks : MemoryOp → Prop
  | .read _ _ | .get _ _ => True
  | .write _ _ | .put _ _ | .ensure _ => False

end MemoryOp

namespace Memory

variable {m m' : Memory} {style : AccessStyle} {limit : UInt32} {op : MemoryOp} {start count : Nat}

/-! ### Bounds -/

/-- **An access of bytes that are in the memory** works, and the memory keeps its size. -/
theorem access_inside (style : AccessStyle) (limit : UInt32) (hnamed : op.named? = some (start, count))
    (h : start + count ≤ m.size) :
    ∃ answer m', m.access style limit op = (.ok answer, m') ∧ m'.size = m.size := by
  cases op with
  | ensure bytes => cases hnamed
  | read offset length =>
    cases hnamed
    refine ⟨.bytes (m.slice offset.toNat length.toNat), m, ?_, rfl⟩
    rw [access, readBytes_eq_ok h]
    rfl
  | write offset source =>
    cases hnamed
    refine ⟨.done, m.write offset.toNat source, ?_, size_write ..⟩
    rw [access, writeBytes_eq_ok h]
    rfl
  | get offset kind =>
    cases hnamed
    refine ⟨.scalar (.of kind (style.decode kind fun i => m.byteAt (offset.toNat + i))), m, ?_, rfl⟩
    rw [access, readScalar, readElement_eq_ok style h]
    rfl
  | put offset s =>
    cases hnamed
    refine ⟨.done, m.write offset.toNat (style.encode s).toByteArray, ?_, size_write ..⟩
    rw [access, writeScalar_eq_ok style h]
    rfl

/-- **An access of bytes that are not all in the memory** is out of bounds, and nothing changes. -/
theorem access_outside (style : AccessStyle) (limit : UInt32) (hnamed : op.named? = some (start, count))
    (h : m.size < start + count) :
    m.access style limit op = (.error (.outOfBounds start count m.size), m) := by
  cases op with
  | ensure bytes => cases hnamed
  | read offset length =>
    cases hnamed
    rw [access, readBytes_eq_error h]
    rfl
  | write offset source =>
    cases hnamed
    rw [access, writeBytes, range_eq_error h]
    rfl
  | get offset kind =>
    cases hnamed
    rw [access, readScalar, readElement_eq_error style h]
    rfl
  | put offset s =>
    cases hnamed
    rw [access, writeScalar_style, writeScalar, range_eq_error h]
    rfl

/-! ### Reading what was written, and other bytes -/

/-- Looking depends on the size of the memory and on the bytes that are named. -/
theorem access_congr (hlooks : op.Looks) (hnamed : op.named? = some (start, count)) (hsize : m'.size = m.size)
    (hbytes : ∀ i, start ≤ i → i < start + count → m'.byteAt i = m.byteAt i) :
    (m'.access style limit op).1 = (m.access style limit op).1 := by
  by_cases h : start + count ≤ m.size
  · have h' : start + count ≤ m'.size := by rwa [hsize]
    cases op with
    | write | put | ensure => exact hlooks.elim
    | read offset length =>
      cases hnamed
      have hsame : m'.bytesAt length.toNat offset.toNat = m.bytesAt length.toNat offset.toNat :=
        List.map_congr_left fun i hi =>
          hbytes _ (Nat.le_add_right _ _) (Nat.add_lt_add_left (List.mem_range.mp hi) _)
      rw [access, access, readBytes_eq_ok h, readBytes_eq_ok h', slice_eq h, slice_eq h', hsame]
    | get offset kind =>
      cases hnamed
      have hsame : style.decode kind (fun i => m'.byteAt (offset.toNat + i)) =
          style.decode kind fun i => m.byteAt (offset.toNat + i) :=
        style.decode_congr fun i hi => hbytes _ (Nat.le_add_right _ _) (Nat.add_lt_add_left hi _)
      rw [access, access, readScalar, readScalar, readElement_eq_ok style h, readElement_eq_ok style h', hsame]
  · rw [access_outside style limit hnamed (Nat.lt_of_not_le h),
      access_outside style limit hnamed (by rwa [hsize, ← Nat.not_le]), hsize]

/-- Whoever names no byte of a range cannot tell one memory from the other. -/
def SameOutside (start count : Nat) (m m' : Memory) : Prop :=
  ∀ (style : AccessStyle) (limit : UInt32) (op : MemoryOp) (place length : Nat), op.Looks →
    op.named? = some (place, length) →
    (∀ i, ¬ ((start ≤ i ∧ i < start + count) ∧ place ≤ i ∧ i < place + length)) →
    (m'.access style limit op).1 = (m.access style limit op).1

theorem sameOutside_write {source : ByteArray} (h : start + source.size ≤ m.size) :
    SameOutside start source.size m (m.write start source) := by
  intro style limit op place length hlooks hnamed hdisjoint
  refine access_congr hlooks hnamed (size_write ..) fun i hplace hi => ?_
  rw [byteAt_write h, if_neg fun hinside => hdisjoint i ⟨hinside, hplace, hi⟩]

/-- What an access of bytes wrote is what a slice takes from there. -/
theorem slice_write {source : ByteArray} (h : start + source.size ≤ m.size) :
    (m.write start source).slice start source.size = source := by
  obtain ⟨bytes, rfl⟩ : ∃ bytes : List UInt8, source = bytes.toByteArray :=
    ⟨source.data.toList, ByteArray.ext (by rw [List.data_toByteArray, Array.toArray_toList])⟩
  rw [List.size_toByteArray] at h ⊢
  exact (holds_write h).slice

/-- The bytes of a scalar are the digits of its bits in base 256, least significant first. -/
theorem encode_eq_digits (style : AccessStyle) (s : Scalar) :
    style.encode s = byteDigits s.kind.width s.pattern :=
  (style.encode_eq s).trans (AccessStyle.native.encode_eq s).symm

/-- **A scalar that was written** is read, in either style, and its bytes are its digits. -/
theorem read_scalar_written (encoding decoding : AccessStyle) {offset : UInt32} {s : Scalar}
    (h : offset.toNat + s.kind.width ≤ m.size) :
    let m' := m.write offset.toNat (encoding.encode s).toByteArray
    m'.readScalar decoding offset s.kind = .ok s ∧ m'.readBytes offset s.kind.width.toUInt32 =
      .ok (byteDigits s.kind.width s.pattern).toByteArray := by
  intro m'
  have hlength : (encoding.encode s).length = s.kind.width := encoding.length_encode s
  have hwidth : s.kind.width.toUInt32.toNat = s.kind.width :=
    UInt32.toNat_ofNat_of_lt' (Nat.lt_of_le_of_lt s.kind.width_le (by decide))
  have hinside : offset.toNat + s.kind.width ≤ m'.size := by rwa [size_write]
  have hholds : m'.Holds offset.toNat (encoding.encode s) := holds_write (by rwa [hlength])
  constructor
  · have hbytes := hholds.bytes
    rw [hlength, encoding.encode_eq] at hbytes
    have helement : decoding.decode s.kind (fun i => m'.byteAt (offset.toNat + i)) = s.element := by
      rw [decoding.decode_eq]
      exact LittleEndian.decode_encode s.element (by rwa [Scalar.of_element])
    rw [readScalar, readElement_eq_ok decoding hinside, helement]
    exact congrArg Except.ok s.of_element
  · have hslice := hholds.slice
    rw [hlength] at hslice
    rw [readBytes_eq_ok (by rwa [hwidth]), hwidth, hslice, encode_eq_digits]

/-- **Accesses obey the laws of a memory**, at every address and in a memory of any size. Those that name bytes
work just if all of these are in the memory, and are out of bounds otherwise, which changes nothing. A scalar
that was written is read back bit for bit, in either style, as well as byte by byte, least significant first;
bytes that were written are read back; and everyone who reads other bytes gets the answer from before. -/
theorem reads_follow_writes (encoding : AccessStyle) (limit : UInt32) (m : Memory) :
    (∀ (op : MemoryOp) (start count : Nat), op.named? = some (start, count) →
      (start + count ≤ m.size → ∃ answer m', m.access encoding limit op = (.ok answer, m') ∧ m'.size = m.size) ∧
      (m.size < start + count →
        m.access encoding limit op = (.error (.outOfBounds start count m.size), m))) ∧
    (∀ offset s m', m.writeScalar encoding offset s = (.ok (), m') →
      (∀ decoding, m'.readScalar decoding offset s.kind = .ok s) ∧
      m'.readBytes offset s.kind.width.toUInt32 = .ok (byteDigits s.kind.width s.pattern).toByteArray ∧
      SameOutside offset.toNat s.kind.width m m') ∧
    ∀ offset source m', m.writeBytes offset source = (.ok (), m') →
      (∀ length : UInt32, length.toNat = source.size → m'.readBytes offset length = .ok source) ∧
      SameOutside offset.toNat source.size m m' := by
  refine ⟨fun op start count hnamed => ?_, fun offset s m' hwrite => ?_, fun offset source m' hwrite => ?_⟩
  · exact ⟨access_inside encoding limit hnamed, access_outside encoding limit hnamed⟩
  · have hfits : offset.toNat + s.kind.width ≤ m.size := by
      by_contra hbeyond
      rw [writeScalar_style, writeScalar, range_eq_error (Nat.lt_of_not_le hbeyond)] at hwrite
      cases hwrite
    have hsize : (encoding.encode s).toByteArray.size = s.kind.width :=
      List.size_toByteArray.trans (encoding.length_encode s)
    obtain rfl : m.write offset.toNat (encoding.encode s).toByteArray = m' :=
      congrArg Prod.snd ((writeScalar_eq_ok encoding hfits).symm.trans hwrite)
    have hinside : offset.toNat + (encoding.encode s).toByteArray.size ≤ m.size := by rwa [hsize]
    have hsame := sameOutside_write hinside
    rw [hsize] at hsame
    exact ⟨fun decoding => (read_scalar_written encoding decoding hfits).1,
      (read_scalar_written encoding encoding hfits).2, hsame⟩
  · have hfits : offset.toNat + source.size ≤ m.size := by
      by_contra hbeyond
      rw [writeBytes, range_eq_error (Nat.lt_of_not_le hbeyond)] at hwrite
      cases hwrite
    obtain rfl : m.write offset.toNat source = m' :=
      congrArg Prod.snd ((writeBytes_eq_ok hfits).symm.trans hwrite)
    refine ⟨fun length hlength => ?_, sameOutside_write hfits⟩
    rw [readBytes_eq_ok (by rwa [size_write, hlength]), hlength, slice_write hfits]

/-- A number is written at an odd address, in front of the last three bytes of a page, which stay as they were. It
has no room four bytes further on, and three bytes have room at the end. -/
theorem minus_two_is_read_back : ∃ m' m'' : Memory, (zeroed 1 none).size = 65536 ∧
    (zeroed 1 none).writeScalar .native 65525 (.i64 (-2)) = (.ok (), m') ∧
    m'.readScalar .littleEndian 65525 .i64 = .ok (.i64 (-2)) ∧
    m'.readBytes 65525 8 = .ok [0xFE, 0xFF, 0xFF, 0xFF, 0xFF, 0xFF, 0xFF, 0xFF].toByteArray ∧
    (m'.access .littleEndian 1 (.read 65533 3)).1 = ((zeroed 1 none).access .littleEndian 1 (.read 65533 3)).1 ∧
    (zeroed 1 none).access .native 1 (.put 65529 (.i64 (-2))) =
      (.error (.outOfBounds 65529 8 65536), zeroed 1 none) ∧
    (zeroed 1 none).writeBytes 65533 [1, 2, 3].toByteArray = (.ok (), m'') ∧
    m''.readBytes 65533 3 = .ok [1, 2, 3].toByteArray := by
  have hsize : (zeroed 1 none).size = 65536 := size_zeroed 1 none
  obtain ⟨hbounds, hscalar, hbytes⟩ := reads_follow_writes .native 1 (zeroed 1 none)
  have hwrite : (zeroed 1 none).writeScalar .native 65525 (.i64 (-2)) = (.ok (), _) :=
    writeScalar_eq_ok .native (by rw [hsize]; decide)
  have hwrite' : (zeroed 1 none).writeBytes 65533 [1, 2, 3].toByteArray = (.ok (), _) :=
    writeBytes_eq_ok (by rw [hsize]; decide)
  obtain ⟨hread, hdigits, hsame⟩ := hscalar _ _ _ hwrite
  have houtside := (hbounds (.put 65529 (.i64 (-2))) 65529 8 rfl).2 (by rw [hsize]; decide)
  rw [hsize] at houtside
  refine ⟨_, _, hsize, hwrite, hread .littleEndian, hdigits, ?_, houtside, hwrite', (hbytes _ _ _ hwrite').1 3 rfl⟩
  refine hsame .littleEndian 1 (.read 65533 3) 65533 3 trivial rfl fun i hi => ?_
  have hstop : i < 65525 + 8 := hi.1.2
  exact Nat.not_lt.mpr hi.2.1 hstop

end Memory

end GuestCall
