/-
# Words and their bytes

A word is the number of its bytes in base 256, however it is put together: by sums in the order of
the host, or by shifts and unions byte by byte. So both styles write and read the same scalars, and
the bytes of a word are read back as that word. The other way around they are those of the word
that they are read as, except that all truth values but zero become one.

Key definition: `ScalarKind.restored`.
Key theorems: `toNat_get16`, `toNat_get32`, `toNat_get64`, `LittleEndian.decode_encode`,
`LittleEndian.encode_decode`, and `AccessStyle.encode_eq` and `AccessStyle.decode_eq`, the two styles
against each other.
-/
import GuestCall.Scalar.Layout
import Mathlib.Data.Nat.Bitwise

namespace GuestCall

/-- A number above the bits of another one. -/
theorem lor_mul_pow {a k : Nat} (b : Nat) (h : a < 2 ^ k) : a ||| b * 2 ^ k = a + b * 2 ^ k := by
  rw [Nat.or_comm, Nat.mul_comm, ← Nat.two_pow_add_eq_or_of_lt h, Nat.add_comm]

theorem add_mul_pow_lt {a b k : Nat} (h : a < 2 ^ k) (hb : b < 2 ^ 8) :
    a + b * 2 ^ k < 2 ^ (k + 8) := calc
  a + b * 2 ^ k < (b + 1) * 2 ^ k := by rw [Nat.succ_mul]; omega
  _ ≤ 2 ^ 8 * 2 ^ k := Nat.mul_le_mul_right _ hb
  _ = 2 ^ (k + 8) := by rw [Nat.mul_comm, Nat.pow_add]

theorem ofByteDigits_cons (b : UInt8) (bytes : List UInt8) :
    ofByteDigits (b :: bytes) = b.toNat + 256 * ofByteDigits bytes := rfl

/-- The digits of a number that fits give it back. -/
theorem ofByteDigits_byteDigits : ∀ {width n : Nat}, n < 256 ^ width →
    ofByteDigits (byteDigits width n) = n
  | 0, n, h => by
    have h : n < 1 := h
    rw [Nat.lt_one_iff.mp h]
    rfl
  | width + 1, n, h => by
    have hdiv : n / 256 < 256 ^ width := (Nat.div_lt_iff_lt_mul (by omega)).2 h
    have hmod : n.toUInt8.toNat = n % 256 := UInt8.toNat_ofNat'
    rw [byteDigits, ofByteDigits_cons, ofByteDigits_byteDigits hdiv, hmod]
    omega

/-- The number of some digits gives them back. -/
theorem byteDigits_ofByteDigits : ∀ bytes : List UInt8, byteDigits bytes.length (ofByteDigits bytes) = bytes
  | [] => rfl
  | b :: bytes => by
    have hb := b.toNat_lt
    have hdiv : (b.toNat + 256 * ofByteDigits bytes) / 256 = ofByteDigits bytes := by omega
    have hmod : (b.toNat + 256 * ofByteDigits bytes).toUInt8 = b := by
      rw [← UInt8.toNat_inj, Nat.toUInt8_eq, UInt8.toNat_ofNat']
      omega
    rw [List.length_cons, ofByteDigits_cons, byteDigits, hdiv, hmod, byteDigits_ofByteDigits bytes]

/-- What becomes of a byte of an element that is read and written back: of all truth values only one is
true. -/
def ScalarKind.restored : ScalarKind → UInt8 → UInt8
  | .bool, b => if b = 0 then 0 else 1
  | _, b => b

theorem ScalarKind.restored_of_ne {kind : ScalarKind} (h : kind ≠ .bool) (b : UInt8) :
    kind.restored b = b := by
  cases kind with
  | bool => exact absurd rfl h
  | u8 | i8 | u16 | i16 | u32 | i32 | i64 | f32 | f64 => rfl

namespace LittleEndian

theorem put16_eq (v : UInt16) : put16 v = byteDigits 2 v.toNat := by
  simp only [put16, byteDigits, List.cons.injEq, and_true, ← UInt8.toNat_inj]
  simp [Nat.shiftRight_eq_div_pow]

theorem put32_eq (v : UInt32) : put32 v = byteDigits 4 v.toNat := by
  simp only [put32, byteDigits, List.cons.injEq, and_true, ← UInt8.toNat_inj]
  simp [Nat.shiftRight_eq_div_pow, Nat.div_div_eq_div_mul]

theorem put64_eq (v : UInt64) : put64 v = byteDigits 8 v.toNat := by
  simp only [put64, byteDigits, List.cons.injEq, and_true, ← UInt8.toNat_inj]
  simp [Nat.shiftRight_eq_div_pow, Nat.div_div_eq_div_mul]

/-- One more byte above the bits of a word, and how many bits there are then. -/
theorem or_byte32 {a : UInt32} {n k : Nat} (b : UInt8) (h : a.toNat = n ∧ n < 2 ^ k)
    (hk : k ≤ 24) :
    (a ||| b.toUInt32 <<< k.toUInt32).toNat = n + b.toNat * 2 ^ k ∧
      n + b.toNat * 2 ^ k < 2 ^ (k + 8) := by
  obtain ⟨rfl, h⟩ := h
  have hb : b.toNat * 2 ^ k < 2 ^ 32 := calc
    b.toNat * 2 ^ k ≤ b.toNat * 2 ^ 24 :=
      Nat.mul_le_mul_left _ (Nat.pow_le_pow_right (by omega) hk)
    _ < 2 ^ 32 := by have := b.toNat_lt; omega
  constructor
  · rw [UInt32.toNat_or, UInt32.toNat_shiftLeft, UInt8.toNat_toUInt32, Nat.shiftLeft_eq,
      show k.toUInt32.toNat = k from UInt32.toNat_ofNat_of_lt' (by unfold UInt32.size; omega),
      Nat.mod_eq_of_lt (show k < 32 by omega), Nat.mod_eq_of_lt hb, lor_mul_pow _ h]
  · exact add_mul_pow_lt h b.toNat_lt

@[inherit_doc or_byte32]
theorem or_byte64 {a : UInt64} {n k : Nat} (b : UInt8) (h : a.toNat = n ∧ n < 2 ^ k)
    (hk : k ≤ 56) :
    (a ||| b.toUInt64 <<< k.toUInt64).toNat = n + b.toNat * 2 ^ k ∧
      n + b.toNat * 2 ^ k < 2 ^ (k + 8) := by
  obtain ⟨rfl, h⟩ := h
  have hb : b.toNat * 2 ^ k < 2 ^ 64 := calc
    b.toNat * 2 ^ k ≤ b.toNat * 2 ^ 56 :=
      Nat.mul_le_mul_left _ (Nat.pow_le_pow_right (by omega) hk)
    _ < 2 ^ 64 := by have := b.toNat_lt; omega
  constructor
  · rw [UInt64.toNat_or, UInt64.toNat_shiftLeft, UInt8.toNat_toUInt64, Nat.shiftLeft_eq,
      show k.toUInt64.toNat = k from UInt64.toNat_ofNat_of_lt' (by unfold UInt64.size; omega),
      Nat.mod_eq_of_lt (show k < 64 by omega), Nat.mod_eq_of_lt hb, lor_mul_pow _ h]
  · exact add_mul_pow_lt h b.toNat_lt

/-- The number of two bytes. -/
theorem toNat_get16 (byte : Nat → UInt8) :
    (get16 byte).toNat = ofByteDigits ((List.range 2).map byte) := by
  have h0 := (byte 0).toNat_lt
  have h1 := (byte 1).toNat_lt
  have hshift : ((byte 1).toUInt16 <<< 8).toNat = (byte 1).toNat * 2 ^ 8 := by
    rw [UInt16.toNat_shiftLeft, UInt8.toNat_toUInt16, Nat.shiftLeft_eq,
      show (8 : UInt16).toNat % 16 = 8 from rfl, Nat.mod_eq_of_lt (by omega)]
  rw [get16, UInt16.toNat_or, UInt8.toNat_toUInt16, hshift, lor_mul_pow _ h0]
  simp only [List.range, List.range.loop, List.map, ofByteDigits, List.foldr]
  omega

/-- The number of four bytes. -/
theorem toNat_get32 (byte : Nat → UInt8) :
    (get32 byte).toNat = ofByteDigits ((List.range 4).map byte) := by
  have h0 : (byte 0).toUInt32.toNat = (byte 0).toNat ∧ (byte 0).toNat < 2 ^ 8 :=
    ⟨UInt8.toNat_toUInt32 _, (byte 0).toNat_lt⟩
  have h1 := or_byte32 (byte 1) h0 (by omega)
  have h2 := or_byte32 (byte 2) h1 (by omega)
  have h3 := or_byte32 (byte 3) h2 (by omega)
  refine h3.1.trans ?_
  simp only [List.range, List.range.loop, List.map, ofByteDigits, List.foldr]
  omega

/-- The number of eight bytes. -/
theorem toNat_get64 (byte : Nat → UInt8) :
    (get64 byte).toNat = ofByteDigits ((List.range 8).map byte) := by
  have h0 : (byte 0).toUInt64.toNat = (byte 0).toNat ∧ (byte 0).toNat < 2 ^ 8 :=
    ⟨UInt8.toNat_toUInt64 _, (byte 0).toNat_lt⟩
  have h1 := or_byte64 (byte 1) h0 (by omega)
  have h2 := or_byte64 (byte 2) h1 (by omega)
  have h3 := or_byte64 (byte 3) h2 (by omega)
  have h4 := or_byte64 (byte 4) h3 (by omega)
  have h5 := or_byte64 (byte 5) h4 (by omega)
  have h6 := or_byte64 (byte 6) h5 (by omega)
  have h7 := or_byte64 (byte 7) h6 (by omega)
  refine h7.1.trans ?_
  simp only [List.range, List.range.loop, List.map, ofByteDigits, List.foldr]
  omega

/-- The bytes of a word are read back. -/
theorem get32_put32 (v : UInt32) {byte : Nat → UInt8} (h : (List.range 4).map byte = put32 v) :
    get32 byte = v := by
  rw [← UInt32.toNat_inj, toNat_get32, h, put32_eq]
  exact ofByteDigits_byteDigits v.toNat_lt

@[inherit_doc get32_put32]
theorem get64_put64 (v : UInt64) {byte : Nat → UInt8} (h : (List.range 8).map byte = put64 v) :
    get64 byte = v := by
  rw [← UInt64.toNat_inj, toNat_get64, h, put64_eq]
  exact ofByteDigits_byteDigits v.toNat_lt

@[inherit_doc get32_put32]
theorem get16_put16 (v : UInt16) {byte : Nat → UInt8} (h : (List.range 2).map byte = put16 v) :
    get16 byte = v := by
  rw [← UInt16.toNat_inj, toNat_get16, h, put16_eq]
  exact ofByteDigits_byteDigits v.toNat_lt

/-- **What was encoded is decoded**, whatever the kind. -/
theorem decode_encode : ∀ {kind : ScalarKind} (v : kind.Element) {byte : Nat → UInt8},
    (List.range kind.width).map byte = encode (.of kind v) → decode kind byte = v := by
  intro kind v byte h
  have hfirst : ∀ {b : UInt8}, (List.range 1).map byte = [b] → byte 0 = b := fun h => by
    simpa [List.range, List.range.loop] using h
  cases kind with
  | bool =>
    change (byte 0 != 0) = v
    rw [hfirst h]
    cases v <;> rfl
  | u8 => exact hfirst h
  | i8 =>
    change (byte 0).toInt8 = v
    rw [hfirst h, UInt8.toInt8]
  | u16 => exact get16_put16 v h
  | i16 => exact congrArg UInt16.toInt16 (get16_put16 v.toUInt16 h)
  | u32 => exact get32_put32 v h
  | i32 => exact congrArg UInt32.toInt32 (get32_put32 v.toUInt32 h)
  | i64 => exact congrArg UInt64.toInt64 (get64_put64 v.toUInt64 h)
  | f32 => exact congrArg Binary32.mk (get32_put32 v.bits h)
  | f64 => exact congrArg Binary64.mk (get64_put64 v.bits h)

/-- The word of some bytes gives them back. -/
theorem put32_get32 (byte : Nat → UInt8) : put32 (get32 byte) = (List.range 4).map byte := by
  rw [put32_eq, toNat_get32]
  exact byteDigits_ofByteDigits ((List.range 4).map byte)

@[inherit_doc put32_get32]
theorem put64_get64 (byte : Nat → UInt8) : put64 (get64 byte) = (List.range 8).map byte := by
  rw [put64_eq, toNat_get64]
  exact byteDigits_ofByteDigits ((List.range 8).map byte)

@[inherit_doc put32_get32]
theorem put16_get16 (byte : Nat → UInt8) : put16 (get16 byte) = (List.range 2).map byte := by
  rw [put16_eq, toNat_get16]
  exact byteDigits_ofByteDigits ((List.range 2).map byte)

/-- **What was decoded is encoded again**, whatever the kind. -/
theorem encode_decode (kind : ScalarKind) (byte : Nat → UInt8) :
    encode (.of kind (decode kind byte)) = (List.range kind.width).map fun i => kind.restored (byte i) := by
  cases kind with
  | bool =>
    change [if (byte 0 != 0) = true then (1 : UInt8) else 0] = [if byte 0 = 0 then 0 else 1]
    by_cases h : byte 0 = 0 <;> simp [h]
  | u8 => rfl
  | i8 => rfl
  | u16 => exact put16_get16 byte
  | i16 => exact put16_get16 byte
  | u32 => exact put32_get32 byte
  | i32 => exact put32_get32 byte
  | i64 => exact put64_get64 byte
  | f32 => exact put32_get32 byte
  | f64 => exact put64_get64 byte

end LittleEndian

namespace AccessStyle

/-- **Both styles write the same bytes**, on hosts whose order is the one of guest memory. -/
theorem encode_eq (style : AccessStyle) (s : Scalar) : style.encode s = LittleEndian.encode s := by
  cases style with
  | littleEndian => rfl
  | native =>
    change byteDigits s.kind.width s.pattern = _
    cases s with
    | bool v => cases v <;> rfl
    | u8 v | i8 v => simp [Scalar.kind, ScalarKind.width, Scalar.pattern, byteDigits, LittleEndian.encode]
    | u16 v | i16 v => exact (LittleEndian.put16_eq _).symm
    | u32 v | i32 v | f32 v => exact (LittleEndian.put32_eq _).symm
    | i64 v | f64 v => exact (LittleEndian.put64_eq _).symm

/-- **Both styles read the same payload.** -/
theorem decode_eq (style : AccessStyle) (kind : ScalarKind) (byte : Nat → UInt8) :
    style.decode kind byte = LittleEndian.decode kind byte := by
  cases style with
  | littleEndian => rfl
  | native =>
    change kind.ofPattern (ofByteDigits ((List.range kind.width).map byte)) = _
    have h8 : ofByteDigits ((List.range 1).map byte) = (byte 0).toNat := by
      simp [List.range, List.range.loop, ofByteDigits]
    have h16 : (ofByteDigits ((List.range 2).map byte)).toUInt16 = LittleEndian.get16 byte := by
      rw [← LittleEndian.toNat_get16, Nat.toUInt16_eq, UInt16.ofNat_toNat]
    have h32 : (ofByteDigits ((List.range 4).map byte)).toUInt32 = LittleEndian.get32 byte := by
      rw [← LittleEndian.toNat_get32, Nat.toUInt32_eq, UInt32.ofNat_toNat]
    have h64 : (ofByteDigits ((List.range 8).map byte)).toUInt64 = LittleEndian.get64 byte := by
      rw [← LittleEndian.toNat_get64, Nat.toUInt64_eq, UInt64.ofNat_toNat]
    cases kind with
    | bool =>
      change (ofByteDigits ((List.range 1).map byte) != 0) = (byte 0 != 0)
      rw [h8, Bool.eq_iff_iff, bne_iff_ne, bne_iff_ne, Ne, Ne, ← UInt8.toNat_inj, UInt8.toNat_zero]
    | u8 =>
      change (ofByteDigits ((List.range 1).map byte)).toUInt8 = byte 0
      rw [h8, Nat.toUInt8_eq, UInt8.ofNat_toNat]
    | i8 =>
      change (ofByteDigits ((List.range 1).map byte)).toUInt8.toInt8 = (byte 0).toInt8
      rw [h8, Nat.toUInt8_eq, UInt8.ofNat_toNat]
    | u16 => exact h16
    | i16 => exact congrArg UInt16.toInt16 h16
    | u32 => exact h32
    | i32 => exact congrArg UInt32.toInt32 h32
    | i64 => exact congrArg UInt64.toInt64 h64
    | f32 => exact congrArg Binary32.mk h32
    | f64 => exact congrArg Binary64.mk h64

/-- A payload depends on as many bytes as its kind is wide, and on no others. -/
theorem decode_congr (style : AccessStyle) {kind : ScalarKind} {byte byte' : Nat → UInt8}
    (h : ∀ i < kind.width, byte' i = byte i) : style.decode kind byte' = style.decode kind byte := by
  have hbytes : (List.range kind.width).map byte' = (List.range kind.width).map byte :=
    List.map_congr_left fun i hi => h i (List.mem_range.mp hi)
  rw [style.decode_eq, style.decode_eq, ← native.decode_eq, ← native.decode_eq, decode, decode, hbytes]

end AccessStyle

end GuestCall
