/-
# Scalars as bytes

How a scalar lies in linear memory. Guest memory is little-endian. There are two ways to compose a
scalar from its bytes: by the byte order of the host, which is right where that order is
little-endian, and explicitly byte by byte, which is right everywhere.

Key definitions:
* `ByteOrder`, with the digits of a number in either order, and `hostOrder`;
* `AccessStyle.encode` and `AccessStyle.decode`, the two ways.

Key theorem: `AccessStyle.length_encode`, a scalar takes as many bytes as its kind is wide.
-/
import GuestCall.Scalar.Basic

namespace GuestCall

/-- In which order the bytes of a number follow each other. -/
inductive ByteOrder where
  | little
  | big
  deriving DecidableEq

/-- The order of the hosts that this library runs on. -/
def hostOrder : ByteOrder := .little

/-- The digits of a number in base 256, least significant first. -/
def byteDigits : Nat → Nat → List UInt8
  | 0, _ => []
  | width + 1, n => n.toUInt8 :: byteDigits width (n / 256)

/-- The number of some digits in base 256, least significant first. -/
def ofByteDigits (bytes : List UInt8) : Nat := bytes.foldr (fun b n => b.toNat + 256 * n) 0

namespace ByteOrder

/-- A number as bytes. -/
def encode (order : ByteOrder) (width n : Nat) : List UInt8 :=
  match order with
  | .little => byteDigits width n
  | .big => (byteDigits width n).reverse

/-- The number of some bytes. -/
def decode (order : ByteOrder) (bytes : List UInt8) : Nat :=
  match order with
  | .little => ofByteDigits bytes
  | .big => ofByteDigits bytes.reverse

end ByteOrder

/-- The bits of a scalar, read as a number without a sign. -/
def Scalar.pattern : Scalar → Nat
  | .bool v => if v then 1 else 0
  | .u8 v => v.toNat
  | .i8 v => v.toUInt8.toNat
  | .u16 v => v.toNat
  | .i16 v => v.toUInt16.toNat
  | .u32 v => v.toNat
  | .i32 v => v.toUInt32.toNat
  | .i64 v => v.toUInt64.toNat
  | .f32 v => v.bits.toNat
  | .f64 v => v.bits.toNat

/-- The payload of some bits; every pattern but zero is true. -/
def ScalarKind.ofPattern : (kind : ScalarKind) → Nat → kind.Element
  | .bool, n => n != 0
  | .u8, n => n.toUInt8
  | .i8, n => n.toUInt8.toInt8
  | .u16, n => n.toUInt16
  | .i16, n => n.toUInt16.toInt16
  | .u32, n => n.toUInt32
  | .i32, n => n.toUInt32.toInt32
  | .i64, n => n.toUInt64.toInt64
  | .f32, n => ⟨n.toUInt32⟩
  | .f64, n => ⟨n.toUInt64⟩

namespace LittleEndian

/-- Two bytes of a word. -/
def put16 (v : UInt16) : List UInt8 := [v.toUInt8, (v >>> 8).toUInt8]

/-- Four bytes of a word. -/
def put32 (v : UInt32) : List UInt8 :=
  [v.toUInt8, (v >>> 8).toUInt8, (v >>> 16).toUInt8, (v >>> 24).toUInt8]

/-- Eight bytes of a word. -/
def put64 (v : UInt64) : List UInt8 :=
  [v.toUInt8, (v >>> 8).toUInt8, (v >>> 16).toUInt8, (v >>> 24).toUInt8,
    (v >>> 32).toUInt8, (v >>> 40).toUInt8, (v >>> 48).toUInt8, (v >>> 56).toUInt8]

/-- The word of two bytes. -/
def get16 (byte : Nat → UInt8) : UInt16 := (byte 0).toUInt16 ||| (byte 1).toUInt16 <<< 8

/-- The word of four bytes. -/
def get32 (byte : Nat → UInt8) : UInt32 :=
  (byte 0).toUInt32 ||| (byte 1).toUInt32 <<< 8 ||| (byte 2).toUInt32 <<< 16 |||
    (byte 3).toUInt32 <<< 24

/-- The word of eight bytes. -/
def get64 (byte : Nat → UInt8) : UInt64 :=
  (byte 0).toUInt64 ||| (byte 1).toUInt64 <<< 8 ||| (byte 2).toUInt64 <<< 16 |||
    (byte 3).toUInt64 <<< 24 ||| (byte 4).toUInt64 <<< 32 ||| (byte 5).toUInt64 <<< 40 |||
    (byte 6).toUInt64 <<< 48 ||| (byte 7).toUInt64 <<< 56

/-- The bytes of a scalar. -/
def encode : Scalar → List UInt8
  | .bool v => [if v then 1 else 0]
  | .u8 v => [v]
  | .i8 v => [v.toUInt8]
  | .u16 v => put16 v
  | .i16 v => put16 v.toUInt16
  | .u32 v => put32 v
  | .i32 v => put32 v.toUInt32
  | .i64 v => put64 v.toUInt64
  | .f32 v => put32 v.bits
  | .f64 v => put64 v.bits

/-- The payload of the bytes from a place on. -/
def decode : (kind : ScalarKind) → (Nat → UInt8) → kind.Element
  | .bool, byte => byte 0 != 0
  | .u8, byte => byte 0
  | .i8, byte => (byte 0).toInt8
  | .u16, byte => get16 byte
  | .i16, byte => (get16 byte).toInt16
  | .u32, byte => get32 byte
  | .i32, byte => (get32 byte).toInt32
  | .i64, byte => (get64 byte).toInt64
  | .f32, byte => ⟨get32 byte⟩
  | .f64, byte => ⟨get64 byte⟩

end LittleEndian

/-- How scalars are composed from bytes. -/
inductive AccessStyle where
  /-- In the byte order of the host. -/
  | native
  /-- Byte by byte, least significant first. -/
  | littleEndian
  deriving DecidableEq

namespace AccessStyle

/-- The bytes of a scalar. -/
def encode : AccessStyle → Scalar → List UInt8
  | .native, s => hostOrder.encode s.kind.width s.pattern
  | .littleEndian, s => LittleEndian.encode s

/-- The payload of the bytes that `byte` counts from zero. -/
def decode (style : AccessStyle) (kind : ScalarKind) (byte : Nat → UInt8) : kind.Element :=
  match style with
  | .native => kind.ofPattern (hostOrder.decode ((List.range kind.width).map byte))
  | .littleEndian => LittleEndian.decode kind byte

end AccessStyle

theorem length_byteDigits (width n : Nat) : (byteDigits width n).length = width := by
  induction width generalizing n with
  | zero => rfl
  | succ width ih => simp [byteDigits, ih]

/-- A scalar takes as many bytes as its kind is wide. -/
theorem AccessStyle.length_encode (style : AccessStyle) (s : Scalar) :
    (style.encode s).length = s.kind.width := by
  cases style with
  | native => exact length_byteDigits _ _
  | littleEndian => cases s <;> rfl

end GuestCall
