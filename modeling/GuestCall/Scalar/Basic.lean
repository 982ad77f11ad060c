/-
# Scalars

A scalar is one fixed-width element tagged with its kind. Integer scalars have a number, and a
number in the range of an integer kind has a scalar; a machine value is what a scalar becomes when
it is passed to a guest.

Key definitions:
* `Scalar`, and `ScalarKind.Element`, the payloads of one kind;
* `Scalar.toInt?` and `Scalar.ofInt?`, the numbers of integer scalars;
* `CoreValue`, a machine value as arguments and results carry it.

Key theorem: `Scalar.ofInt?_toInt?`, an integer scalar is determined by its kind and its number.
-/
import GuestCall.Scalar.Binary
import GuestCall.Scalar.Kind

namespace GuestCall

/-- The payloads of each kind. -/
abbrev ScalarKind.Element : ScalarKind → Type
  | .bool => Bool
  | .u8 => UInt8
  | .i8 => Int8
  | .u16 => UInt16
  | .i16 => Int16
  | .u32 => UInt32
  | .i32 => Int32
  | .i64 => Int64
  | .f32 => Binary32
  | .f64 => Binary64

/-- One element, tagged with its kind. -/
inductive Scalar where
  | bool (v : Bool)
  | u8 (v : UInt8)
  | i8 (v : Int8)
  | u16 (v : UInt16)
  | i16 (v : Int16)
  | u32 (v : UInt32)
  | i32 (v : Int32)
  | i64 (v : Int64)
  | f32 (v : Binary32)
  | f64 (v : Binary64)
  deriving DecidableEq

namespace Scalar

/-- The kind of a scalar. -/
def kind : Scalar → ScalarKind
  | .bool _ => .bool
  | .u8 _ => .u8
  | .i8 _ => .i8
  | .u16 _ => .u16
  | .i16 _ => .i16
  | .u32 _ => .u32
  | .i32 _ => .i32
  | .i64 _ => .i64
  | .f32 _ => .f32
  | .f64 _ => .f64

/-- The scalar with a given payload. -/
def of : (kind : ScalarKind) → kind.Element → Scalar
  | .bool, v => .bool v
  | .u8, v => .u8 v
  | .i8, v => .i8 v
  | .u16, v => .u16 v
  | .i16, v => .i16 v
  | .u32, v => .u32 v
  | .i32, v => .i32 v
  | .i64, v => .i64 v
  | .f32, v => .f32 v
  | .f64, v => .f64 v

/-- The payload of a scalar. -/
def element : (s : Scalar) → s.kind.Element
  | .bool v => v
  | .u8 v => v
  | .i8 v => v
  | .u16 v => v
  | .i16 v => v
  | .u32 v => v
  | .i32 v => v
  | .i64 v => v
  | .f32 v => v
  | .f64 v => v

@[simp] theorem kind_of (kind : ScalarKind) (v : kind.Element) : (of kind v).kind = kind := by
  cases kind <;> rfl

@[simp] theorem of_element (s : Scalar) : of s.kind s.element = s := by
  cases s <;> rfl

/-- The number of an integer scalar. -/
def toInt? : Scalar → Option Int
  | .u8 v => some v.toNat
  | .i8 v => some v.toInt
  | .u16 v => some v.toNat
  | .i16 v => some v.toInt
  | .u32 v => some v.toNat
  | .i32 v => some v.toInt
  | .i64 v => some v.toInt
  | .bool _ | .f32 _ | .f64 _ => none

/-- The scalar of an integer kind that holds a number of its range. -/
def ofInt? (kind : ScalarKind) (n : Int) : Option Scalar :=
  match kind.range? with
  | none => none
  | some (low, high) =>
    if n < low ∨ high < n then none
    else
      match kind with
      | .u8 => some (.u8 (UInt8.ofNat n.toNat))
      | .i8 => some (.i8 (Int8.ofInt n))
      | .u16 => some (.u16 (UInt16.ofNat n.toNat))
      | .i16 => some (.i16 (Int16.ofInt n))
      | .u32 => some (.u32 (UInt32.ofNat n.toNat))
      | .i32 => some (.i32 (Int32.ofInt n))
      | .i64 => some (.i64 (Int64.ofInt n))
      | .bool | .f32 | .f64 => none

/-- The number of an integer scalar lies in the range of its kind. -/
theorem toInt?_range {s : Scalar} {n : Int} (h : s.toInt? = some n) :
    ∃ low high, s.kind.range? = some (low, high) ∧ low ≤ n ∧ n ≤ high := by
  cases s <;> simp only [toInt?, Option.some.injEq, reduceCtorEq] at h <;> subst h
  case u8 v => have := v.toNat_lt; exact ⟨_, _, rfl, by omega, by omega⟩
  case u16 v => have := v.toNat_lt; exact ⟨_, _, rfl, by omega, by omega⟩
  case u32 v => have := v.toNat_lt; exact ⟨_, _, rfl, by omega, by omega⟩
  case i8 v => exact ⟨_, _, rfl, v.le_toInt, by have := v.toInt_lt; omega⟩
  case i16 v => exact ⟨_, _, rfl, v.le_toInt, by have := v.toInt_lt; omega⟩
  case i32 v => exact ⟨_, _, rfl, v.le_toInt, by have := v.toInt_lt; omega⟩
  case i64 v => exact ⟨_, _, rfl, v.le_toInt, by have := v.toInt_lt; omega⟩

/-- An integer scalar is determined by its kind and its number. -/
theorem ofInt?_toInt? {s : Scalar} {n : Int} (h : s.toInt? = some n) :
    ofInt? s.kind n = some s := by
  obtain ⟨low, high, hr, hlo, hhi⟩ := toInt?_range h
  have hn : ¬(n < low ∨ high < n) := by omega
  simp only [ofInt?, hr, hn, if_false]
  cases s <;> simp only [toInt?, Option.some.injEq, reduceCtorEq] at h <;> subst h <;>
    simp [kind]

/-- The text of a scalar. -/
def text : Scalar → String
  | .bool v => toString v
  | .u8 v => toString v.toNat
  | .i8 v => toString v.toInt
  | .u16 v => toString v.toNat
  | .i16 v => toString v.toInt
  | .u32 v => toString v.toNat
  | .i32 v => toString v.toInt
  | .i64 v => toString v.toInt
  | .f32 v => v.text
  | .f64 v => v.text

/-- Equality as arithmetic sees it: a NaN differs from itself and the two zeros are equal. -/
def same : Scalar → Scalar → Bool
  | .f32 a, .f32 b => a.same b
  | .f64 a, .f64 b => a.same b
  | a, b => a == b

end Scalar

/-- A machine value, as arguments and results of a guest carry it. Integers are words; whether a
word is read with a sign is up to whoever reads it. -/
inductive CoreValue where
  | i32 (v : UInt32)
  | i64 (v : UInt64)
  | f32 (v : Binary32)
  | f64 (v : Binary64)
  deriving DecidableEq

namespace CoreValue

/-- The type of a machine value. -/
def type : CoreValue → CoreType
  | .i32 _ => .i32
  | .i64 _ => .i64
  | .f32 _ => .f32
  | .f64 _ => .f64

/-- The machine value of a signed 32-bit number. -/
def ofInt32 (v : Int32) : CoreValue := .i32 v.toUInt32

/-- The text of a machine value: its signed number or its float, then its type. -/
def text : CoreValue → String
  | .i32 v => toString v.toInt32.toInt ++ "i32"
  | .i64 v => toString v.toInt64.toInt ++ "i64"
  | .f32 v => v.text ++ "f32"
  | .f64 v => v.text ++ "f64"

/-- The text of a list of machine values. -/
def listText (values : List CoreValue) : String := ", ".intercalate (values.map text)

end CoreValue

namespace Scalar

/-- The machine value that a scalar travels as. Truth values become 0 and 1, and narrow integers
widen by zero or sign extension. -/
def lower : Scalar → CoreValue
  | .bool v => .i32 (if v then 1 else 0)
  | .u8 v => .i32 v.toUInt32
  | .i8 v => .ofInt32 v.toInt32
  | .u16 v => .i32 v.toUInt32
  | .i16 v => .ofInt32 v.toInt32
  | .u32 v => .i32 v
  | .i32 v => .ofInt32 v
  | .i64 v => .i64 v.toUInt64
  | .f32 v => .f32 v
  | .f64 v => .f64 v

/-- A scalar travels as the machine type of its kind. -/
theorem type_lower (s : Scalar) : s.lower.type = s.kind.coreType := by
  cases s <;> rfl

end Scalar

end GuestCall
