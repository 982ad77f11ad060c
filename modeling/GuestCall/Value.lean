/-
# Host values

What callers hand to a guest and get back. Every integer scalar has a host value wide enough for
it, and a host integer becomes a scalar of any integer kind whose range holds it; truth values and
floats only become scalars of their own kind.

Key definitions:
* `Value`, with `Value.kind` and `Value.text`;
* `Scalar.toValue` and `Scalar.ofValue?`.

Key theorem: `Scalar.ofValue?_toValue`, no scalar is lost on its way through a host value.
-/
import GuestCall.ScalarArray
import GuestCall.Text.Quoted

namespace GuestCall

/-- A host value. -/
inductive Value where
  /-- What an export without a result returns. -/
  | unit
  | bool (v : Bool)
  | i32 (v : Int32)
  | i64 (v : Int64)
  | f32 (v : Binary32)
  | f64 (v : Binary64)
  | str (text : String)
  | array (items : ScalarArray)
  /-- The digits of an integer that may be too large for a machine integer. -/
  | bigDecimal (digits : String)
  deriving DecidableEq

/-- The kind of a host value. -/
inductive ValueKind where
  | unit
  | bool
  | i32
  | i64
  | f32
  | f64
  | str
  | array (element : ScalarKind)
  | bigDecimal
  deriving DecidableEq

/-- The name of a kind of host value, as messages show it. -/
def ValueKind.name : ValueKind → String
  | .unit => "unit"
  | .bool => "bool"
  | .i32 => "i32"
  | .i64 => "i64"
  | .f32 => "f32"
  | .f64 => "f64"
  | .str => "string"
  | .array element => s!"[{element.name}]"
  | .bigDecimal => "big decimal"

namespace Value

/-- The kind of a host value. -/
def kind : Value → ValueKind
  | .unit => .unit
  | .bool _ => .bool
  | .i32 _ => .i32
  | .i64 _ => .i64
  | .f32 _ => .f32
  | .f64 _ => .f64
  | .str _ => .str
  | .array items => .array items.kind
  | .bigDecimal _ => .bigDecimal

/-- The array of an array value. -/
def array? : Value → Option ScalarArray
  | .array items => some items
  | _ => none

/-- The text of a string, or the digits of a big decimal. -/
def text? : Value → Option String
  | .str text => some text
  | .bigDecimal digits => some digits
  | _ => none

/-- The text of a host value; only strings are quoted. -/
def text : Value → String
  | .unit => "()"
  | .bool v => toString v
  | .i32 v => toString v.toInt
  | .i64 v => toString v.toInt
  | .f32 v => v.text
  | .f64 v => v.text
  | .str text => quoted text
  | .array items => items.text
  | .bigDecimal digits => digits

/-- Equality as arithmetic sees it: a value that holds a NaN differs from itself. -/
def same : Value → Value → Bool
  | .f32 a, .f32 b => a.same b
  | .f64 a, .f64 b => a.same b
  | .array a, .array b => a.same b
  | a, b => a == b

end Value

namespace Scalar

/-- The host value of a scalar. Narrow integers widen to 32 bits, and unsigned 32-bit ones to 64
bits, so that every number stays exact. -/
def toValue : Scalar → Value
  | .bool v => .bool v
  | .u8 v => .i32 (Int32.ofInt v.toNat)
  | .i8 v => .i32 v.toInt32
  | .u16 v => .i32 (Int32.ofInt v.toNat)
  | .i16 v => .i32 v.toInt32
  | .u32 v => .i64 (Int64.ofInt v.toNat)
  | .i32 v => .i32 v
  | .i64 v => .i64 v
  | .f32 v => .f32 v
  | .f64 v => .f64 v

/-- The scalar of a kind that a host value stands for. -/
def ofValue? : ScalarKind → Value → Option Scalar
  | .bool, .bool v => some (.bool v)
  | .f32, .f32 v => some (.f32 v)
  | .f64, .f64 v => some (.f64 v)
  | kind, .i32 v => ofInt? kind v.toInt
  | kind, .i64 v => ofInt? kind v.toInt
  | _, _ => none

/-- No scalar is lost on its way through a host value. -/
theorem ofValue?_toValue (s : Scalar) : ofValue? s.kind s.toValue = some s := by
  cases s with
  | bool v => rfl
  | f32 v => rfl
  | f64 v => rfl
  | i32 v => exact ofInt?_toInt? (s := .i32 v) rfl
  | i64 v => exact ofInt?_toInt? (s := .i64 v) rfl
  | i8 v =>
    have h := ofInt?_toInt? (s := .i8 v) rfl
    simpa [ofValue?, toValue, kind] using h
  | i16 v =>
    have h := ofInt?_toInt? (s := .i16 v) rfl
    simpa [ofValue?, toValue, kind] using h
  | u8 v =>
    have h := ofInt?_toInt? (s := .u8 v) rfl
    have hv := v.toNat_lt
    have : (Int32.ofInt v.toNat).toInt = v.toNat := by
      exact Int32.toInt_ofInt_of_le (by omega) (by omega)
    simpa [ofValue?, toValue, kind, this] using h
  | u16 v =>
    have h := ofInt?_toInt? (s := .u16 v) rfl
    have hv := v.toNat_lt
    have : (Int32.ofInt v.toNat).toInt = v.toNat := by
      exact Int32.toInt_ofInt_of_le (by omega) (by omega)
    simpa [ofValue?, toValue, kind, this] using h
  | u32 v =>
    have h := ofInt?_toInt? (s := .u32 v) rfl
    have hv := v.toNat_lt
    have : (Int64.ofInt v.toNat).toInt = v.toNat := by
      exact Int64.toInt_ofInt_of_le (by omega) (by omega)
    simpa [ofValue?, toValue, kind, this] using h

end Scalar

end GuestCall
