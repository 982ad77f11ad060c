/-
# Scalar kinds

The ten fixed-width kinds of element that cross the boundary between a host and a guest by copy,
and the four number types of the machine that carries them. A kind fixes the width of an element in
linear memory, the machine type it travels as when it is an argument, and, for an integer kind, the
range of numbers it holds.

Key definitions:
* `ScalarKind.width`: bytes of one element in linear memory;
* `ScalarKind.coreType`: the machine type of a scalar argument or result;
* `ScalarKind.range?`: the least and the greatest number of an integer kind.
-/

namespace GuestCall

/-- The number types of the machine. -/
inductive CoreType where
  | i32
  | i64
  | f32
  | f64
  deriving DecidableEq, Repr

/-- The name of a machine type, as signatures and messages show it. -/
def CoreType.name : CoreType → String
  | .i32 => "i32"
  | .i64 => "i64"
  | .f32 => "f32"
  | .f64 => "f64"

/-- The kinds of element that cross the boundary by copy. -/
inductive ScalarKind where
  | bool
  | u8
  | i8
  | u16
  | i16
  | u32
  | i32
  | i64
  | f32
  | f64
  deriving DecidableEq, Repr

namespace ScalarKind

/-- Every kind, narrowest first. -/
def all : List ScalarKind := [.bool, .u8, .i8, .u16, .i16, .u32, .i32, .i64, .f32, .f64]

/-- The name of a kind, as signatures, metadata and messages show it. -/
def name : ScalarKind → String
  | .bool => "bool"
  | .u8 => "u8"
  | .i8 => "i8"
  | .u16 => "u16"
  | .i16 => "i16"
  | .u32 => "u32"
  | .i32 => "i32"
  | .i64 => "i64"
  | .f32 => "f32"
  | .f64 => "f64"

/-- The kind of that name. -/
def ofName? (name : String) : Option ScalarKind := all.find? (·.name == name)

/-- Bytes of one element in linear memory. -/
def width : ScalarKind → Nat
  | .bool | .u8 | .i8 => 1
  | .u16 | .i16 => 2
  | .u32 | .i32 | .f32 => 4
  | .i64 | .f64 => 8

/-- The machine type that a scalar of this kind travels as. -/
def coreType : ScalarKind → CoreType
  | .i64 => .i64
  | .f32 => .f32
  | .f64 => .f64
  | _ => .i32

/-- The least and the greatest number of an integer kind; the other kinds have none. -/
def range? : ScalarKind → Option (Int × Int)
  | .u8 => some (0, 255)
  | .i8 => some (-128, 127)
  | .u16 => some (0, 65535)
  | .i16 => some (-32768, 32767)
  | .u32 => some (0, 4294967295)
  | .i32 => some (-2147483648, 2147483647)
  | .i64 => some (-9223372036854775808, 9223372036854775807)
  | .bool | .f32 | .f64 => none

/-- Whether the elements of this kind are integers. -/
def isInteger (kind : ScalarKind) : Bool := kind.range?.isSome

theorem mem_all (kind : ScalarKind) : kind ∈ all := by cases kind <;> decide

theorem ofName?_name (kind : ScalarKind) : ofName? kind.name = some kind := by
  cases kind <;> decide

theorem width_pos (kind : ScalarKind) : 0 < kind.width := by cases kind <;> decide

theorem width_le (kind : ScalarKind) : kind.width ≤ 8 := by cases kind <;> decide

end ScalarKind

/-- The kind that a machine type stands for when nothing else is known of a value. -/
def CoreType.kind : CoreType → ScalarKind
  | .i32 => .i32
  | .i64 => .i64
  | .f32 => .f32
  | .f64 => .f64

theorem CoreType.coreType_kind (type : CoreType) : type.kind.coreType = type := by
  cases type <;> rfl

end GuestCall
