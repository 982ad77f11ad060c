/-
# A sample guest: faults

Exports that fail in one way or another, and conventions that are rare. The exports:
* `divide(i32, i32) -> i32`, which traps where the divisor is zero;
* `crash()`, which always traps;
* `peek(u32) -> i32`, the word at an address, which traps outside of the memory;
* `bad_utf8() -> String`, bytes that are no text;
* `bad_decimal() -> BigDecimal`, a text that is no number;
* `product_into(&[u8], out)`, each byte doubled into an array of the caller;
* `add(i32, i32) -> i32`, without a signature.
-/
import GuestCall.Sample.Greeting
import GuestCall.Sample.Sums

namespace GuestCall.Sample.Faults

open Wasm Code

/-- An operator on the two arguments. -/
def binary (op : NumOp) : Body := .ofCode [] [val 0, val 1, num op]

/-- Always traps. -/
def crash : Body := .ofCode [] [.plain .unreachable]

/-- The word at an address, which need not be aligned. -/
def peek : Body := .ofCode [] [val 0, load .i32 0]

/-- Bytes that are no text. -/
def noText : List UInt8 := [0xFF, 0xFE]

/-- A text that is no number. -/
def noNumber : String := "12x"

/-- The exports with signatures, given where their constants are. -/
def exports (text number : Span) : List (Signature × Body) :=
  [(⟨"divide", [.scalar .i32, .scalar .i32], .scalar .i32, .standard⟩, binary .i32DivS),
    (⟨"crash", [], .unit, .standard⟩, crash),
    (⟨"peek", [.scalar .u32], .scalar .i32, .standard⟩, peek),
    (⟨"bad_utf8", [], .str, .standard⟩, Greeting.copyConstant text),
    (⟨"bad_decimal", [], .bigDecimal, .standard⟩, Greeting.copyConstant number),
    (⟨"product_into", [.slice .u8], .vec .u8, .legacyOutParam⟩, Sums.doubledCopy)]

/-- A signature that says of a function of one word that it takes an array. -/
def mismatched : Signature := ⟨"sum", [.slice .u32], .scalar .i32, .standard⟩

/-- Returns its argument. -/
def identity : Body := .ofCode [] [val 0]

end GuestCall.Sample.Faults
