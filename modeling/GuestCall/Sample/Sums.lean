/-
# A sample guest: sums and products

Arrays of numbers, passed in every way. The exports:
* `sum(&[u32]) -> i32`, the sum, which wraps around;
* `product_in_place(&mut [u8])`, each byte doubled where it is;
* `product_new(Vec<u8>) -> Vec<u8>`, each byte doubled in a fresh array;
* `float_product(Vec<f64>) -> f64`, the product.
-/
import GuestCall.Draft.Basic

namespace GuestCall.Sample.Sums

open Wasm Code Allocator

/-- Sums words up. Local 2 is the index, local 3 the sum. -/
def sum : Body :=
  .ofCode [.i32, .i32] (
    forEach 2 1 (elementAt 0 2 2 ++ [load .i32 2, val 3, add, put 3]) ++ [val 3])

/-- Doubles bytes from one place to another. -/
def doubleBytes (source target counter length : Nat) : List Instr :=
  forEach counter length (
    elementAt target counter 0 ++ elementAt source counter 0 ++
      [load .i32Byte 0, word 1, num .i32Shl, store .i32Byte 0 0])

/-- Doubles bytes where they are. Local 2 is the index. -/
def doubleInPlace : Body := .ofCode [.i32] (doubleBytes 0 0 2 1)

/-- Doubles bytes into a fresh buffer. Local 2 is the buffer, local 3 the index. -/
def doubledCopy : Body :=
  .ofCode [.i32, .i32] ([val 1] ++ allocInto 2 ++ doubleBytes 0 2 3 1 ++ describe 2 1)

/-- Multiplies floats. Local 2 is the index, local 3 the product, which starts as one. -/
def floatProduct : Body :=
  .ofCode [.i32, .f64] (
    [double 0x3FF0000000000000, put 3] ++
    forEach 2 1 (elementAt 0 2 3 ++ [load .f64 3, val 3, num .f64Mul, put 3]) ++
    [val 3])

/-- The exports, with their signatures. -/
def exports : List (Signature × Body) :=
  [(⟨"sum", [.slice .u32], .scalar .i32, .standard⟩, sum),
    (⟨"product_in_place", [.sliceMut .u8], .unit, .standard⟩, doubleInPlace),
    (⟨"product_new", [.vec .u8], .vec .u8, .standard⟩, doubledCopy),
    (⟨"float_product", [.vec .f64], .scalar .f64, .standard⟩, floatProduct)]

end GuestCall.Sample.Sums
