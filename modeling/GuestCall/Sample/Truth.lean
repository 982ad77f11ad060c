/-
# A sample guest: truth values and bits

The exports:
* `count_booleans(&[bool]) -> i32`, how many elements are true;
* `is_sum_even(&[i32]) -> bool`, whether the sum is even, which wrapping around does not change;
* `bits_within(u8) -> i32`, how many bits are set;
* `bits_of(u8) -> Vec<bool>`, the eight bits, the highest one first.
-/
import GuestCall.Draft.Basic

namespace GuestCall.Sample.Truth

open Wasm Code Allocator

/-- Counts the bytes that are not zero. Local 2 is the index, local 3 the count. -/
def countTrue : Body :=
  .ofCode [.i32, .i32] (
    forEach 2 1 (
      elementAt 0 2 0 ++ [load .i32Byte 0, word 0, num .i32Ne, val 3, add, put 3]) ++
    [val 3])

/-- Sums words up and looks at the lowest bit. Local 2 is the index, local 3 the sum. -/
def isSumEven : Body :=
  .ofCode [.i32, .i32] (
    forEach 2 1 (elementAt 0 2 2 ++ [load .i32 2, val 3, add, put 3]) ++
    [val 3, word 1, bits, num .i32Eqz])

/-- Counts the bits of a byte. -/
def bitsWithin : Body := .ofCode [] [val 0, word 0xFF, bits, num .i32Popcnt]

/-- Puts the bits of a byte into a buffer. Local 1 is the buffer, local 2 the index, and local 3 the
count of bits. -/
def bitsOf : Body :=
  .ofCode [.i32, .i32, .i32] (
    [word 8, tee 3] ++ allocInto 1 ++
    forEach 2 3 (
      elementAt 1 2 0 ++
        [val 0, word 7, val 2, sub, num .i32ShrU, word 1, bits, store .i32Byte 0 0]) ++
    describe 1 3)

/-- The exports, with their signatures. -/
def exports : List (Signature × Body) :=
  [(⟨"count_booleans", [.slice .bool], .scalar .i32, .standard⟩, countTrue),
    (⟨"is_sum_even", [.slice .i32], .scalar .bool, .standard⟩, isSumEven),
    (⟨"bits_within", [.scalar .u8], .scalar .i32, .standard⟩, bitsWithin),
    (⟨"bits_of", [.scalar .u8], .vec .bool, .standard⟩, bitsOf)]

end GuestCall.Sample.Truth
