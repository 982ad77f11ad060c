/-
# A sample guest: Fibonacci numbers

Sums that do not fit any more stay at the greatest number. The exports:
* `fib(u32) -> i64`, a number, at most the greatest signed one;
* `fib_str(u32) -> BigDecimal`, its digits, at most those of the greatest unsigned number;
* `all(u32) -> Vec<i64>`, the numbers from the first one up to some index.
-/
import GuestCall.Draft.Basic

namespace GuestCall.Sample.Fibonacci

open Wasm Code Allocator

/-- Where a sum stops to grow. -/
inductive Ceiling where
  | signed
  | unsigned
  deriving DecidableEq

/-- The greatest number, as a constant. -/
def Ceiling.constant : Ceiling → Instr
  | .signed => long 0x7FFFFFFFFFFFFFFF
  | .unsigned => long (-1)

/-- Whether one number is less than another. -/
def Ceiling.less : Ceiling → NumOp
  | .signed => .i64LtS
  | .unsigned => .i64LtU

/-- One step: the local `b` moves to `a`, and their sum to `b`. A sum that wrapped around is less
than `b`. -/
def step (a b next : Nat) (c : Ceiling) : List Instr :=
  [val a, val b, num .i64Add, put next,
    c.constant, val next, val next, val b, num c.less, .plain .select, put next,
    val b, put a, val next, put b]

/-- The number of the index in local 0, in the local `a`. -/
def count (counter a b next : Nat) (c : Ceiling) : List Instr :=
  [long 0, put a, long 1, put b] ++ forEach counter 0 (step a b next c)

/-- A number. Locals 1 and 2 are a pair of numbers, local 3 the index, local 4 their sum. -/
def fib : Body := .ofCode [.i64, .i64, .i32, .i64] (count 3 1 2 4 .signed ++ [val 1])

/-- Divides the number in local 5 by ten and starts the loop again if anything is left. -/
def nextDigit : List Instr :=
  [val 5, long 10, num .i64DivU, tee 5, long 0, num .i64Ne, branchIf 0]

/-- The digits of a number. They are counted first and then written from the right. Local 5 is what
is left of the number, local 6 the count of digits, local 7 the buffer, local 8 the place of a
digit. -/
def fibText : Body :=
  .ofCode [.i64, .i64, .i32, .i64, .i64, .i32, .i32, .i32] (
    count 3 1 2 4 .unsigned ++
    [val 1, put 5, .loop .empty ([val 6, word 1, add, put 6] ++ nextDigit), val 6] ++
    allocInto 7 ++
    [val 6, put 8, val 1, put 5,
      .loop .empty (
        [val 8, word 1, sub, put 8] ++ elementAt 7 8 0 ++
        [val 5, long 10, num .i64RemU, num .i32WrapI64, word 0x30, add, store .i32Byte 0 0] ++
        nextDigit)] ++
    describe 7 6)

/-- All numbers up to an index. Local 1 is the buffer, locals 2 and 3 are a pair of numbers, local 4
is the index, local 5 their sum. The size of the buffer has to be a word. -/
def all : Body :=
  .ofCode [.i32, .i64, .i64, .i32, .i64] (
    [val 0, word 0x1FFFFFFF, num .i32GtU, returnZeroIf, val 0, word 3, num .i32Shl] ++
    allocInto 1 ++
    [long 0, put 2, long 1, put 3] ++
    forEach 4 0 (elementAt 1 4 3 ++ [val 3, store .i64 0 3] ++ step 2 3 5 .signed) ++
    describe 1 0)

/-- The exports, with their signatures. -/
def exports : List (Signature × Body) :=
  [(⟨"fib", [.scalar .u32], .scalar .i64, .standard⟩, fib),
    (⟨"fib_str", [.scalar .u32], .bigDecimal, .standard⟩, fibText),
    (⟨"all", [.scalar .u32], .vec .i64, .standard⟩, all)]

end GuestCall.Sample.Fibonacci
