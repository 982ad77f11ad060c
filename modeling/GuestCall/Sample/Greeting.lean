/-
# A sample guest: greetings

Texts as results and as arguments. The exports:
* `hello_world() -> String`, a constant greeting;
* `hello_x(String) -> String`, a greeting for someone.
-/
import GuestCall.Draft.Basic

namespace GuestCall.Sample.Greeting

open Wasm Code Allocator

/-- Returns a fresh copy of constant bytes. Local 0 is the buffer. -/
def copyConstant (constant : Span) : Body :=
  .ofCode [.i32] (
    [word constant.len] ++ allocInto 0 ++
    [val 0, word constant.ptr, word constant.len, copy,
      val 0, word constant.len, word constant.len, call newDescriptorIndex])

/-- What is greeted at large. -/
def everyone : String := "Hello, world!"

/-- What stands in front of a name. -/
def opening : String := "Hello, "

/-- Joins an opening, the argument and an exclamation mark. Local 2 is the buffer, local 3 its
length, which may wrap around. -/
def greet (front : Span) : Body :=
  .ofCode [.i32, .i32] (
    [val 1, word (front.len + 1), add, tee 3, val 1, num .i32LtU, returnZeroIf, val 3] ++
    allocInto 2 ++
    [val 2, word front.ptr, word front.len, copy,
      val 2, word front.len, add, val 0, val 1, copy,
      val 2, val 3, add, word 1, sub, word 0x21, store .i32Byte 0 0] ++
    describe 2 3)

/-- The exports, with their signatures, given where their constants are. -/
def exports (greeting front : Span) : List (Signature × Body) :=
  [(⟨"hello_world", [], .str, .standard⟩, copyConstant greeting),
    (⟨"hello_x", [.str], .str, .standard⟩, greet front)]

end GuestCall.Sample.Greeting
