/-
# The allocator of a guest

The functions by which a guest manages its heap. Blocks are taken from the end of the heap, which
grows by pages where it has to. Giving a block back counts down the live bytes; only the topmost
block makes room again, so blocks that are given back in reverse order leave the heap as it was.

Key definitions:
* `Allocator.alloc`, `Allocator.dealloc` and `Allocator.live`, what the host calls;
* `Allocator.newDescriptor`, which describes a result buffer;
* `Allocator.allocInto`, for code that takes a block.
-/
import GuestCall.Call.Result
import GuestCall.Draft.Code
import GuestCall.Draft.Layout

namespace GuestCall.Allocator

open Wasm Code

/-- The place of the function that takes a block. -/
def allocIndex : Nat := 0

/-- The place of the function that describes a result buffer. -/
def newDescriptorIndex : Nat := 3

/-- Rounds the word in a local up to a multiple of the alignment. -/
def roundUp (i : Nat) : List Instr :=
  [val i, word (blockAlign - 1), add, word (-(blockAlign : Int)), bits]

/-- Grows the memory up to the address in local 3, from the size in local 4, and returns zero if
that fails. -/
def growMemory : List Instr :=
  [val 3, val 4, sub, word (pageSize - 1), add, word pageShift, num .i32ShrU,
    .plain (.memoryGrow 0), word (-1), num .i32Eq, returnZeroIf]

/-- Takes a block of a size: its address, or zero if there is no room. Local 1 is the rounded size,
local 2 the address, local 3 the end of the block, local 4 the size of the memory. Both the rounding
and the end of the block may wrap around, and then there is no room. -/
def alloc : Body :=
  .ofCode [.i32, .i32, .i32, .i32] (
    roundUp 0 ++
    [put 1, val 1, val 0, num .i32LtU, returnZeroIf,
      global heapGlobal, put 2, val 2, val 1, add, tee 3, val 2, num .i32LtU, returnZeroIf,
      .plain (.memorySize 0), word pageShift, num .i32Shl, put 4,
      val 3, val 4, num .i32GtU, when growMemory,
      val 3, putGlobal heapGlobal,
      global liveGlobal, val 1, add, putGlobal liveGlobal,
      val 2])

/-- Gives a block back, by its address and its size. Local 2 is the rounded size. A block without
bytes was never taken. -/
def dealloc : Body :=
  .ofCode [.i32] (
    [val 1, num .i32Eqz, when [ret]] ++
    roundUp 1 ++
    [put 2,
      global liveGlobal, val 2, sub, putGlobal liveGlobal,
      val 0, val 2, add, global heapGlobal, num .i32Eq,
      when [val 0, putGlobal heapGlobal]])

/-- The count of live bytes. -/
def live : Body := .ofCode [] [global liveGlobal]

/-- Takes a block of the size on the stack into a local, and returns zero if there is no room. -/
def allocInto (i : Nat) : List Instr := [call allocIndex, tee i, num .i32Eqz, returnZeroIf]

/-- Stores the word in a local into a field of the descriptor at the address in local 3. -/
def setField (offset : UInt32) (i : Nat) : List Instr := [val 3, val i, store .i32 offset.toNat 2]

/-- Makes a descriptor of an address, a length and a capacity: its address, or zero if there is no
room. Local 3 is the descriptor. -/
def newDescriptor : Body :=
  .ofCode [.i32] (
    [word Descriptor.width.toNat] ++ allocInto 3 ++
    setField Descriptor.ptrOffset 0 ++ setField Descriptor.lenOffset 1 ++
    setField Descriptor.capOffset 2 ++ [val 3])

/-- Returns a descriptor of the buffer in a local, which is as long as the word in another one. -/
def describe (buffer length : Nat) : List Instr :=
  [val buffer, val length, val length, call newDescriptorIndex]

end GuestCall.Allocator
