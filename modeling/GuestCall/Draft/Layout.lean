/-
# Memory of a guest

Where a guest keeps what: nothing at address zero, static data in front, and behind it a heap that
grows by pages on demand.

Key definitions:
* `dataStart` and `heapStart`, the first bytes of the static data and of the heap;
* `blockAlign`, the unit in which blocks of the heap are taken;
* `memoryLimits`, the size of the memory.
-/
import GuestCall.Wasm.Module

namespace GuestCall

/-- The first byte of the static data. -/
def dataStart : Nat := 16

/-- The first byte of the heap. -/
def heapStart : Nat := 4096

/-- Every block of the heap is rounded up to a multiple of this. -/
def blockAlign : Nat := 8

/-- The logarithm of the size of a page. -/
def pageShift : Nat := 16

/-- The memory starts with one page and may have up to 16 MiB. -/
def memoryLimits : Wasm.Limits := ⟨1, some 256⟩

/-- The global that holds the first free byte of the heap. -/
def heapGlobal : Nat := 0

/-- The global that counts the bytes that are allocated. -/
def liveGlobal : Nat := 1

/-- The globals of a guest. -/
def guestGlobals : List Wasm.Global :=
  [⟨⟨.i32, true⟩, .value (.i32 heapStart.toUInt32)⟩, ⟨⟨.i32, true⟩, .value (.i32 0)⟩]

end GuestCall
