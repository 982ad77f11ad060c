/-
# A scripted guest

A guest that needs no machine: it hands out addresses one after the other, notes what is given
back, and fails on demand. Ledgers are tried out against it, since every answer that a guest may
give to a ledger can be arranged.

Key definitions:
* `ScriptedGuest`, with `ScriptedGuest.grow` and `ScriptedGuest.shrink`;
* its instance of `GuestAllocator`.
-/
import GuestCall.Ledger.Basic

namespace GuestCall

/-- What a scripted guest does when a buffer is asked for. -/
inductive AllocMode where
  | serve
  /-- There is no place. -/
  | null
  /-- The request itself fails. -/
  | fail
  deriving DecidableEq

/-- A guest that follows a script. -/
structure ScriptedGuest where
  /-- Where the next buffer starts. -/
  heap : UInt32
  memoryLength : Nat
  epoch : Nat
  mode : AllocMode
  /-- Whether every request for a buffer grows the memory by a page first. -/
  growsOnAlloc : Bool
  /-- Whether giving back fails. -/
  failsToFree : Bool
  /-- What was given back, last one first. -/
  freed : List (UInt32 × UInt32)
  deriving DecidableEq

namespace ScriptedGuest

/-- A guest that serves every request. -/
def fresh (heap : UInt32) (memoryLength : Nat) : ScriptedGuest :=
  ⟨heap, memoryLength, 0, .serve, false, false, []⟩

/-- The guest with more memory, in a new epoch. -/
def grow (g : ScriptedGuest) (bytes : Nat) : ScriptedGuest :=
  { g with memoryLength := g.memoryLength + bytes, epoch := g.epoch + 1 }

/-- The guest with a memory of another length, which it does not notice. -/
def shrink (g : ScriptedGuest) (length : Nat) : ScriptedGuest := { g with memoryLength := length }

/-- The next place on the heap. Addresses wrap around. -/
def alloc (g : ScriptedGuest) (length : UInt32) : Except BindError UInt32 × ScriptedGuest :=
  match g.mode with
  | .null => (.ok 0, g)
  | .fail => (.error (.allocation length (.note "scripted failure")), g)
  | .serve =>
    let g := if g.growsOnAlloc then g.grow pageSize else g
    (.ok g.heap, { g with heap := g.heap + length })

/-- Notes what is given back. -/
def free (g : ScriptedGuest) (ptr length : UInt32) : Except BindError Unit × ScriptedGuest :=
  if g.failsToFree then
    (.error (.exportNotFound s!"dealloc({ptr.toNat}, {length.toNat})"), g)
  else (.ok (), { g with freed := (ptr, length) :: g.freed })

instance : GuestAllocator ScriptedGuest where
  alloc := alloc
  free := free
  epoch g := (g.epoch, g)
  memoryLength := memoryLength

end ScriptedGuest

end GuestCall
