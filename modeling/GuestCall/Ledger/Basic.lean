/-
# The ledger of guest buffers

Every buffer that the host takes from a guest for a call is entered here and freed exactly once. A
handle carries the epoch of the memory at which it was last checked; epochs advance when memory
grows, and a handle from an earlier epoch has to be refreshed before it is given back. Ids that are
given back are kept in a set, which is emptied into a mark when nothing is outstanding any more:
every id below the mark is gone.

The guest is a parameter: whatever can allocate, free, and tell the epoch and length of its memory.

Key definitions:
* `Handle`, `Ledger`, and `Books`, a guest together with the ledger of its buffers;
* `GuestAllocator`, what a guest has to offer;
* `Action`, a step that may fail and whose effects stay;
* `Ledger.allocate`, `adopt`, `borrow`, `refresh`, `release` and `releaseAll`.
-/
import GuestCall.Error

namespace GuestCall

/-- A range of guest memory, as a call refers to it. -/
structure Handle where
  id : Nat
  ptr : UInt32
  len : UInt32
  /-- Whether the ledger frees it; a range that the caller looks after is not owned. -/
  owned : Bool
  /-- The epoch of the memory when the handle was last checked. -/
  epoch : Nat
  deriving DecidableEq

/-- One past the last byte of a handle. -/
def Handle.stop (h : Handle) : Nat := h.ptr.toNat + h.len.toNat

/-- What the ledger needs of a guest. Asking for the epoch may be what makes the guest notice that
its memory has grown. -/
class GuestAllocator (σ : Type) where
  /-- The place of a new buffer, zero if there is none. -/
  alloc : σ → UInt32 → Except BindError UInt32 × σ
  free : σ → UInt32 → UInt32 → Except BindError Unit × σ
  epoch : σ → Nat × σ
  memoryLength : σ → Nat

/-- The buffers of a guest that the host holds. -/
structure Ledger where
  nextId : Nat
  /-- Owned handles that are not given back, newest first. -/
  outstanding : List Handle
  /-- Ids given back since the mark last moved. -/
  released : List Nat
  /-- Every id below this mark is given back or dropped. -/
  releasedBelow : Nat
  allocations : Nat
  releases : Nat
  deriving DecidableEq

/-- A guest together with the ledger of its buffers. -/
structure Books (σ : Type) where
  ledger : Ledger
  guest : σ

/-- A step on some books that may fail. What it did before it failed stays done. -/
abbrev Action (σ α : Type) : Type := Books σ → Except BindError α × Books σ

namespace Action

variable {σ α β : Type}

/-- The step that only has a result. -/
def pure (a : α) : Action σ α := fun b => (.ok a, b)

/-- The step that only fails. -/
def fail (e : BindError) : Action σ α := fun b => (.error e, b)

/-- A step after another one that succeeded. -/
def andThen (x : Action σ α) (f : α → Action σ β) : Action σ β := fun b =>
  match x b with
  | (.ok a, b) => f a b
  | (.error e, b) => (.error e, b)

instance : Monad (Action σ) where
  pure := pure
  bind := andThen

/-- The step that has a result or fails with what was computed. -/
def ofExcept (x : Except BindError α) : Action σ α := fun b => (x, b)

/-- A step of the guest alone. -/
def onGuest (f : σ → Except BindError α × σ) : Action σ α := fun b =>
  match b with
  | ⟨ledger, guest⟩ =>
    match f guest with
    | (result, guest) => (result, ⟨ledger, guest⟩)

end Action

namespace Ledger

/-- The ledger of a guest that no buffer was taken from. -/
def empty : Ledger := ⟨0, [], [], 0, 0, 0⟩

/-- Whether an id is given back or dropped. -/
def isReleased (l : Ledger) (id : Nat) : Bool := id < l.releasedBelow || l.released.contains id

/-- The ledger with one more handle issued. -/
def issue (l : Ledger) : Ledger := { l with nextId := l.nextId + 1 }

/-- The ledger with one more owned handle issued. -/
def enter (l : Ledger) (h : Handle) : Ledger :=
  { l with
    nextId := l.nextId + 1
    outstanding := h :: l.outstanding
    allocations := l.allocations + 1 }

/-- The ledger with an outstanding handle replaced by a later copy of itself. -/
def restamp (l : Ledger) (h : Handle) : Ledger :=
  { l with outstanding := l.outstanding.map fun o => if o.id = h.id then h else o }

/-- The ledger without an outstanding handle, which is not given back. -/
def drop (l : Ledger) (id : Nat) : Ledger :=
  { l with outstanding := l.outstanding.filter (·.id != id) }

/-- The ledger after an outstanding handle is given back. -/
def settle (l : Ledger) (id : Nat) : Ledger :=
  { l with
    outstanding := l.outstanding.filter (·.id != id)
    released := id :: l.released
    releases := l.releases + 1 }

/-- The ledger with nothing outstanding: every id issued so far is gone. -/
def close (l : Ledger) : Ledger := { l with releasedBelow := l.nextId, released := [] }

variable {σ : Type} [GuestAllocator σ]

/-- Enters a buffer that the guest made, at the epoch its memory has now. -/
def adopt (ptr len : UInt32) : Action σ Handle := fun b =>
  match b with
  | ⟨l, guest⟩ =>
    match GuestAllocator.epoch guest with
    | (epoch, guest) =>
      let h : Handle := ⟨l.nextId, ptr, len, true, epoch⟩
      (.ok h, ⟨l.enter h, guest⟩)

/-- Takes a new buffer from the guest. The epoch is asked for afterwards, since taking the buffer
may have grown the memory. -/
def allocate (len : UInt32) : Action σ Handle := fun b =>
  match b with
  | ⟨l, guest⟩ =>
    match GuestAllocator.alloc guest len with
    | (.error e, guest) => (.error e, ⟨l, guest⟩)
    | (.ok ptr, guest) =>
      if ptr = 0 then (.error (.allocation len .null), ⟨l, guest⟩)
      else adopt ptr len ⟨l, guest⟩

/-- A handle for a range that the caller looks after. -/
def borrow (ptr len : UInt32) : Action σ Handle := fun b =>
  match b with
  | ⟨l, guest⟩ =>
    match GuestAllocator.epoch guest with
    | (epoch, guest) => (.ok ⟨l.nextId, ptr, len, false, epoch⟩, ⟨l.issue, guest⟩)

/-- The same handle at the epoch of the memory now, if it is not gone and lies in the memory. -/
def refresh (h : Handle) : Action σ Handle := fun b =>
  match b with
  | ⟨l, guest⟩ =>
    if h.owned && l.isReleased h.id then (.error (.doubleFree h.id h.ptr), ⟨l, guest⟩)
    else if GuestAllocator.memoryLength guest < h.stop then
      (.error (.outOfBounds h.ptr.toNat h.len.toNat (GuestAllocator.memoryLength guest)), ⟨l, guest⟩)
    else
      match GuestAllocator.epoch guest with
      | (epoch, guest) =>
        let h := { h with epoch }
        (.ok h, ⟨l.restamp h, guest⟩)

/-- Gives a handle back. Nothing happens to one that is not owned. -/
def release (h : Handle) : Action σ Unit := fun b =>
  match b with
  | ⟨l, guest⟩ =>
    if !h.owned then (.ok (), ⟨l, guest⟩)
    else if l.isReleased h.id then (.error (.doubleFree h.id h.ptr), ⟨l, guest⟩)
    else
      match GuestAllocator.epoch guest with
      | (epoch, guest) =>
        if h.epoch ≠ epoch then
          (.error (.danglingHandle h.id h.ptr h.epoch epoch), ⟨l, guest⟩)
        else if l.outstanding.any (·.id == h.id) then
          match GuestAllocator.free guest h.ptr h.len with
          | (result, guest) => (result, ⟨l.settle h.id, guest⟩)
        else (.error (.doubleFree h.id h.ptr), ⟨l, guest⟩)

/-- Refreshes a handle and gives it back. -/
def refreshRelease (h : Handle) : Action σ Unit := Action.andThen (refresh h) release

/-- Gives back so many outstanding handles, newest first. One that cannot be given back is dropped,
and the first error is kept. -/
def releaseNewest : Nat → Option BindError → Action σ Unit
  | 0, none, b => (.ok (), b)
  | 0, some e, b => (.error e, b)
  | count + 1, first?, b =>
    match b.ledger.outstanding with
    | [] => releaseNewest count first? b
    | h :: _ =>
      match refreshRelease h b with
      | (.ok _, b) => releaseNewest count first? b
      | (.error e, b) =>
        releaseNewest count (first?.or (some e)) { b with ledger := b.ledger.drop h.id }

/-- Gives back everything that is outstanding, newest first, and moves the mark. The first error is
reported at the end. -/
def releaseAll : Action σ Unit := fun b =>
  match releaseNewest b.ledger.outstanding.length none b with
  | (result, b) => (result, { b with ledger := b.ledger.close })

end Ledger

end GuestCall
