/-
# A ledger that forgets nothing

The ledger keeps the ids that are gone in a set, which it empties into a mark. This file states what
that set stands for: a plain ledger with one list of every id that was ever given back or dropped,
which only grows, and otherwise the same handles. The plain ledger also keeps, for the record, which
handle it had the guest free each time.

Both are driven by the same sessions: steps of a caller that names old copies of handles as it likes,
over a guest that may change between any two steps.

Key definitions:
* `PlainLedger`, with the actions of the ledger;
* `LedgerOp`, a step of a caller, and `Keeper`, what carries it out;
* `Keeper.run`, a session, and the two keepers `Ledger.keeper` and `PlainLedger.keeper`;
* `Watched`, a guest that notes down what it is asked to free.
-/
import GuestCall.Ledger.Basic

namespace GuestCall

/-- Where a handle is, as the guest is told when it is freed. -/
def Handle.place (h : Handle) : UInt32 × UInt32 := (h.ptr, h.len)

/-- A guest that notes down what it is asked to free, last one first. -/
structure Watched (σ : Type) where
  guest : σ
  freed : List (UInt32 × UInt32)

namespace Watched

variable {σ : Type}

/-- The same notes about a guest that has moved on. -/
def moveTo (w : Watched σ) (guest : σ) : Watched σ := { w with guest }

/-- The notes with one more free, about a guest that has moved on. -/
def note (w : Watched σ) (ptr len : UInt32) (guest : σ) : Watched σ := ⟨guest, (ptr, len) :: w.freed⟩

instance [GuestAllocator σ] : GuestAllocator (Watched σ) where
  alloc w len :=
    match GuestAllocator.alloc w.guest len with
    | (result, guest) => (result, w.moveTo guest)
  free w ptr len :=
    match GuestAllocator.free w.guest ptr len with
    | (result, guest) => (result, w.note ptr len guest)
  epoch w :=
    match GuestAllocator.epoch w.guest with
    | (epoch, guest) => (epoch, w.moveTo guest)
  memoryLength w := GuestAllocator.memoryLength w.guest

end Watched

/-- The buffers of a guest that the host holds, with everything that ever happened to them. -/
structure PlainLedger where
  nextId : Nat
  /-- Owned handles that are neither given back nor dropped, newest first. -/
  outstanding : List Handle
  /-- Every id that was ever given back or dropped. -/
  gone : List Nat
  /-- The handles that the guest was asked to free, last one first. -/
  freed : List Handle

/-- A guest together with the plain ledger of its buffers. -/
structure PlainBooks (σ : Type) where
  ledger : PlainLedger
  guest : σ

/-- A step on plain books that may fail. What it did before it failed stays done. -/
abbrev PlainAction (σ α : Type) : Type := PlainBooks σ → Except BindError α × PlainBooks σ

namespace PlainLedger

/-- The plain ledger of a guest that no buffer was taken from. -/
def empty : PlainLedger := ⟨0, [], [], []⟩

/-- The ids that are outstanding. -/
def outstandingIds (l : PlainLedger) : List Nat := l.outstanding.map (·.id)

/-- The plain ledger with one more handle issued. -/
def issue (l : PlainLedger) : PlainLedger := { l with nextId := l.nextId + 1 }

/-- The plain ledger with one more owned handle issued. -/
def enter (l : PlainLedger) (h : Handle) : PlainLedger :=
  { l with nextId := l.nextId + 1, outstanding := h :: l.outstanding }

/-- The plain ledger with an outstanding handle replaced by a later copy of itself. -/
def restamp (l : PlainLedger) (h : Handle) : PlainLedger :=
  { l with outstanding := l.outstanding.map fun o => if o.id = h.id then h else o }

/-- The plain ledger after a handle is dropped. -/
def drop (l : PlainLedger) (id : Nat) : PlainLedger :=
  { l with outstanding := l.outstanding.filter (·.id != id), gone := id :: l.gone }

/-- The plain ledger after the guest is asked to free a handle. -/
def settle (l : PlainLedger) (h : Handle) : PlainLedger :=
  { l with
    outstanding := l.outstanding.filter (·.id != h.id)
    gone := h.id :: l.gone
    freed := h :: l.freed }

variable {σ : Type} [GuestAllocator σ]

/-- Enters a buffer that the guest made. -/
def adopt (ptr len : UInt32) : PlainAction σ Handle := fun b =>
  match GuestAllocator.epoch b.guest with
  | (epoch, guest) =>
    let h : Handle := ⟨b.ledger.nextId, ptr, len, true, epoch⟩
    (.ok h, ⟨b.ledger.enter h, guest⟩)

/-- Takes a new buffer from the guest. -/
def allocate (len : UInt32) : PlainAction σ Handle := fun b =>
  match GuestAllocator.alloc b.guest len with
  | (.error e, guest) => (.error e, ⟨b.ledger, guest⟩)
  | (.ok ptr, guest) =>
    if ptr = 0 then (.error (.allocation len .null), ⟨b.ledger, guest⟩)
    else adopt ptr len ⟨b.ledger, guest⟩

/-- A handle for a range that the caller looks after. -/
def borrow (ptr len : UInt32) : PlainAction σ Handle := fun b =>
  match GuestAllocator.epoch b.guest with
  | (epoch, guest) => (.ok ⟨b.ledger.nextId, ptr, len, false, epoch⟩, ⟨b.ledger.issue, guest⟩)

/-- The same handle at the epoch of the memory now, if it is not gone and lies in the memory. -/
def refresh (h : Handle) : PlainAction σ Handle := fun b =>
  if h.owned ∧ h.id ∈ b.ledger.gone then (.error (.doubleFree h.id h.ptr), b)
  else if GuestAllocator.memoryLength b.guest < h.stop then
    (.error (.outOfBounds h.ptr.toNat h.len.toNat (GuestAllocator.memoryLength b.guest)), b)
  else
    match GuestAllocator.epoch b.guest with
    | (epoch, guest) => (.ok { h with epoch }, ⟨b.ledger.restamp { h with epoch }, guest⟩)

/-- Gives a handle back. Nothing happens to one that is not owned. -/
def release (h : Handle) : PlainAction σ Unit := fun b =>
  if h.owned = false then (.ok (), b)
  else if h.id ∈ b.ledger.gone then (.error (.doubleFree h.id h.ptr), b)
  else
    match GuestAllocator.epoch b.guest with
    | (epoch, guest) =>
      if h.epoch ≠ epoch then
        (.error (.danglingHandle h.id h.ptr h.epoch epoch), ⟨b.ledger, guest⟩)
      else
        match GuestAllocator.free guest h.ptr h.len with
        | (result, guest) => (result, ⟨b.ledger.settle h, guest⟩)

/-- Refreshes a handle and gives it back. -/
def refreshRelease (h : Handle) : PlainAction σ Unit := fun b =>
  match refresh h b with
  | (.ok h, b) => release h b
  | (.error e, b) => (.error e, b)

/-- Gives some handles back, one after the other. One that cannot be given back is dropped, and the
first error is kept. -/
def releaseEach : List Handle → Option BindError → PlainAction σ Unit
  | [], none, b => (.ok (), b)
  | [], some e, b => (.error e, b)
  | h :: rest, first?, b =>
    match refreshRelease h b with
    | (.ok _, b) => releaseEach rest first? b
    | (.error e, b) =>
      releaseEach rest (first?.or (some e)) { b with ledger := b.ledger.drop h.id }

/-- Gives back everything that is outstanding, newest first. -/
def releaseAll : PlainAction σ Unit := fun b => releaseEach b.ledger.outstanding none b

end PlainLedger

/-! ### Sessions -/

/-- A step of a caller. A handle is named by how many copies of handles were issued after it. -/
inductive LedgerOp (σ : Type) where
  | allocate (len : UInt32)
  | adopt (ptr len : UInt32)
  | borrow (ptr len : UInt32)
  | refresh (copy : Nat)
  | release (copy : Nat)
  | releaseAll
  /-- The guest changes on its own: its memory, its epoch, and how it will answer. -/
  | disturb (change : σ → σ)

/-- What carries out the steps of a caller over a guest, on books of some form. -/
structure Keeper (σ β : Type) where
  allocate : UInt32 → β → Except BindError Handle × β
  adopt : UInt32 → UInt32 → β → Except BindError Handle × β
  borrow : UInt32 → UInt32 → β → Except BindError Handle × β
  refresh : Handle → β → Except BindError Handle × β
  release : Handle → β → Except BindError Unit × β
  releaseAll : β → Except BindError Unit × β
  disturb : (σ → σ) → β → β

/-- A session so far: the books, every copy of a handle that was issued, and every answer that was
given, last ones first. -/
structure Session (β : Type) where
  books : β
  copies : List Handle
  answers : List (Except BindError (Option Handle))

namespace Session

variable {β : Type}

/-- The session after an answer that issues a handle, if it does. -/
def issue (s : Session β) : Except BindError Handle × β → Session β
  | (.ok h, books) => ⟨books, h :: s.copies, .ok (some h) :: s.answers⟩
  | (.error e, books) => ⟨books, s.copies, .error e :: s.answers⟩

/-- The session after an answer without a handle. -/
def answer (s : Session β) : Except BindError Unit × β → Session β
  | (.ok _, books) => ⟨books, s.copies, .ok none :: s.answers⟩
  | (.error e, books) => ⟨books, s.copies, .error e :: s.answers⟩

end Session

namespace Keeper

variable {σ β : Type}

/-- The session after one more step. A step about a handle that was never issued does nothing. -/
def step (k : Keeper σ β) (s : Session β) : LedgerOp σ → Session β
  | .allocate len => s.issue (k.allocate len s.books)
  | .adopt ptr len => s.issue (k.adopt ptr len s.books)
  | .borrow ptr len => s.issue (k.borrow ptr len s.books)
  | .refresh copy =>
    match s.copies[copy]? with
    | some h => s.issue (k.refresh h s.books)
    | none => s
  | .release copy =>
    match s.copies[copy]? with
    | some h => s.answer (k.release h s.books)
    | none => s
  | .releaseAll => s.answer (k.releaseAll s.books)
  | .disturb change => { s with books := k.disturb change s.books }

/-- The session of some steps, from some books on. -/
def run (k : Keeper σ β) (books : β) (ops : List (LedgerOp σ)) : Session β :=
  ops.foldl k.step ⟨books, [], []⟩

end Keeper

variable {σ : Type} [GuestAllocator σ]

/-- The ledger of a watched guest. -/
def Ledger.keeper : Keeper σ (Books (Watched σ)) where
  allocate := Ledger.allocate
  adopt := Ledger.adopt
  borrow := Ledger.borrow
  refresh := Ledger.refresh
  release := Ledger.release
  releaseAll := Ledger.releaseAll
  disturb change b := ⟨b.ledger, b.guest.moveTo (change b.guest.guest)⟩

/-- The plain ledger of a watched guest. -/
def PlainLedger.keeper : Keeper σ (PlainBooks (Watched σ)) where
  allocate := PlainLedger.allocate
  adopt := PlainLedger.adopt
  borrow := PlainLedger.borrow
  refresh := PlainLedger.refresh
  release := PlainLedger.release
  releaseAll := PlainLedger.releaseAll
  disturb change b := ⟨b.ledger, b.guest.moveTo (change b.guest.guest)⟩

/-- A session of a caller with an empty ledger over a guest. -/
def Ledger.session (guest : σ) (ops : List (LedgerOp σ)) : Session (Books (Watched σ)) :=
  Ledger.keeper.run ⟨.empty, guest, []⟩ ops

/-- A session of a caller with an empty plain ledger over a guest. -/
def PlainLedger.session (guest : σ) (ops : List (LedgerOp σ)) : Session (PlainBooks (Watched σ)) :=
  PlainLedger.keeper.run ⟨.empty, guest, []⟩ ops

end GuestCall
