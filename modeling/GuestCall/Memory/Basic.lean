/-
# Linear memory

A growable run of bytes, counted from zero and sized in pages. Reads and writes outside of it do
not happen; growth adds zeroed pages at the end and is refused beyond a ceiling.

Key definitions:
* `Memory`, with its view `Memory.byteAt`;
* `Memory.slice` and `Memory.write`, many bytes at once;
* `Memory.grow?`.

Key theorems: `size_write` and `size_grow`, what writing and growing do to the size.
-/
import GuestCall.Scalar.Layout

namespace GuestCall

/-- Bytes of a page. -/
def pageSize : Nat := 65536

/-- The most pages that a memory of 32-bit addresses can have. -/
def pageCeiling : Nat := 65536

/-- A growable run of bytes. -/
structure Memory where
  bytes : ByteArray
  /-- The most pages it may grow to, if there is a limit. -/
  ceiling? : Option Nat

namespace Memory

/-- One zeroed page. -/
def zeroPage : ByteArray := ⟨Array.replicate pageSize 0⟩

/-- Some bytes with zeroed pages after them. -/
def appendPages (bytes : ByteArray) : Nat → ByteArray
  | 0 => bytes
  | pages + 1 => appendPages (bytes ++ zeroPage) pages

/-- A zeroed memory. There is room for all its pages from the start. -/
def zeroed (pages : Nat) (ceiling? : Option Nat) : Memory :=
  ⟨appendPages (.emptyWithCapacity (pages * pageSize)) pages, ceiling?⟩

/-- How many bytes there are. -/
def size (m : Memory) : Nat := m.bytes.size

/-- How many whole pages there are. -/
def pages (m : Memory) : Nat := m.size / pageSize

/-- The byte at an address, and zero where there is none. -/
def byteAt (m : Memory) (i : Nat) : UInt8 := if h : i < m.bytes.size then m.bytes[i] else 0

/-- The bytes of a range, as many of them as there are. -/
def slice (m : Memory) (start length : Nat) : ByteArray := m.bytes.extract start (start + length)

/-- The memory with some bytes in place of those from an address on; nothing happens where they
do not fit. -/
def write (m : Memory) (start : Nat) (source : ByteArray) : Memory :=
  if start + source.size ≤ m.bytes.size then
    { m with bytes := source.copySlice 0 m.bytes start source.size }
  else m

/-- Whether the memory may have that many pages. -/
def allows (m : Memory) (pages : Nat) : Bool :=
  match m.ceiling? with
  | some ceiling => pages ≤ ceiling
  | none => true

/-- The memory with zeroed pages at its end, unless that is beyond the ceiling. -/
def grow? (m : Memory) (extra : Nat) : Option Memory :=
  if m.allows (m.pages + extra) then some { m with bytes := appendPages m.bytes extra } else none

@[simp] theorem size_zeroPage : zeroPage.size = pageSize := by
  simp [zeroPage, ByteArray.size]

theorem size_appendPages (bytes : ByteArray) (pages : Nat) :
    (appendPages bytes pages).size = bytes.size + pages * pageSize := by
  induction pages generalizing bytes with
  | zero => simp [appendPages]
  | succ pages ih =>
    simp only [appendPages, ih, ByteArray.size_append, size_zeroPage, Nat.add_mul, Nat.one_mul]
    omega

@[simp] theorem size_zeroed (pages : Nat) (ceiling? : Option Nat) :
    (zeroed pages ceiling?).size = pages * pageSize :=
  (size_appendPages _ pages).trans (Nat.zero_add _)

@[simp] theorem size_write (m : Memory) (start : Nat) (source : ByteArray) :
    (m.write start source).size = m.size := by
  obtain ⟨⟨data⟩, ceiling?⟩ := m
  unfold write
  split
  · rename_i h
    change (source.copySlice 0 ⟨data⟩ start source.size).size = data.size
    simp only [ByteArray.size, ByteArray.copySlice, Array.size_append, Array.size_extract] at *
    omega
  · rfl

theorem grow?_eq_some {m m' : Memory} {extra : Nat} : m.grow? extra = some m' ↔
    m.allows (m.pages + extra) = true ∧ { m with bytes := appendPages m.bytes extra } = m' := by
  simp [grow?]

theorem size_grow {m m' : Memory} {extra : Nat} (h : m.grow? extra = some m') :
    m'.size = m.size + extra * pageSize := by
  obtain ⟨-, rfl⟩ := grow?_eq_some.mp h
  exact size_appendPages _ _

end Memory

end GuestCall
