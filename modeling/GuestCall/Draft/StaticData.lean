/-
# Static data

Constant bytes that a guest carries. Bytes that were placed before are found again, so equal bytes
have one place, and new ones go behind all others.

Key definitions:
* `StaticData`, with `StaticData.stop`;
* `StaticData.intern`, the place of some bytes.
-/
import GuestCall.Draft.Layout

namespace GuestCall

/-- A range of the memory of a guest. -/
structure Span where
  ptr : Nat
  len : Nat
  deriving DecidableEq

/-- The constant bytes of a guest, from `dataStart` on. -/
structure StaticData where
  contents : List UInt8
  /-- Where which bytes were placed, last ones first. -/
  places : List (List UInt8 × Nat)
  deriving DecidableEq

namespace StaticData

/-- No data. -/
def empty : StaticData := ⟨[], []⟩

/-- One past the last byte of the data. -/
def stop (d : StaticData) : Nat := dataStart + d.contents.length

/-- Where some bytes were placed. -/
def find? (d : StaticData) (bytes : List UInt8) : Option Nat :=
  (d.places.find? fun p => p.1 == bytes).map fun p => p.2

/-- The place of some bytes, and the data that has them. -/
def intern (d : StaticData) (bytes : List UInt8) : Span × StaticData :=
  match d.find? bytes with
  | some ptr => (⟨ptr, bytes.length⟩, d)
  | none => (⟨d.stop, bytes.length⟩, ⟨d.contents ++ bytes, (bytes, d.stop) :: d.places⟩)

/-- The place of a text. -/
def internText (d : StaticData) (text : String) : Span × StaticData :=
  d.intern text.toUTF8.data.toList

end StaticData

end GuestCall
