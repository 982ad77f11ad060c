/-
# Hexadecimal text

Addresses are written with a `0x` mark and no leading zeros, digests as two digits a byte; the
digits above nine are lower-case letters.
-/

namespace GuestCall.Hex

/-- The digit of a number below sixteen. -/
def digit (n : Nat) : Char := Nat.digitChar n

/-- A number in base sixteen without leading zeros. -/
def ofNat (n : Nat) : String := String.ofList (Nat.toDigits 16 n)

/-- An address or an offset: a number with the mark of its base. -/
def address (n : Nat) : String := "0x" ++ ofNat n

/-- Two digits for one byte. -/
def byte (b : UInt8) : List Char := [digit (b.toNat / 16), digit (b.toNat % 16)]

/-- Two digits for every byte. -/
def bytes (b : ByteArray) : String := String.ofList (b.data.toList.flatMap byte)

end GuestCall.Hex
