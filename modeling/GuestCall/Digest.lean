/-
# Content digest

The SHA-256 digest of some bytes, which names a module by its contents. The message is read in
blocks of sixteen words through a padding that is computed and never stored: a one bit, zeros, and
the length of the message in bits.

Key definitions:
* `Digest.sha256`, the eight words of the digest;
* `contentDigest`, their text.
-/
import GuestCall.Text.Hex

namespace GuestCall

namespace Digest

/-- The constants added in the rounds: fractional digits of cube roots of primes. -/
def roundConstants : Array UInt32 := #[
   0x428a2f98, 0x71374491, 0xb5c0fbcf, 0xe9b5dba5, 0x3956c25b, 0x59f111f1, 0x923f82a4, 0xab1c5ed5,
   0xd807aa98, 0x12835b01, 0x243185be, 0x550c7dc3, 0x72be5d74, 0x80deb1fe, 0x9bdc06a7, 0xc19bf174,
   0xe49b69c1, 0xefbe4786, 0x0fc19dc6, 0x240ca1cc, 0x2de92c6f, 0x4a7484aa, 0x5cb0a9dc, 0x76f988da,
   0x983e5152, 0xa831c66d, 0xb00327c8, 0xbf597fc7, 0xc6e00bf3, 0xd5a79147, 0x06ca6351, 0x14292967,
   0x27b70a85, 0x2e1b2138, 0x4d2c6dfc, 0x53380d13, 0x650a7354, 0x766a0abb, 0x81c2c92e, 0x92722c85,
   0xa2bfe8a1, 0xa81a664b, 0xc24b8b70, 0xc76c51a3, 0xd192e819, 0xd6990624, 0xf40e3585, 0x106aa070,
   0x19a4c116, 0x1e376c08, 0x2748774c, 0x34b0bcb5, 0x391c0cb3, 0x4ed8aa4a, 0x5b9cca4f, 0x682e6ff3,
   0x748f82ee, 0x78a5636f, 0x84c87814, 0x8cc70208, 0x90befffa, 0xa4506ceb, 0xbef9a3f7, 0xc67178f2]

/-- The eight words carried from block to block. -/
structure Chain where
  a : UInt32
  b : UInt32
  c : UInt32
  d : UInt32
  e : UInt32
  f : UInt32
  g : UInt32
  h : UInt32

/-- The words before the first block: fractional digits of square roots of primes. -/
def initial : Chain :=
  ⟨0x6a09e667, 0xbb67ae85, 0x3c6ef372, 0xa54ff53a,
   0x510e527f, 0x9b05688c, 0x1f83d9ab, 0x5be0cd19⟩

/-- A word turned to the right. -/
def rotate (x n : UInt32) : UInt32 := x >>> n ||| x <<< (32 - n)

/-- How many blocks the padded form of a message of `size` bytes has. -/
def blockCount (size : Nat) : Nat := (size + 8) / 64 + 1

/-- One byte of the padded form of a message. -/
def paddedByte (message : ByteArray) (i : Nat) : UInt32 :=
  if h : i < message.size then message[i].toUInt32
  else if i = message.size then 0x80
  else
    let fromEnd := 64 * blockCount message.size - 1 - i
    if fromEnd < 8 then ((message.size * 8) >>> (8 * fromEnd) % 256).toUInt32 else 0

/-- One big-endian word of the padded form of a message. -/
def paddedWord (message : ByteArray) (i : Nat) : UInt32 :=
  paddedByte message (4 * i) <<< 24 ||| paddedByte message (4 * i + 1) <<< 16 |||
    paddedByte message (4 * i + 2) <<< 8 ||| paddedByte message (4 * i + 3)

/-- The word of the schedule after those computed so far. -/
def nextWord (words : Array UInt32) : UInt32 :=
  let back (n : Nat) : UInt32 := words.getD (words.size - n) 0
  let x := back 15
  let y := back 2
  back 16 + (rotate x 7 ^^^ rotate x 18 ^^^ x >>> 3) + back 7 +
    (rotate y 17 ^^^ rotate y 19 ^^^ y >>> 10)

/-- The sixty-four words that the rounds of one block use. -/
def schedule (message : ByteArray) (block : Nat) : Array UInt32 :=
  let first := Nat.fold 16 (fun i _ words => words.push (paddedWord message (16 * block + i)))
    (Array.mkEmpty 64)
  Nat.fold 48 (fun _ _ words => words.push (nextWord words)) first

/-- One round. -/
def round (s : Chain) (word constant : UInt32) : Chain :=
  let choice := s.e &&& s.f ^^^ ~~~s.e &&& s.g
  let majority := s.a &&& s.b ^^^ s.a &&& s.c ^^^ s.b &&& s.c
  let t := s.h + (rotate s.e 6 ^^^ rotate s.e 11 ^^^ rotate s.e 25) + choice + constant + word
  let u := (rotate s.a 2 ^^^ rotate s.a 13 ^^^ rotate s.a 22) + majority
  ⟨t + u, s.a, s.b, s.c, s.d + t, s.e, s.f, s.g⟩

/-- The chain after one more block. -/
def compress (message : ByteArray) (s : Chain) (block : Nat) : Chain :=
  let words := schedule message block
  let t := Nat.fold 64 (fun i _ s => round s (words.getD i 0) (roundConstants.getD i 0)) s
  ⟨s.a + t.a, s.b + t.b, s.c + t.c, s.d + t.d, s.e + t.e, s.f + t.f, s.g + t.g, s.h + t.h⟩

/-- The SHA-256 digest of a message. -/
def sha256 (message : ByteArray) : Chain :=
  Nat.fold (blockCount message.size) (fun block _ s => compress message s block) initial

/-- Eight hexadecimal digits. -/
def wordText (w : UInt32) : List Char :=
  (List.range 8).map fun i => Hex.digit (w.toNat >>> (4 * (7 - i)) % 16)

end Digest

/-- The digest of some bytes as sixty-four hexadecimal digits. -/
def contentDigest (bytes : ByteArray) : String :=
  let s := Digest.sha256 bytes
  String.ofList ([s.a, s.b, s.c, s.d, s.e, s.f, s.g, s.h].flatMap Digest.wordText)

end GuestCall
