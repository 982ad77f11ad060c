/-
# Binary floats

Floats are kept as bit patterns, so that the payload of a NaN survives every copy. What the bits
mean is decided here: equality as arithmetic sees it (a NaN differs from itself, the two zeros are
equal), and the text, which has the fewest digits that read back, never an exponent, and no point
in an integer.

Key definitions:
* `Binary32`, `Binary64`: a bit pattern of either width;
* `FloatFormat.text`: the text of a bit pattern;
* `FloatFormat.same`: equality as arithmetic sees it.
-/
import GuestCall.Decimal.Shortest

namespace GuestCall

/-- The layout of a binary float: how many bits hold the fraction and the exponent. -/
structure FloatFormat where
  fractionBits : Nat
  exponentBits : Nat

namespace FloatFormat

/-- Single precision. -/
def single : FloatFormat := ⟨23, 8⟩

/-- Double precision. -/
def double : FloatFormat := ⟨52, 11⟩

/-- The fraction field of a bit pattern. -/
def fraction (f : FloatFormat) (bits : Nat) : Nat := bits % Nat.pow 2 f.fractionBits

/-- The exponent field of a bit pattern. -/
def exponent (f : FloatFormat) (bits : Nat) : Nat :=
  bits / Nat.pow 2 f.fractionBits % Nat.pow 2 f.exponentBits

/-- The sign bit of a bit pattern. -/
def isNegative (f : FloatFormat) (bits : Nat) : Bool :=
  bits / Nat.pow 2 (f.fractionBits + f.exponentBits) % 2 == 1

/-- Whether the exponent field is the one of infinities and NaNs. -/
def isSpecial (f : FloatFormat) (bits : Nat) : Bool :=
  f.exponent bits == Nat.pow 2 f.exponentBits - 1

/-- Whether a bit pattern is a NaN. -/
def isNaN (f : FloatFormat) (bits : Nat) : Bool := f.isSpecial bits && f.fraction bits != 0

/-- Whether a bit pattern is a zero of either sign. -/
def isZero (f : FloatFormat) (bits : Nat) : Bool := f.exponent bits == 0 && f.fraction bits == 0

/-- Equality as arithmetic sees it. -/
def same (f : FloatFormat) (a b : Nat) : Bool :=
  !f.isNaN a && !f.isNaN b && (a == b || f.isZero a && f.isZero b)

/-- The value of a finite, non-zero bit pattern and what rounds to it. The neighbours of
`m * 2 ^ e` are half a unit away, except that the one below a power of two is a quarter away. -/
def rounding (f : FloatFormat) (bits : Nat) : Rounding :=
  let field := f.exponent bits
  let isNormal := field != 0
  let m := if isNormal then f.fraction bits + Nat.pow 2 f.fractionBits else f.fraction bits
  let e : Int := max (field : Int) 1 - ((Nat.pow 2 (f.exponentBits - 1) : Int) - 1) - f.fractionBits - 2
  let gap := if isNormal && f.fraction bits == 0 then 1 else 2
  let up := Nat.pow 2 e.toNat
  { low := (4 * m - gap) * up, value := 4 * m * up, high := (4 * m + 2) * up
    den := Nat.pow 2 (-e).toNat, closed := m % 2 == 0 }

/-- The text of a bit pattern: the fewest digits that read back, in positional notation. -/
def text (f : FloatFormat) (bits : Nat) : String :=
  if f.isNaN bits then "NaN"
  else
    let magnitude :=
      if f.isSpecial bits then "inf"
      else if f.isZero bits then "0"
      else (f.rounding bits).shortest.positional
    if f.isNegative bits then "-" ++ magnitude else magnitude

end FloatFormat

/-- A single-precision float, as its bit pattern. -/
structure Binary32 where
  bits : UInt32
  deriving DecidableEq, Repr

/-- A double-precision float, as its bit pattern. -/
structure Binary64 where
  bits : UInt64
  deriving DecidableEq, Repr

namespace Binary32

/-- The text of a float. -/
def text (x : Binary32) : String := FloatFormat.single.text x.bits.toNat

/-- Whether a float is a NaN. -/
def isNaN (x : Binary32) : Bool := FloatFormat.single.isNaN x.bits.toNat

/-- Equality as arithmetic sees it. -/
def same (x y : Binary32) : Bool := FloatFormat.single.same x.bits.toNat y.bits.toNat

end Binary32

namespace Binary64

/-- The text of a float. -/
def text (x : Binary64) : String := FloatFormat.double.text x.bits.toNat

/-- Whether a float is a NaN. -/
def isNaN (x : Binary64) : Bool := FloatFormat.double.isNaN x.bits.toNat

/-- Equality as arithmetic sees it. -/
def same (x y : Binary64) : Bool := FloatFormat.double.same x.bits.toNat y.bits.toNat

/-- The NaN with its quiet bit set, the form in which arithmetic hands one on. -/
def quiet (x : Binary64) : Binary64 := ⟨x.bits ||| 0x0008000000000000⟩

/-- The NaN of an operation that has no value, as zero times infinity. -/
def invalid : Binary64 := ⟨0xFFF8000000000000⟩

/-- The product, correctly rounded. An operand that is a NaN comes through quieted, the first one
where both are. -/
def mul (x y : Binary64) : Binary64 :=
  let product := Float.ofBits x.bits * Float.ofBits y.bits
  if !product.isNaN then ⟨product.toBits⟩
  else if x.isNaN then x.quiet
  else if y.isNaN then y.quiet
  else invalid

end Binary64

end GuestCall
