/-
# The shortest decimal of a float

A float is a value together with the interval of rationals that round to it. Its text is the
decimal with the fewest digits inside that interval; of two with equally few digits the one nearer
to the value, and the upper one when both are equally near. The search goes from coarse powers of
ten to fine ones, and on each grid only the two neighbours of the value can be the answer: if a
point of the grid lies in the interval then so does one of them.

Key definitions:
* `Decimal`: digits and a power of ten, written positionally by `Decimal.positional`;
* `Rounding`: a value and the interval that rounds to it, over one denominator;
* `Rounding.shortest`: the shortest decimal inside the interval.
-/

namespace GuestCall

/-- The number `digits * 10 ^ exponent`. -/
structure Decimal where
  digits : Nat
  exponent : Int
  deriving DecidableEq, Repr

namespace Decimal

/-- The same number without trailing zeros among its digits; `fuel` bounds their count. -/
def trim : Nat → Decimal → Decimal
  | 0, d => d
  | fuel + 1, d =>
    if d.digits ≠ 0 ∧ d.digits % 10 = 0 then trim fuel ⟨d.digits / 10, d.exponent + 1⟩ else d

/-- The number in positional notation: never an exponent, and no point in an integer. -/
def positional (d : Decimal) : String :=
  let text := (Nat.toDigits 10 d.digits)
  match d.exponent with
  | .ofNat zeros => String.ofList (text ++ List.replicate zeros '0')
  | .negSucc n =>
    let places := n + 1
    let padded := List.replicate (places + 1 - text.length) '0' ++ text
    let whole := padded.length - places
    String.ofList (padded.take whole ++ '.' :: padded.drop whole)

end Decimal

/-- A positive value `value / den` and the interval from `low / den` to `high / den` of the
rationals that round to it, with both ends when `closed`. -/
structure Rounding where
  low : Nat
  value : Nat
  high : Nat
  den : Nat
  closed : Bool
  deriving DecidableEq, Repr

namespace Rounding

/-- A number over the denominator `den`, both scaled so that they are natural numbers: the pair of
the scaled decimal and the scale of the interval's ends. -/
def scale (r : Rounding) (d : Decimal) : Nat × Nat :=
  match d.exponent with
  | .ofNat n => (d.digits * Nat.pow 10 n * r.den, 1)
  | .negSucc n => (d.digits * r.den, Nat.pow 10 (n + 1))

/-- Whether a decimal rounds to the value. -/
def contains (r : Rounding) (d : Decimal) : Bool :=
  let (number, unit) := r.scale d
  if r.closed then r.low * unit ≤ number && number ≤ r.high * unit
  else r.low * unit < number && number < r.high * unit

/-- The greatest multiple of `10 ^ exponent` that is not above the value. -/
def below (r : Rounding) (exponent : Int) : Decimal :=
  match exponent with
  | .ofNat n => ⟨r.value / (r.den * Nat.pow 10 n), exponent⟩
  | .negSucc n => ⟨r.value * Nat.pow 10 (n + 1) / r.den, exponent⟩

/-- How far a decimal is from the value, in units that only depend on its exponent. -/
def distance (r : Rounding) (d : Decimal) : Nat :=
  let (number, unit) := r.scale d
  max number (r.value * unit) - min number (r.value * unit)

/-- The neighbour of the value on one grid that rounds to it, the nearer one if both do, and the
upper one if both are equally near. -/
def onGrid? (r : Rounding) (exponent : Int) : Option Decimal :=
  let lower := r.below exponent
  let upper : Decimal := ⟨lower.digits + 1, exponent⟩
  match r.contains lower, r.contains upper with
  | true, true => some (if r.distance lower < r.distance upper then lower else upper)
  | true, false => some lower
  | false, true => some upper
  | false, false => none

/-- The first hit from the grid `10 ^ exponent` down; `grids` bounds their count. -/
def search (r : Rounding) : Nat → Int → Decimal
  | 0, exponent => r.below exponent
  | grids + 1, exponent =>
    match r.onGrid? exponent with
    | some d => d
    | none => r.search grids (exponent - 1)

/-- An exponent whose power of ten is above the interval: a binary digit is worth less than
0.30103 decimal ones. -/
def start (r : Rounding) : Int :=
  ((r.high.log2 : Int) + 1 - r.den.log2) * 30103 / 100000 + 2

/-- The decimal with the fewest digits that rounds to the value. A grid finer than seventeen
digits has a point in the interval of every double. -/
def shortest (r : Rounding) : Decimal := (r.search 24 r.start).trim 24

end Rounding

end GuestCall
