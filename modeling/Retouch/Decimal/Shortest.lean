import Retouch.Decimal.Binary

/-!
# Shortest decimals

The text of a double-precision number is the decimal with the fewest digits among those that are
read back as the same number, and the nearest to it among these; of two that are equally near it is
the greater one. It is written positionally, without an exponent, and always with a point
(`Binary.text`).

The numbers that are read back as `m · 2 ^ e` form an interval around it, which reaches half-way to
its neighbours and includes its ends when `m` is even. For one digit, two digits and so on, the two
neighbours of the number on that decimal grid are tested against the interval.
-/

namespace Retouch.Decimal

/-- A positive fraction with the interval of the fractions that round to it, all over one
denominator. -/
structure Interval where
  low : Nat
  value : Nat
  high : Nat
  denominator : Nat
  /-- Whether the ends belong to the interval. -/
  closed : Bool
deriving DecidableEq, Repr, Inhabited

namespace Interval

/-- The interval of the numbers that are read back as `mantissa · 2 ^ exponent`. Below a power of
two the neighbours are twice as dense, so the interval reaches only half as far down. -/
def ofBinary (mantissa : Nat) (exponent : Int) : Interval :=
  let down := if mantissa = Nat.pow 2 52 && Binary.leastExponent < exponent then 1 else 2
  let shift := exponent - 2
  let factor := Nat.pow 2 shift.toNat
  { low := (4 * mantissa - down) * factor
    value := 4 * mantissa * factor
    high := (4 * mantissa + 2) * factor
    denominator := Nat.pow 2 (-shift).toNat
    closed := mantissa % 2 = 0 }

/-- Whether `digits · 10 ^ power` is in the interval. -/
def contains (interval : Interval) (digits : Nat) (power : Int) : Bool :=
  let number := digits * Nat.pow 10 power.toNat * interval.denominator
  let scale := Nat.pow 10 (-power).toNat
  if interval.closed then interval.low * scale ≤ number && number ≤ interval.high * scale
  else interval.low * scale < number && number < interval.high * scale

/-- The number in units of `10 ^ power`, rounded down. -/
def unitsBelow (interval : Interval) (power : Int) : Nat :=
  interval.value * Nat.pow 10 (-power).toNat / (interval.denominator * Nat.pow 10 power.toNat)

/-- Twice the distance of the number above `digits · 10 ^ power` is at least one unit. -/
def roundsUp (interval : Interval) (digits : Nat) (power : Int) : Bool :=
  (2 * digits + 1) * Nat.pow 10 power.toNat * interval.denominator ≤
    2 * interval.value * Nat.pow 10 (-power).toNat

/-- The power of ten of the first digit. -/
def leadingPower (interval : Interval) : Int :=
  if interval.denominator ≤ interval.value then
    ((Nat.toDigits 10 (interval.value / interval.denominator)).length : Int) - 1
  else
    let count := (Nat.toDigits 10 (interval.denominator / interval.value)).length
    if interval.denominator ≤ interval.value * Nat.pow 10 (count - 1) then -((count : Int) - 1)
    else -(count : Int)

/-- The digits in units of `10 ^ power` that are in the interval and nearest to the number, the
greater ones of two that are equally near. -/
def onGrid? (interval : Interval) (power : Int) : Option Nat :=
  let below := interval.unitsBelow power
  let lower := interval.contains below power
  let upper := interval.contains (below + 1) power
  if lower && upper then some (if interval.roundsUp below power then below + 1 else below)
  else if lower then some below
  else if upper then some (below + 1)
  else none

/-- The shortest digits with their power of ten, tried from `power` downwards on at most `grids`
grids. -/
def shortestFrom (interval : Interval) : (grids : Nat) → (power : Int) → Nat × Int
  | 0, power => (interval.unitsBelow power, power)
  | grids + 1, power =>
    match interval.onGrid? power with
    | some digits => (digits, power)
    | none => shortestFrom interval grids (power - 1)

/-- The shortest digits with their power of ten. Seventeen digits are always enough; the grid above
the first digit comes first, for a number just below a power of ten. -/
def shortest (interval : Interval) : Nat × Int :=
  shortestFrom interval 18 (interval.leadingPower + 1)

end Interval

/-- `digits · 10 ^ power` written with a point and no exponent. -/
def positional (digits : Nat) (power : Int) : String :=
  let text := Nat.toDigits 10 digits
  if 0 ≤ power then String.ofList (text ++ List.replicate power.toNat '0') ++ ".0"
  else
    let places := (-power).toNat
    let padded := List.replicate (places + 1 - text.length) '0' ++ text
    String.ofList (padded.take (padded.length - places)) ++ "." ++
      String.ofList (padded.drop (padded.length - places))

/-- The text of a number. -/
def Binary.text : Binary → String
  | .nan => "NaN"
  | .infinite negative => if negative then "-inf" else "inf"
  | .finite negative mantissa exponent =>
    let sign := if negative then "-" else ""
    if mantissa = 0 then sign ++ "0.0"
    else
      let (digits, power) := (Interval.ofBinary mantissa exponent).shortest
      sign ++ positional digits power

end Retouch.Decimal
