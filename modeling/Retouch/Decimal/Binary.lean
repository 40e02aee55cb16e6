/-!
# Binary floating-point numbers

A double-precision number is `mantissa · 2 ^ exponent`, with a mantissa below `2 ^ 53` and an
exponent of at least `-1074`; it also has infinities and one value that is no number. A decimal is
read as the nearest such number, and of two that are equally near as the one with an even mantissa.
All of it is arithmetic on natural numbers, so no rounding of the machine takes part.
-/

namespace Retouch.Decimal

/-- A double-precision number. -/
inductive Binary where
  /-- Not a number. -/
  | nan
  /-- An infinity. -/
  | infinite (negative : Bool)
  /-- `mantissa · 2 ^ exponent`, with a sign. -/
  | finite (negative : Bool) (mantissa : Nat) (exponent : Int)
deriving DecidableEq, Repr, Inhabited

namespace Binary

/-- The mantissas of all numbers are below this one. -/
def mantissaBound : Nat := Nat.pow 2 53

/-- The least exponent. -/
def leastExponent : Int := -1074

/-- The greatest exponent. -/
def greatestExponent : Int := 971

/-- The quotient rounded to the nearest natural number, a half to the even neighbour. -/
def roundDiv (numerator denominator : Nat) : Nat :=
  let quotient := numerator / denominator
  let rest := numerator % denominator
  if 2 * rest < denominator then quotient
  else if denominator < 2 * rest then quotient + 1
  else if quotient % 2 = 0 then quotient
  else quotient + 1

/-- `numerator / (denominator · 2 ^ exponent)` rounded to a natural number. -/
def scaled (numerator denominator : Nat) (exponent : Int) : Nat :=
  if 0 ≤ exponent then roundDiv numerator (denominator * Nat.pow 2 exponent.toNat)
  else roundDiv (numerator * Nat.pow 2 (-exponent).toNat) denominator

/-- Whether `numerator / (denominator · 2 ^ exponent)` is at least `2 ^ 53`. -/
def overflows (numerator denominator : Nat) (exponent : Int) : Bool :=
  if 0 ≤ exponent then mantissaBound * (denominator * Nat.pow 2 exponent.toNat) ≤ numerator
  else mantissaBound * denominator ≤ numerator * Nat.pow 2 (-exponent).toNat

/-- The number nearest to a positive fraction. -/
def ofFraction (negative : Bool) (numerator denominator : Nat) : Binary :=
  let guess : Int := (Nat.log2 numerator : Int) - (Nat.log2 denominator : Int) - 53
  let exponent := if overflows numerator denominator guess then guess + 1 else guess
  let exponent := max exponent leastExponent
  let mantissa := scaled numerator denominator exponent
  let (mantissa, exponent) :=
    if mantissa = mantissaBound then (mantissa / 2, exponent + 1) else (mantissa, exponent)
  if greatestExponent < exponent then .infinite negative else .finite negative mantissa exponent

/-- The number nearest to `digits · 10 ^ power`, where `digits` is written with `count` digits, not
counting leading zeros. Powers so far out that the result is an infinity or zero anyway are not
computed. -/
def ofDecimal (negative : Bool) (digits count : Nat) (power : Int) : Binary :=
  if digits = 0 then .finite negative 0 leastExponent
  else if 400 < power + count then .infinite negative
  else if power + count < -400 then .finite negative 0 leastExponent
  else if 0 ≤ power then ofFraction negative (digits * Nat.pow 10 power.toNat) 1
  else ofFraction negative digits (Nat.pow 10 (-power).toNat)

end Binary

end Retouch.Decimal
