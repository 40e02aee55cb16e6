import Retouch.Toml.Quoted
import Retouch.Toml.Value

/-!
# Numbers, truth values and dates of TOML

Every value that is neither a string nor a collection is one word of letters, digits and the signs
`+ - . : _`. A word is a truth value, an integer, a float or a date and time, and each kind has a
grammar of its own:

* integers in base 10 without leading zeros, or unsigned in base 16, 8 and 2; single underscores
  between digits do not count, and the value fits 64 bits with a sign;
* floats as integers with a fraction or an exponent, and the special values `inf` and `nan`; a float
  beyond the largest number is refused, while below the smallest one it is an infinity;
* dates and times. A blank may divide date and time in place of the `T`, so such a value is two
  words.
-/

namespace Retouch.Toml

/-- Characters of a word. -/
def isWordChar (c : Char) : Bool :=
  c.isAlphanum || c = '+' || c = '-' || c = '.' || c = ':' || c = '_'

/-! ## Digits -/

/-- Digits of a base with single underscores between them; gives them without the underscores. -/
def digitsIn? (isBaseDigit : Char → Bool) : List Char → Option (List Char)
  | [] => none
  | [c] => if isBaseDigit c then some [c] else none
  | c :: '_' :: rest => if isBaseDigit c then (digitsIn? isBaseDigit rest).map (c :: ·) else none
  | c :: rest => if isBaseDigit c then (digitsIn? isBaseDigit rest).map (c :: ·) else none

/-- Decimal digits, possibly with leading zeros. -/
def decimalDigits? : List Char → Option (List Char) :=
  digitsIn? Char.isDigit

/-- Decimal digits without leading zeros. -/
def plainDigits? (word : List Char) : Option (List Char) :=
  match word with
  | ['0'] => some ['0']
  | '0' :: _ => none
  | _ => decimalDigits? word

/-- The number that digits of a base stand for. -/
def numberOf (base : Nat) (digits : List Char) : Nat :=
  digits.foldl (fun number digit => base * number + (hexValue? digit).getD 0) 0

/-- Splits off a sign; the first part says whether it is a minus. -/
def splitSign : List Char → Bool × List Char
  | '+' :: rest => (false, rest)
  | '-' :: rest => (true, rest)
  | word => (false, word)

/-! ## Integers -/

/-- Whether a number fits 64 bits with a sign. -/
def fitsInteger (number : Int) : Bool :=
  -9223372036854775808 ≤ number && number ≤ 9223372036854775807

/-- The integer that a word stands for. -/
def integer? (word : List Char) : Option Int := do
  let number ←
    match word with
    | '0' :: 'x' :: digits => (digitsIn? (fun c => (hexValue? c).isSome) digits).map fun ds =>
        (numberOf 16 ds : Int)
    | '0' :: 'o' :: digits => (digitsIn? (fun c => '0' ≤ c && c ≤ '7') digits).map fun ds =>
        (numberOf 8 ds : Int)
    | '0' :: 'b' :: digits => (digitsIn? (fun c => c = '0' || c = '1') digits).map fun ds =>
        (numberOf 2 ds : Int)
    | word =>
      let (negative, digits) := splitSign word
      (plainDigits? digits).map fun ds =>
        if negative then -(numberOf 10 ds : Int) else (numberOf 10 ds : Int)
  if fitsInteger number then some number else none

/-! ## Floats -/

/-- The exponent that follows an `e`. -/
def exponent? (word : List Char) : Option Int :=
  let (negative, digits) := splitSign word
  (decimalDigits? digits).map fun ds =>
    if negative then -(numberOf 10 ds : Int) else (numberOf 10 ds : Int)

/-- Splits a word at the first `e`, of either case. -/
def splitExponent (word : List Char) : List Char × Option (List Char) :=
  match word.dropWhile fun c => c ≠ 'e' && c ≠ 'E' with
  | [] => (word, none)
  | _ :: rest => (word.takeWhile fun c => c ≠ 'e' && c ≠ 'E', some rest)

/-- The float that an unsigned word with a fraction or an exponent stands for. -/
def decimal? (negative : Bool) (word : List Char) : Option Decimal.Binary := do
  let (front, exponentText) := splitExponent word
  let exponent ←
    match exponentText with
    | some text => exponent? text
    | none => some 0
  let whole := front.takeWhile (· ≠ '.')
  let wholeDigits ← plainDigits? whole
  let fraction ←
    match front.dropWhile (· ≠ '.') with
    | [] => if exponentText.isSome then some [] else none
    | _ :: digits => decimalDigits? digits
  let digits := wholeDigits ++ fraction
  let count := (digits.dropWhile (· = '0')).length
  some (.ofDecimal negative (numberOf 10 digits) count (exponent - fraction.length))

/-- The float that a word stands for. -/
def float? (word : List Char) : Option Decimal.Binary :=
  let (negative, rest) := splitSign word
  if rest = "inf".toList then some (.infinite negative)
  else if rest = "nan".toList then some .nan
  else
    match decimal? negative rest with
    | some (.infinite false) => none
    | number => number

/-! ## Words -/

/-- The value that a word stands for. -/
def wordValue? (word : List Char) : Option Value :=
  if word = "true".toList then some (.boolean true)
  else if word = "false".toList then some (.boolean false)
  else
    match Datetime.ofChars? word with
    | some datetime => some (.datetime datetime)
    | none =>
      match float? word with
      | some number => some (.float number)
      | none => (integer? word).map .integer

/-- A value that is a word, or a date and a time with a blank between them. -/
def readWord (text : List Char) : Option (Value × List Char) :=
  let word := text.takeWhile isWordChar
  let rest := text.dropWhile isWordChar
  match readDate? word, rest with
  | some (_, []), ' ' :: more =>
    match Datetime.ofChars? (word ++ ' ' :: more.takeWhile isWordChar) with
    | some datetime => some (.datetime datetime, more.dropWhile isWordChar)
    | none => (wordValue? word).map (·, rest)
  | _, _ => (wordValue? word).map (·, rest)

end Retouch.Toml
