/-!
# Dates and times of TOML

A datetime is a date that the calendar has, a time of day up to a leap second, or both with an
offset from universal time or without. Its text can be written in several ways, with either case of
the letters, with a blank between date and time, and with any number of digits for the fraction of a
second (`Datetime.ofChars?`). Shown again it has one form, with nine digits of the fraction at most
and no zeros at its end (`Datetime.text`).
-/

namespace Retouch.Toml

/-- A day of the calendar. -/
structure Date where
  year : Nat
  month : Nat
  day : Nat
deriving DecidableEq, Repr, Inhabited

/-- A time of day. -/
structure Time where
  hour : Nat
  minute : Nat
  second : Nat
  nanosecond : Nat
deriving DecidableEq, Repr, Inhabited

/-- How far a time is ahead of universal time. -/
inductive Offset where
  /-- The time is universal time by name. -/
  | universal
  /-- The time is ahead by a number of minutes. -/
  | minutes (count : Int)
deriving DecidableEq, Repr, Inhabited

/-- A date, a time, or both. -/
inductive Datetime where
  | day (date : Date)
  | clock (time : Time)
  | moment (date : Date) (time : Time) (offset : Option Offset)
deriving DecidableEq, Repr, Inhabited

/-! ## Reading -/

/-- The number that decimal digits stand for. -/
def decimalNumber (digits : List Char) : Nat :=
  digits.foldl (fun number digit => 10 * number + (digit.toNat - '0'.toNat)) 0

/-- Exactly `count` digits at the start, as a number, and the rest. -/
def fixedDigits? (count : Nat) (word : List Char) : Option (Nat × List Char) :=
  let digits := word.take count
  if digits.length = count && digits.all Char.isDigit then
    some (decimalNumber digits, word.drop count)
  else none

/-- Drops a sign of punctuation. -/
def drop? (c : Char) : List Char → Option (List Char)
  | d :: rest => if d = c then some rest else none
  | [] => none

/-- The days of a month. -/
def daysIn (year month : Nat) : Nat :=
  if month = 2 then if year % 4 = 0 && (year % 100 ≠ 0 || year % 400 = 0) then 29 else 28
  else if month = 4 || month = 6 || month = 9 || month = 11 then 30
  else 31

/-- A date at the start of a word, and the rest. -/
def readDate? (word : List Char) : Option (Date × List Char) := do
  let (year, rest) ← fixedDigits? 4 word
  let rest ← drop? '-' rest
  let (month, rest) ← fixedDigits? 2 rest
  let rest ← drop? '-' rest
  let (day, rest) ← fixedDigits? 2 rest
  if 1 ≤ month && month ≤ 12 && 1 ≤ day && day ≤ daysIn year month then
    some (⟨year, month, day⟩, rest)
  else none

/-- Hours and minutes at the start of a word, and the rest. -/
def readHourMinute? (word : List Char) : Option ((Nat × Nat) × List Char) := do
  let (hour, rest) ← fixedDigits? 2 word
  let rest ← drop? ':' rest
  let (minute, rest) ← fixedDigits? 2 rest
  if hour ≤ 23 && minute ≤ 59 then some ((hour, minute), rest) else none

/-- The nanoseconds that the digits of a fraction stand for; digits beyond the ninth do not count.
-/
def nanosecondsOf (digits : List Char) : Nat :=
  decimalNumber (digits.take 9 ++ List.replicate (9 - digits.length) '0')

/-- A time of day at the start of a word, and the rest. -/
def readTime? (word : List Char) : Option (Time × List Char) := do
  let ((hour, minute), rest) ← readHourMinute? word
  let rest ← drop? ':' rest
  let (second, rest) ← fixedDigits? 2 rest
  if second ≤ 60 then
    match rest with
    | '.' :: fraction =>
      let digits := fraction.takeWhile Char.isDigit
      if digits = [] then none
      else some (⟨hour, minute, second, nanosecondsOf digits⟩, fraction.dropWhile Char.isDigit)
    | rest => some (⟨hour, minute, second, 0⟩, rest)
  else none

/-- The offset that the whole of a word stands for; the empty word is no offset. -/
def readOffset? : List Char → Option (Option Offset)
  | [] => some none
  | ['Z'] | ['z'] => some (some .universal)
  | sign :: rest =>
    if sign = '+' || sign = '-' then
      match readHourMinute? rest with
      | some ((hours, minutes), []) =>
        let count : Int := 60 * hours + minutes
        some (some (.minutes (if sign = '-' then -count else count)))
      | _ => none
    else none

/-- The datetime that the whole of a text stands for. -/
def Datetime.ofChars? (text : List Char) : Option Datetime :=
  match readDate? text with
  | some (date, []) => some (.day date)
  | some (date, c :: rest) =>
    if c = 'T' || c = 't' || c = ' ' then do
      let (time, rest) ← readTime? rest
      let offset ← readOffset? rest
      some (.moment date time offset)
    else none
  | none =>
    match readTime? text with
    | some (time, []) => some (.clock time)
    | _ => none

/-! ## Writing -/

/-- A number with zeros in front of it up to a width. -/
def paddedText (width number : Nat) : List Char :=
  let digits := Nat.toDigits 10 number
  List.replicate (width - digits.length) '0' ++ digits

/-- The text of a date. -/
def Date.text (date : Date) : List Char :=
  paddedText 4 date.year ++ '-' :: paddedText 2 date.month ++ '-' :: paddedText 2 date.day

/-- The text of hours and minutes. -/
def hourMinuteText (hour minute : Nat) : List Char :=
  paddedText 2 hour ++ ':' :: paddedText 2 minute

/-- The text of a time of day. -/
def Time.text (time : Time) : List Char :=
  let fraction :=
    if time.nanosecond = 0 then []
    else '.' :: ((paddedText 9 time.nanosecond).reverse.dropWhile (· = '0')).reverse
  hourMinuteText time.hour time.minute ++ ':' :: paddedText 2 time.second ++ fraction

/-- The text of an offset. -/
def Offset.text : Offset → List Char
  | universal => ['Z']
  | minutes count =>
    (if count < 0 then '-' else '+') :: hourMinuteText (count.natAbs / 60) (count.natAbs % 60)

/-- The text of a datetime. -/
def Datetime.text : Datetime → String
  | day date => String.ofList date.text
  | clock time => String.ofList time.text
  | moment date time offset =>
    String.ofList (date.text ++ 'T' :: time.text ++ (offset.map Offset.text).getD [])

end Retouch.Toml
