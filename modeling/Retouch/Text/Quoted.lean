import Retouch.Text.Printable

/-!
# Quoted text

Two ways to write a text between double quotes. A *listing* is for readers: what cannot be seen, and
what would join the character before it, is written by its code point. A *JSON string* is for
programs: only what the format forbids inside quotes is escaped.
-/

namespace Retouch.Text

/-- A code point in lower-case hexadecimal, without leading zeros. -/
def hex (n : Nat) : List Char :=
  Nat.toDigits 16 n

/-- How a listing writes one character. -/
def listingChar (c : Char) : List Char :=
  if c = '\x00' then ['\\', '0']
  else if c = '\t' then ['\\', 't']
  else if c = '\r' then ['\\', 'r']
  else if c = '\n' then ['\\', 'n']
  else if c = '\\' then ['\\', '\\']
  else if c = '"' then ['\\', '"']
  else if isPlain c then [c]
  else ['\\', 'u', '\x7b'] ++ hex c.toNat ++ ['\x7d']

/-- A text between quotes as a listing shows it. -/
def listing (text : String) : String :=
  String.ofList ('"' :: (text.toList.flatMap listingChar ++ ['"']))

/-- A listing of several items between brackets. -/
def listingList (items : List String) : String :=
  "[" ++ ", ".intercalate items ++ "]"

/-- A listing of a value that may be absent. -/
def listingOption : Option String → String
  | none => "None"
  | some item => "Some(" ++ item ++ ")"

/-- How a JSON string writes one character. -/
def jsonChar (c : Char) : List Char :=
  if c = '"' then ['\\', '"']
  else if c = '\\' then ['\\', '\\']
  else if c = '\n' then ['\\', 'n']
  else if c = '\r' then ['\\', 'r']
  else if c = '\t' then ['\\', 't']
  else if c = '\x08' then ['\\', 'b']
  else if c = '\x0c' then ['\\', 'f']
  else if c.toNat < 0x20 then
    ['\\', 'u', '0', '0'] ++ (if c.toNat < 0x10 then ['0'] else []) ++ hex c.toNat
  else [c]

/-- A text as a JSON string. -/
def jsonString (text : String) : String :=
  String.ofList ('"' :: (text.toList.flatMap jsonChar ++ ['"']))

end Retouch.Text
