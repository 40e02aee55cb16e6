/-!
# Quoted strings of TOML

The four ways to write a string: between double quotes with escapes, between single quotes without,
and both over several lines between triple quotes. A reader gives a value and the text that is left;
the readers here start after the opening quotes and leave the text after the closing ones. Over
several lines, one or two quotes may stand anywhere, also right before the closing three.
-/

namespace Retouch.Toml

/-- Characters that may stand as themselves in comments and strings: all but control characters, of
which only the tab is allowed. -/
def isTextChar (c : Char) : Bool :=
  c = '\t' || (0x20 ≤ c.toNat && c.toNat ≠ 0x7F)

/-- The value of a hexadecimal digit. -/
def hexValue? (c : Char) : Option Nat :=
  if '0' ≤ c && c ≤ '9' then some (c.toNat - '0'.toNat)
  else if 'a' ≤ c && c ≤ 'f' then some (c.toNat - 'a'.toNat + 10)
  else if 'A' ≤ c && c ≤ 'F' then some (c.toNat - 'A'.toNat + 10)
  else none

/-- The number that hexadecimal digits stand for. -/
def hexNumber? (digits : List Char) : Option Nat :=
  digits.foldlM (fun number digit => (hexValue? digit).map (16 * number + ·)) 0

/-- The character with the code point that hexadecimal digits stand for. -/
def hexChar? (digits : List Char) : Option Char := do
  let number ← hexNumber? digits
  if number.isValidChar then some (Char.ofNat number) else none

/-- The character that a letter behind a backslash stands for. -/
def escapeChar? (c : Char) : Option Char :=
  match c with
  | 'b' => some '\x08'
  | 'f' => some '\x0c'
  | 'n' => some '\n'
  | 'r' => some '\r'
  | 't' => some '\t'
  | '\\' => some '\\'
  | '"' => some '"'
  | _ => none

/-- Puts a character in front of what a reader gave. -/
def push (c : Char) (reading : Option (List Char × List Char)) : Option (List Char × List Char) :=
  reading.map fun (text, rest) => (c :: text, rest)

/-- The rest of a string between double quotes. -/
def readBasic : List Char → Option (List Char × List Char)
  | [] => none
  | '"' :: rest => some ([], rest)
  | '\\' :: 'u' :: a :: b :: c :: d :: rest =>
    match hexChar? [a, b, c, d] with
    | some char => push char (readBasic rest)
    | none => none
  | '\\' :: 'U' :: a :: b :: c :: d :: e :: f :: g :: h :: rest =>
    match hexChar? [a, b, c, d, e, f, g, h] with
    | some char => push char (readBasic rest)
    | none => none
  | '\\' :: c :: rest =>
    match escapeChar? c with
    | some char => push char (readBasic rest)
    | none => none
  | c :: rest => if isTextChar c && c ≠ '\\' then push c (readBasic rest) else none

/-- The rest of a string between single quotes. -/
def readLiteral : List Char → Option (List Char × List Char)
  | [] => none
  | '\'' :: rest => some ([], rest)
  | c :: rest => if isTextChar c then push c (readLiteral rest) else none

/-- How a reader stands inside a string over several lines. -/
inductive LineMode where
  /-- In the text. -/
  | text
  /-- Behind a backslash and blanks, where a line has to end. -/
  | ending
  /-- Behind a backslash at the end of a line, where blanks and line ends do not count. -/
  | skipping
deriving DecidableEq, Repr, Inhabited

/-- The rest of a string between triple double quotes. -/
def readBasicLines : LineMode → List Char → Option (List Char × List Char)
  | _, [] => none
  | .ending, ' ' :: rest => readBasicLines .ending rest
  | .ending, '\t' :: rest => readBasicLines .ending rest
  | .ending, '\n' :: rest => readBasicLines .skipping rest
  | .ending, '\r' :: '\n' :: rest => readBasicLines .skipping rest
  | .ending, _ :: _ => none
  | .skipping, ' ' :: rest => readBasicLines .skipping rest
  | .skipping, '\t' :: rest => readBasicLines .skipping rest
  | .skipping, '\n' :: rest => readBasicLines .skipping rest
  | .skipping, '\r' :: '\n' :: rest => readBasicLines .skipping rest
  | _, '"' :: '"' :: '"' :: '"' :: '"' :: rest => some (['"', '"'], rest)
  | _, '"' :: '"' :: '"' :: '"' :: rest => some (['"'], rest)
  | _, '"' :: '"' :: '"' :: rest => some ([], rest)
  | _, '\n' :: rest => push '\n' (readBasicLines .text rest)
  | _, '\r' :: '\n' :: rest => push '\n' (readBasicLines .text rest)
  | _, '\\' :: '\n' :: rest => readBasicLines .skipping rest
  | _, '\\' :: '\r' :: '\n' :: rest => readBasicLines .skipping rest
  | _, '\\' :: ' ' :: rest => readBasicLines .ending rest
  | _, '\\' :: '\t' :: rest => readBasicLines .ending rest
  | _, '\\' :: 'u' :: a :: b :: c :: d :: rest =>
    match hexChar? [a, b, c, d] with
    | some char => push char (readBasicLines .text rest)
    | none => none
  | _, '\\' :: 'U' :: a :: b :: c :: d :: e :: f :: g :: h :: rest =>
    match hexChar? [a, b, c, d, e, f, g, h] with
    | some char => push char (readBasicLines .text rest)
    | none => none
  | _, '\\' :: c :: rest =>
    match escapeChar? c with
    | some char => push char (readBasicLines .text rest)
    | none => none
  | _, c :: rest =>
    if isTextChar c && c ≠ '\\' then push c (readBasicLines .text rest) else none

/-- The rest of a string between triple single quotes. -/
def readLiteralLines : List Char → Option (List Char × List Char)
  | [] => none
  | '\'' :: '\'' :: '\'' :: '\'' :: '\'' :: rest => some (['\'', '\''], rest)
  | '\'' :: '\'' :: '\'' :: '\'' :: rest => some (['\''], rest)
  | '\'' :: '\'' :: '\'' :: rest => some ([], rest)
  | '\n' :: rest => push '\n' (readLiteralLines rest)
  | '\r' :: '\n' :: rest => push '\n' (readLiteralLines rest)
  | c :: rest => if isTextChar c then push c (readLiteralLines rest) else none

/-- Drops one line end. -/
def dropNewline : List Char → List Char
  | '\n' :: rest => rest
  | '\r' :: '\n' :: rest => rest
  | text => text

/-- A string on one line, as a key may be written. -/
def readLineString : List Char → Option (String × List Char)
  | '"' :: rest => (readBasic rest).map fun (text, rest) => (String.ofList text, rest)
  | '\'' :: rest => (readLiteral rest).map fun (text, rest) => (String.ofList text, rest)
  | _ => none

/-- A string in any of the four ways. A line end right behind opening triple quotes does not count.
-/
def readString : List Char → Option (String × List Char)
  | '"' :: '"' :: '"' :: rest =>
    (readBasicLines .text (dropNewline rest)).map fun (text, rest) => (String.ofList text, rest)
  | '\'' :: '\'' :: '\'' :: rest =>
    (readLiteralLines (dropNewline rest)).map fun (text, rest) => (String.ofList text, rest)
  | text => readLineString text

end Retouch.Toml
