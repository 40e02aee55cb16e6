import Retouch.Text.Slice

/-!
# Lines and columns

A position is a line and a column, both counted from 1; a column counts characters and a newline
ends its line. The position of a byte offset is that of the first character boundary at or after it,
and an offset past the end has the position of the end.

The lines of a text end at a newline, and a carriage return before that newline belongs to the
ending. A last line without a newline is a line too, with all of its characters; nothing follows a
final newline.
-/

namespace Retouch

/-- A place in a text as an editor names it. -/
structure Position where
  line : Nat
  column : Nat
deriving DecidableEq, Repr, Inhabited

namespace Position

/-- The place of the first character. -/
def first : Position := ⟨1, 1⟩

/-- The place after the character `c` that stands at `place`. -/
def next (place : Position) (c : Char) : Position :=
  if c = '\n' then ⟨place.line + 1, 1⟩ else ⟨place.line, place.column + 1⟩

end Position

namespace Text

/-- The characters that begin before byte `offset`. -/
def charsBefore : Nat → List Char → List Char
  | 0, _ => []
  | _ + 1, [] => []
  | n + 1, c :: rest => c :: charsBefore (n + 1 - c.utf8Size) rest

/-- The position of byte `offset`. -/
def positionAt (text : String) (offset : Nat) : Position :=
  (charsBefore offset text.toList).foldl Position.next Position.first

/-- Cuts a text at its newlines: the lines that a newline ends, without it, and the characters after
the last newline. -/
def cutLines : List Char → List (List Char) × List Char
  | [] => ([], [])
  | c :: rest =>
    let (ended, last) := cutLines rest
    if c = '\n' then ([] :: ended, last)
    else
      match ended with
      | [] => ([], c :: last)
      | line :: more => ((c :: line) :: more, last)

/-- Drops one carriage return from the end of a line that a newline ended. -/
def dropReturn (line : List Char) : List Char :=
  if line.getLast? = some '\r' then line.dropLast else line

/-- The lines of a text, in order. -/
def lines (text : List Char) : List (List Char) :=
  let (ended, last) := cutLines text
  ended.map dropReturn ++ (if last = [] then [] else [last])

/-- The text of a line, counted from 1, without its ending. -/
def lineText (text : String) (line : Nat) : Option String :=
  if line = 0 then none else (lines text.toList)[line - 1]?.map String.ofList

/-- The first `most` characters, marked with `...` when more were there. -/
def truncate (text : String) (most : Nat) : String :=
  match text.toList.drop most with
  | [] => text
  | _ :: _ => String.ofList (text.toList.take most) ++ "..."

end Text

end Retouch
