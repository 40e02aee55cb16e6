/-!
# Slices of a text by byte offsets

Positions in a source text are counted in bytes of its UTF-8 form, while a text is a list of
characters. A slice therefore exists only when both of its ends fall between two characters. All
slicing goes through two walks over the characters: `dropBytes?` finds the place of an offset and
`takeBytes?` reads on from there.
-/

namespace Retouch

/-- A range of bytes of a source text: `start` is inside, `stop` is the first byte outside. The two
need not be in order, nor inside any text; a slice of such a range does not exist. -/
structure Span where
  start : Nat
  stop : Nat
deriving DecidableEq, Repr, Inhabited

namespace Span

/-- Number of bytes of the range, which is 0 when its ends are out of order. -/
def length (span : Span) : Nat :=
  span.stop - span.start

/-- Whether the range holds no byte. -/
def isEmpty (span : Span) : Bool :=
  span.length = 0

end Span

namespace Text

/-- Number of bytes of the UTF-8 form. -/
def byteLength : List Char → Nat
  | [] => 0
  | c :: rest => c.utf8Size + byteLength rest

/-- What is left after `n` bytes; none when the text is shorter or a character straddles the place.
-/
def dropBytes? : Nat → List Char → Option (List Char)
  | 0, text => some text
  | _ + 1, [] => none
  | n + 1, c :: rest => if c.utf8Size ≤ n + 1 then dropBytes? (n + 1 - c.utf8Size) rest else none

/-- The first `n` bytes; none when the text is shorter or a character straddles the place. -/
def takeBytes? : Nat → List Char → Option (List Char)
  | 0, _ => some []
  | _ + 1, [] => none
  | n + 1, c :: rest =>
    if c.utf8Size ≤ n + 1 then (takeBytes? (n + 1 - c.utf8Size) rest).map (c :: ·) else none

/-- The characters of a range, if both ends fall between characters of the text and are in order. -/
def slice? (text : List Char) (span : Span) : Option (List Char) :=
  if span.start ≤ span.stop then
    (dropBytes? span.start text).bind (takeBytes? span.length)
  else
    none

/-- The part of a string that a range covers. -/
def sliceString? (source : String) (span : Span) : Option String :=
  (slice? source.toList span).map String.ofList

/-- The part of a string that a range covers, and the empty string where there is none. -/
def sliceString (source : String) (span : Span) : String :=
  (sliceString? source span).getD ""

@[simp] theorem byteLength_nil : byteLength [] = 0 := rfl

@[simp] theorem byteLength_cons (c : Char) (text : List Char) :
    byteLength (c :: text) = c.utf8Size + byteLength text := rfl

@[simp] theorem byteLength_append (front back : List Char) :
    byteLength (front ++ back) = byteLength front + byteLength back := by
  induction front with
  | nil => simp
  | cons c front ih => simp [ih, Nat.add_assoc]

/-- Dropping the bytes of a first part leaves the second. -/
@[simp] theorem dropBytes?_append (front back : List Char) :
    dropBytes? (byteLength front) (front ++ back) = some back := by
  induction front with
  | nil => simp [dropBytes?]
  | cons c front ih =>
    have pos := c.utf8Size_pos
    obtain ⟨n, hn⟩ : ∃ n, c.utf8Size + byteLength front = n + 1 :=
      ⟨c.utf8Size + byteLength front - 1, by omega⟩
    have rest : n + 1 - c.utf8Size = byteLength front := by omega
    have fits : c.utf8Size ≤ n + 1 := by omega
    simp [hn, dropBytes?, rest, fits, ih]

/-- Taking the bytes of a first part gives that part. -/
@[simp] theorem takeBytes?_append (front back : List Char) :
    takeBytes? (byteLength front) (front ++ back) = some front := by
  induction front with
  | nil => simp [takeBytes?]
  | cons c front ih =>
    have pos := c.utf8Size_pos
    obtain ⟨n, hn⟩ : ∃ n, c.utf8Size + byteLength front = n + 1 :=
      ⟨c.utf8Size + byteLength front - 1, by omega⟩
    have rest : n + 1 - c.utf8Size = byteLength front := by omega
    have fits : c.utf8Size ≤ n + 1 := by omega
    simp [hn, takeBytes?, rest, fits, ih]

/-- Between a first and a last part stands the middle one. -/
theorem slice?_append (front middle back : List Char) :
    slice? (front ++ middle ++ back) ⟨byteLength front, byteLength front + byteLength middle⟩ =
      some middle := by
  have order : byteLength front ≤ byteLength front + byteLength middle := by omega
  have len : Span.length ⟨byteLength front, byteLength front + byteLength middle⟩ =
      byteLength middle := by simp [Span.length]
  simp [slice?, order, len]

end Text

end Retouch
