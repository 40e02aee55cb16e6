import Retouch.Text.CodePoint

/-!
# Blank characters

A character is blank when Unicode gives it the property `White_Space`. This is the class by which
gaps between nodes are recognised and by which snippets are trimmed, so it also holds the no-break
space, the line and paragraph separators and U+0085, and it leaves out the zero-width space.
-/

namespace Retouch.Text

/-- The code points with the property `White_Space`. -/
def blankRanges : CodePointRanges :=
  [(0x9, 0xD), (0x20, 0x20), (0x85, 0x85), (0xA0, 0xA0), (0x1680, 0x1680), (0x2000, 0x200A),
   (0x2028, 0x2029), (0x202F, 0x202F), (0x205F, 0x205F), (0x3000, 0x3000)]

/-- Whether `c` is blank. -/
def isBlank (c : Char) : Bool :=
  blankRanges.contains c.toNat

/-- Whether a text consists of blank characters only. -/
def allBlank (text : List Char) : Bool :=
  text.all isBlank

/-- Drops blank characters at both ends. -/
def trimBlank (text : List Char) : List Char :=
  ((text.dropWhile isBlank).reverse.dropWhile isBlank).reverse

end Retouch.Text
