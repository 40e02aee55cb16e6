import Retouch.Text.Blank
import Retouch.Tree.Node

/-!
# Gaps between neighbours

What stands between the texts of two neighbouring nodes.

* **The gap of the source** (`sourceGap?`): if both nodes have a place, and the source holds only
  blanks between the end of the one and the start of the other, those blanks are kept.
* **The fallback** (`fallbackGap`): statements, and nodes that look like statements, go on lines of
  their own. Any other two nodes are tokens of one construct, and `tokenGap` looks at the characters
  that would meet: a blank separates them unless one of them already does, or is a bracket or an
  operator that holds on to its neighbour.

So two words never run together, and no blank appears where the customary spelling has none.
-/

namespace Retouch.Layout

/-- Whether `ending` is at the end of `text`. -/
def endsWith (text : String) (ending : String) : Bool :=
  ending.toList.isSuffixOf text.toList

/-- Whether `opening` is at the start of `text`. -/
def startsWith (text : String) (opening : String) : Bool :=
  opening.toList.isPrefixOf text.toList

/-- Blanks that the source holds between two offsets; none if anything else stands there. -/
def blankBetween? (source : String) (start stop : Nat) : Option String :=
  match Text.slice? source.toList ⟨start, stop⟩ with
  | some gap => if Text.allBlank gap then some (String.ofList gap) else none
  | none => none

/-- The gap that the source has between two nodes. -/
def sourceGap? (source : String) (left right : Node) : Option String := do
  let leftSpan ← left.span
  let rightSpan ← right.span
  blankBetween? source leftSpan.stop rightSpan.start

/-- The blanks that the source has inside a node before its first child and after its last one, as
in the body of a heredoc, which opens with a newline. -/
def edgeGaps (source : String) (node : Node) : String × String :=
  match node.span, node.children.head?.bind Node.span, node.children.getLast?.bind Node.span with
  | some span, some first, some last =>
    ((blankBetween? source span.start first.start).getD "",
      (blankBetween? source last.stop span.stop).getD "")
  | _, _, _ => ("", "")

/-- Kinds of nodes that stand on lines of their own. -/
def isStatementLike (node : Node) : Bool :=
  node.kind = "comment" || endsWith node.kind "_statement" || endsWith node.kind "_definition" ||
    endsWith node.kind "_declaration"

/-- Characters that nothing is put behind. -/
def holdsRight (c : Char) : Bool :=
  c = '(' || c = '[' || c = '$' || c = '\\'

/-- Characters that nothing is put before. -/
def holdsLeft (c : Char) : Bool :=
  c = ';' || c = ',' || c = ')' || c = ']' || c = '(' || c = '['

/-- Whether an access operator joins the printed text to what comes next. -/
def joinedByAccess (printed next : String) : Bool :=
  endsWith printed "->" || endsWith printed "::" || startsWith next "->" || startsWith next "?->" ||
    startsWith next "::"

/-- The gap between two tokens of one construct, from the text printed so far and the text to come.
-/
def tokenGap (printed next : String) : String :=
  match printed.toList.getLast?, next.toList.head? with
  | some left, some right =>
    if Text.isBlank left || Text.isBlank right then ""
    else if holdsRight left || holdsLeft right || joinedByAccess printed next then ""
    else " "
  | _, _ => ""

/-- The gap between two nodes for which the source has none. `statements` says that the nodes are
statements of the file. -/
def fallbackGap (statements : Bool) (left right : Node) (printed next : String) : String :=
  if statements || isStatementLike left || isStatementLike right then "\n"
  else tokenGap printed next

/-- The gap between two neighbours. -/
def gap (source : String) (statements : Bool) (left right : Node) (printed next : String) :
    String :=
  (sourceGap? source left right).getD (fallbackGap statements left right printed next)

end Retouch.Layout
