import Retouch.Text.Quoted
import Retouch.Tree.Node

/-!
# Trees as JSON

The JSON form of a tree, for other programs to read. Parts that a node does not have are left out,
and so is an empty list of children. A document is written either on one line without blanks or
spread over lines with an indent of two blanks per level.
-/

namespace Retouch

/-- The JSON documents that a tree is written as. -/
inductive Json where
  | number (n : Nat)
  | text (s : String)
  | list (items : List Json)
  | object (members : List (String × Json))
deriving Repr, Inhabited

namespace Json

mutual

/-- The document on one line. -/
def compact : Json → String
  | number n => toString n
  | text s => Text.jsonString s
  | list items => "[" ++ ",".intercalate (compactList items) ++ "]"
  | object members => "\x7b" ++ ",".intercalate (compactMembers members) ++ "\x7d"

/-- The items of a list, each on one line. -/
def compactList : List Json → List String
  | [] => []
  | item :: rest => compact item :: compactList rest

/-- The members of an object, each on one line. -/
def compactMembers : List (String × Json) → List String
  | [] => []
  | (key, value) :: rest => (Text.jsonString key ++ ":" ++ compact value) :: compactMembers rest

end

/-- A new line at the given level. -/
def newline (level : Nat) : String :=
  String.ofList ('\n' :: List.replicate (2 * level) ' ')

/-- Puts parts that are already written between brackets, each on a line of its own. -/
def spread (level : Nat) (opening closing : String) (parts : List String) : String :=
  match parts with
  | [] => opening ++ closing
  | parts =>
    opening ++ newline (level + 1) ++ ("," ++ newline (level + 1)).intercalate parts ++
      newline level ++ closing

mutual

/-- The document spread over lines, standing at the given level. -/
def pretty (level : Nat) : Json → String
  | number n => toString n
  | text s => Text.jsonString s
  | list items => spread level "[" "]" (prettyList (level + 1) items)
  | object members => spread level "\x7b" "\x7d" (prettyMembers (level + 1) members)

/-- The items of a list, spread over lines. -/
def prettyList (level : Nat) : List Json → List String
  | [] => []
  | item :: rest => pretty level item :: prettyList level rest

/-- The members of an object, spread over lines. -/
def prettyMembers (level : Nat) : List (String × Json) → List String
  | [] => []
  | (key, value) :: rest =>
    (Text.jsonString key ++ ": " ++ pretty level value) :: prettyMembers level rest

end

end Json

/-- A range as JSON. -/
def Span.toJson (span : Span) : Json :=
  .object [("start", .number span.start), ("end", .number span.stop)]

mutual

/-- A node as JSON: kind, role, text, children and place, in this order. -/
def Node.toJson : Node → Json
  | { kind, field, text, children, span, .. } =>
    .object <|
      [("kind", .text kind)] ++
      (field.map fun field => ("field", Json.text field)).toList ++
      (text.map fun text => ("text", Json.text text)).toList ++
      (match children with
        | [] => []
        | first :: rest => [("children", .list (Node.toJsonList (first :: rest)))]) ++
      (span.map fun span => ("span", span.toJson)).toList

/-- A list of nodes as JSON. -/
def Node.toJsonList : List Node → List Json
  | [] => []
  | node :: rest => node.toJson :: Node.toJsonList rest

end

/-- A tree as JSON. -/
def Tree.toJson (tree : Tree) : Json :=
  .object [("statements", .list (Node.toJsonList tree.statements))]

end Retouch
