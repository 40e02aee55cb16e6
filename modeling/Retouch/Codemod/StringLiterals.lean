import Retouch.Codemod.Basic
import Retouch.Codemod.Manifest

/-!
# Replacing string literals

A codemod that puts one fixed text in the place of every string literal. The literals are the four
kinds that PHP has; a literal inside another one, as in an interpolated string, goes with the outer
one. The text is written between double quotes so that PHP reads it back as it is.
-/

namespace Retouch.StringLiterals

/-- The name of the codemod. -/
def codemodName : String := "replace-string-literals"

/-- The text for literals when no option gives another. -/
def defaultReplacement : String := "foo"

/-- The kinds of literals. -/
def literalKinds : List String := ["string", "encapsed_string", "heredoc", "nowdoc"]

/-- Whether a node is a literal. -/
def isLiteral (node : Node) : Bool :=
  literalKinds.contains node.kind

/-- How one character is written between double quotes. -/
def escapeChar (c : Char) : List Char :=
  if c = '\\' || c = '"' || c = '$' then ['\\', c]
  else if c = '\n' then ['\\', 'n']
  else if c = '\t' then ['\\', 't']
  else [c]

/-- A text between double quotes. -/
def doubleQuoted (value : String) : String :=
  String.ofList ('"' :: (value.toList.flatMap escapeChar ++ ['"']))

/-- The leaf that takes the place of a literal. -/
def literalNode (value : String) : Node :=
  .leaf "encapsed_string" (doubleQuoted value)

/-- The visitor that replaces literals. Its state is the number of literals replaced so far. -/
def replacer (value : String) : Visitor Nat where
  enter node := pure (node, if isLiteral node then .skip else .into)
  leave node :=
    if isLiteral node then do
      modify (· + 1)
      pure (node.replaceWith (literalNode value), .keep)
    else pure (node, .keep)

/-- The codemod: one walk with the visitor. -/
def codemod (value : String) : Codemod Nat where
  setup := pure [[(replacer value).ofCodemod]]

/-- Makes the codemod from its options. -/
def ofOptions (options : Options) : Except Failure (Codemod Nat) := do
  let replacement ← options.string? "replacement"
  .ok (codemod (replacement.getD defaultReplacement))

end Retouch.StringLiterals
