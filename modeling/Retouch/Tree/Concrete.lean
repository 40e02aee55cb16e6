import Retouch.Text.Blank
import Retouch.Text.Position
import Retouch.Tree.Node

/-!
# Concrete trees

What a grammar makes of a source text: every node has a kind and a range of bytes, and three flags
say where the text does not fit the grammar. A tree without faults becomes a working tree, in which
every node has an identity, counted in document order, and every node without children is a leaf
with the text of its range. The leaves are also the tokens of the source.

In a tree with faults the first faulty node in document order is described, by what is missing, by
what stands there, or by the line it stands on.
-/

namespace Retouch

/-- One node of a concrete tree. -/
structure Concrete where
  kind : String
  field : Option String := none
  span : Span
  /-- The text of this node fits nowhere in the grammar. -/
  isError : Bool := false
  /-- The grammar asks for this node and the text does not have it. -/
  isMissing : Bool := false
  /-- This node or one below it is faulty. -/
  hasError : Bool := false
  children : List Concrete := []
deriving Repr, Inhabited

/-- A token: a leaf of the source, by kind and place. -/
structure Token where
  kind : String
  span : Span
deriving DecidableEq, Repr, Inhabited

/-- A source text with its tokens in order. -/
structure TokenStream where
  source : String
  tokens : List Token := []
deriving DecidableEq, Repr, Inhabited

/-- The text of a token, which is empty when its range covers no part of the source. -/
def TokenStream.text (stream : TokenStream) (token : Token) : String :=
  Text.sliceString stream.source token.span

/-- What reading a source gives: its working tree and its tokens. -/
structure Parsed where
  tree : Tree
  tokens : TokenStream
deriving Repr, Inhabited

/-- Where and how a source text fails to fit its grammar. -/
structure SyntaxFault where
  description : String
  position : Position
deriving DecidableEq, Repr, Inhabited

/-- The fault as one line. -/
def SyntaxFault.message (fault : SyntaxFault) : String :=
  s!"{fault.description} at line {fault.position.line}, column {fault.position.column}"

namespace Concrete

/-! ## From concrete to working trees -/

mutual

/-- The working node for a concrete one whose identity is `next`, and the next free identity. -/
def toNode (source : String) (next : Nat) : Concrete → Node × Nat
  | { kind, field, span, children, .. } =>
    match children with
    | [] =>
      ({ kind, field, text := some (Text.sliceString source span), origin := some ⟨next⟩,
         span := some span }, next + 1)
    | first :: rest =>
      let (children, next') := toNodes source (next + 1) (first :: rest)
      ({ kind, field, children, origin := some ⟨next⟩, span := some span }, next')

/-- The working nodes for a list of concrete ones, numbered from `next`. -/
def toNodes (source : String) (next : Nat) : List Concrete → List Node × Nat
  | [] => ([], next)
  | node :: rest =>
    let (first, next') := toNode source next node
    let (others, next'') := toNodes source next' rest
    (first :: others, next'')

end

mutual

/-- The leaves at or below a node, in order. -/
def tokens : Concrete → List Token
  | { kind, span, children, .. } =>
    match children with
    | [] => [⟨kind, span⟩]
    | first :: rest => tokensList (first :: rest)

/-- The leaves of a list of nodes, in order. -/
def tokensList : List Concrete → List Token
  | [] => []
  | node :: rest => tokens node ++ tokensList rest

end

/-! ## Faults -/

mutual

/-- The first faulty node in document order, found by going down only where a fault is flagged. -/
def firstFault? : Concrete → Option Concrete
  | node@{ children, .. } =>
    if node.isError || node.isMissing then some node else firstFaultList? children

/-- The first faulty node of a list of nodes. -/
def firstFaultList? : List Concrete → Option Concrete
  | [] => none
  | node :: rest =>
    if node.hasError || node.isMissing then firstFault? node <|> firstFaultList? rest
    else firstFaultList? rest

end

/-- Most characters that a description quotes. -/
def snippetLength : Nat := 24

/-- The text that a description quotes for a range: its first line without blanks at the ends, if
that is not empty. -/
def snippet? (source : String) (span : Span) : Option String := do
  let text ← Text.slice? source.toList span
  let line := Text.trimBlank ((Text.lines text).headD [])
  if line = [] then none else some (Text.truncate (String.ofList line) snippetLength)

/-- Describes a faulty node: by its kind when it is missing, else by its own text, else by the line
that it stands on, which does not exist at the end of the source. -/
def describe (source : String) (fault : Concrete) : SyntaxFault :=
  let position := Text.positionAt source fault.span.start
  let description :=
    if fault.isMissing then s!"syntax error, missing `{fault.kind}`"
    else
      match snippet? source fault.span with
      | some snippet => s!"syntax error, unexpected `{snippet}`"
      | none =>
        match Text.lineText source position.line with
        | some line =>
          let shown := Text.truncate (String.ofList (Text.trimBlank line.toList)) snippetLength
          s!"syntax error near `{shown}`"
        | none => "syntax error, unexpected end of file"
  ⟨description, position⟩

/-- Reads a source through the concrete tree of its whole text, whose children are the statements.
-/
def read (source : String) (root : Concrete) : Except SyntaxFault Parsed :=
  if root.hasError then
    match firstFault? root with
    | some fault => .error (describe source fault)
    | none => .error ⟨"syntax error", Position.first⟩
  else
    .ok
      { tree := ⟨(toNodes source 0 root.children).1⟩
        tokens := ⟨source, tokensList root.children⟩ }

end Concrete

end Retouch
