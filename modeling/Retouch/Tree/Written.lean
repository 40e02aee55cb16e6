import Retouch.Toml.Quoted
import Retouch.Tree.Concrete

/-!
# Written concrete trees

The parser of a grammar can be another program, which hands its trees over as lines of text. A
source comes first, on one line between double quotes. Its nodes follow in document order, one on a
line: the depth, the kind, the role or nothing, start and end of the range, and the flags, with tabs
between them. The flags are a sum of 1 for a node that fits nowhere, 2 for one that is missing, and
4 for one with a fault at or below it.

A source that no line gives has the tree of `plainTree`.
-/

namespace Retouch.Written

/-- What a line says. -/
inductive Line where
  | source (text : String)
  | node (depth : Nat) (node : Concrete)
  /-- Nothing. -/
  | other
deriving Inhabited

/-- The node that the parts of a line describe. -/
def nodeOfParts? : List String → Option (Nat × Concrete)
  | [depth, kind, field, start, stop, flags] => do
    let flags ← flags.toNat?
    let span : Span := ⟨← start.toNat?, ← stop.toNat?⟩
    some (← depth.toNat?,
      { kind, field := if field = "" then none else some field, span,
        isError := flags % 2 = 1, isMissing := flags / 2 % 2 = 1, hasError := flags / 4 % 2 = 1 })
  | _ => none

/-- What a line says. -/
def Line.read (line : String) : Line :=
  match line.toList with
  | '"' :: text =>
    match Toml.readBasic text with
    | some (content, []) => .source (String.ofList content)
    | _ => .other
  | _ =>
    match nodeOfParts? (line.splitOn "\t") with
    | some (depth, described) => .node depth described
    | none => .other

/-- Puts a node in front of the nodes that follow it in document order; those that are deeper become
its children. -/
def attach (depth : Nat) (node : Concrete) (later : List (Nat × Concrete)) :
    List (Nat × Concrete) :=
  let below := later.takeWhile fun other => depth < other.1
  let rest := later.dropWhile fun other => depth < other.1
  (depth, { node with children := below.map Prod.snd }) :: rest

/-- Sources with their trees, and the nodes that wait for their source. -/
structure Pending where
  nodes : List (Nat × Concrete) := []
  trees : List (String × Concrete) := []

/-- Takes up the line in front of those that were read. -/
def Pending.add (pending : Pending) : Line → Pending
  | .source text =>
    match pending.nodes with
    | (_, tree) :: _ => { trees := (text, tree) :: pending.trees }
    | [] => { trees := pending.trees }
  | .node depth node => { pending with nodes := attach depth node pending.nodes }
  | .other => pending

/-- The sources of some lines with their trees. -/
def readTrees (lines : List String) : List (String × Concrete) :=
  (lines.foldr (fun line pending => pending.add (Line.read line)) ({} : Pending)).trees

/-- The tree of a source that is all text, without any code. One with an opening tag of code fits
nowhere. -/
def plainTree (text : String) : Concrete :=
  let span : Span := ⟨0, text.utf8ByteSize⟩
  if (text.splitOn "<?").length = 1 then
    { kind := "program", span, children := if text = "" then [] else [{ kind := "text", span }] }
  else { kind := "program", span, isError := true, hasError := true }

/-- The trees of all sources, given those that were written. -/
def treeOf (written : List (String × Concrete)) (text : String) : Concrete :=
  (written.lookup text).getD (plainTree text)

end Retouch.Written
