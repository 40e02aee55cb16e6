/-!
# Paths

A path is the text that a user writes, and it is shown again as it was written. What it means is its
list of components: repeated slashes, a slash at the end and `.` after the start do not count, while
`..` and a leading `.` do. Two paths are the same, or one begins with the other, by components.

* `components`, `same`, `beginsWith`: the meaning of a path.
* `parent?`, `fileName?`, `extension?`, `join`, `withFileName`: the parts of a path and how to put
  them together, which all keep the rest of the text as it is written.
* `absolute?`: a path without the help of a file store, made to start at the root.

Paths and the names in a file store are texts. Names whose bytes are not UTF-8, which a file system
may hold as well, are outside of the model. So nothing here speaks of the approximate text that
stands for such a name in a message, or in the name of a file beside it.
-/

namespace Retouch

/-- A path as it is written. -/
structure Path where
  raw : String
deriving DecidableEq, Repr, Inhabited

namespace Path

/-- One part of the meaning of a path. -/
inductive Component where
  /-- The root directory, at the start only. -/
  | root
  /-- The directory itself, at the start only. -/
  | here
  /-- The directory above. -/
  | up
  /-- An entry of the directory. -/
  | name (name : String)
deriving DecidableEq, Repr, Inhabited

/-- Splits a text at every slash; there is always at least one part. -/
def splitSlashes : List Char → List (List Char)
  | [] => [[]]
  | c :: rest =>
    if c = '/' then [] :: splitSlashes rest
    else
      match splitSlashes rest with
      | [] => [[c]]
      | part :: parts => (c :: part) :: parts

/-- The parts of the text between slashes. -/
def segments (path : Path) : List String :=
  (splitSlashes path.raw.toList).map String.ofList

/-- Whether the path starts at the root. -/
def isAbsolute (path : Path) : Bool :=
  path.raw.toList.head? = some '/'

/-- Whether the text ends with a slash. -/
def endsWithSlash (path : Path) : Bool :=
  path.raw.toList.getLast? = some '/'

/-- The component that a segment stands for; none for an empty one and for `.`. -/
def componentOf? (segment : String) : Option Component :=
  if segment = "" || segment = "." then none
  else if segment = ".." then some .up
  else some (.name segment)

/-- What the path means. -/
def components (path : Path) : List Component :=
  let lead :=
    if path.isAbsolute then [Component.root]
    else if path.segments.head? = some "." then [Component.here]
    else []
  lead ++ path.segments.filterMap componentOf?

/-- Whether two paths have the same components. -/
def same (a b : Path) : Bool :=
  a.components = b.components

/-- Whether the components of `base` are the first ones of the path. -/
def beginsWith (path base : Path) : Bool :=
  base.components.isPrefixOf path.components

/-! ## Parts -/

/-- The name at the end of the path; none when it ends otherwise. -/
def fileName? (path : Path) : Option String :=
  match path.components.getLast? with
  | some (.name name) => some name
  | _ => none

/-- Splits a name at its last dot. -/
def splitLastDot? (name : List Char) : Option (List Char × List Char) :=
  match name.reverse.dropWhile (· ≠ '.') with
  | [] => none
  | _ :: front => some (front.reverse, (name.reverse.takeWhile (· ≠ '.')).reverse)

/-- What follows the last dot of the file name; none when there is no dot or only one at its start.
-/
def extension? (path : Path) : Option String := do
  let name ← path.fileName?
  let (stem, ending) ← splitLastDot? name.toList
  if stem = [] then none else some (String.ofList ending)

/-- Drops empty segments and `.` from the end. -/
def dropIdle (segments : List String) : List String :=
  (segments.reverse.dropWhile fun segment => segment = "" || segment = ".").reverse

/-- The path with the given segments. -/
def ofSegments (first : String) (rest : List String) : Path :=
  if first = "" && rest.isEmpty then ⟨"/"⟩ else ⟨"/".intercalate (first :: rest)⟩

/-- The path without its last component; none for the root and the empty path. -/
def parent? (path : Path) : Option Path :=
  match path.segments with
  | [] => none
  | first :: rest =>
    match dropIdle rest with
    | [] => if first = "" then none else some ⟨""⟩
    | kept => some (ofSegments first (dropIdle kept.dropLast))

/-- Appends `rest` to the path; an absolute `rest` stands for itself. -/
def join (path rest : Path) : Path :=
  if rest.isAbsolute then rest
  else if path.raw = "" || path.endsWithSlash then ⟨path.raw ++ rest.raw⟩
  else ⟨path.raw ++ "/" ++ rest.raw⟩

/-- The path with another name at its end. -/
def withFileName (path : Path) (name : String) : Path :=
  match path.fileName?, path.parent? with
  | some _, some parent => parent.join ⟨name⟩
  | _, _ => path.join ⟨name⟩

/-- The path and the paths above it, the longest first. `limit` bounds their number. -/
def ancestorsUpTo : Nat → Path → List Path
  | 0, path => [path]
  | limit + 1, path =>
    match path.parent? with
    | some parent => path :: ancestorsUpTo limit parent
    | none => [path]

/-- The path and all paths above it, the longest first. -/
def ancestors (path : Path) : List Path :=
  ancestorsUpTo path.segments.length path

/-- The text of a component. -/
def Component.text : Component → String
  | .root => "/"
  | .here => "."
  | .up => ".."
  | .name text => text

/-- The path made to start at the root: relative to `directory`, without `.` and repeated slashes,
but with `..` and a slash at the end as they are. Exactly two slashes at the start stay two. The
empty path has no such form. -/
def absolute? (path directory : Path) : Option Path :=
  if path.raw = "" then none
  else
    let parts := path.components.filter (· ≠ .here)
    let (start, parts) :=
      if path.isAbsolute then
        match path.raw.toList with
        | '/' :: '/' :: '/' :: _ => (⟨""⟩, parts)
        | '/' :: '/' :: _ => (⟨"//"⟩, parts.drop 1)
        | _ => (⟨""⟩, parts)
      else (directory, parts)
    let whole := parts.foldl (fun path part => path.join ⟨part.text⟩) start
    some (if path.endsWithSlash then whole.join ⟨""⟩ else whole)

end Path

end Retouch
