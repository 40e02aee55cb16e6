import Retouch.Toml.Scalar
import Retouch.Toml.Section

/-!
# TOML documents

A document is a sequence of lines: empty lines and comments, headers of tables, and keys with
values. The reader accepts the documents of TOML 1.0, with a byte order mark at the start or
without, and gives their entries; for any other text it gives nothing.

Arrays and inline tables may be nested, and keys dotted, up to `nestingLimit` levels, which is also
what bounds the recursion of `readValue`. Every other loop consumes a character in each round and is
bounded by the length of the text.
-/

namespace Retouch.Toml

/-- Nesting of values, and parts of a dotted key, stay below this number. -/
def nestingLimit : Nat := 80

/-! ## Blanks, comments and line ends -/

/-- Drops blanks. -/
def skipBlanks (text : List Char) : List Char :=
  text.dropWhile fun c => c = ' ' || c = '\t'

/-- Drops blanks, line ends and comments; `inComment` says that a comment has begun. -/
def skipLines : (inComment : Bool) → List Char → Option (List Char)
  | _, [] => some []
  | _, '\n' :: rest => skipLines false rest
  | _, '\r' :: '\n' :: rest => skipLines false rest
  | true, c :: rest => if isTextChar c then skipLines true rest else none
  | false, ' ' :: rest => skipLines false rest
  | false, '\t' :: rest => skipLines false rest
  | false, '#' :: rest => skipLines true rest
  | false, text => some text

/-- Drops the rest of a line that holds only blanks and a comment, with its line end. -/
def finishLine (text : List Char) : Option (List Char) :=
  let text := skipBlanks text
  let text :=
    match text with
    | '#' :: rest => rest.dropWhile isTextChar
    | text => text
  match text with
  | [] => some []
  | '\n' :: rest => some rest
  | '\r' :: '\n' :: rest => some rest
  | _ => none

/-! ## Keys -/

/-- Characters of a key without quotes. -/
def isBareChar (c : Char) : Bool :=
  c.isAlphanum || c = '-' || c = '_'

/-- One part of a key. -/
def readKeyPart (text : List Char) : Option (String × List Char) :=
  match readLineString text with
  | some reading => some reading
  | none =>
    match text.takeWhile isBareChar with
    | [] => none
    | name => some (String.ofList name, text.dropWhile isBareChar)

/-- A key of at most `parts` parts, with blanks around each part. -/
def readKeyParts : (parts : Nat) → List Char → Option (List String × List Char)
  | 0, _ => none
  | parts + 1, text => do
    let (name, rest) ← readKeyPart (skipBlanks text)
    match skipBlanks rest with
    | '.' :: rest => do
      let (names, rest) ← readKeyParts parts rest
      some (name :: names, rest)
    | rest => some ([name], rest)

/-- A key: the path of a dotted key and its last part. -/
def readKey (text : List Char) : Option ((List String × String) × List Char) := do
  let (names, rest) ← readKeyParts (nestingLimit - 1) text
  let last ← names.getLast?
  some ((names.dropLast, last), rest)

/-! ## Values -/

/-- The items of an array, behind its opening bracket. -/
def readItems (readItem : List Char → Option (Value × List Char)) :
    (rounds : Nat) → List Char → Option (List Value × List Char)
  | 0, _ => none
  | rounds + 1, text => do
    match ← skipLines false text with
    | ']' :: rest => some ([], rest)
    | text => do
      let (item, rest) ← readItem text
      match ← skipLines false rest with
      | ']' :: rest => some ([item], rest)
      | ',' :: rest => do
        let (items, rest) ← readItems readItem rounds rest
        some (item :: items, rest)
      | _ => none

/-- A key and its value, with blanks around both. -/
def readPair (readItem : List Char → Option (Value × List Char)) (text : List Char) :
    Option (((List String × String) × Value) × List Char) := do
  let (key, rest) ← readKey text
  let rest ← drop? '=' rest
  let (value, rest) ← readItem (skipBlanks rest)
  some ((key, value), skipBlanks rest)

/-- The pairs of an inline table, of which there is at least one, added to a table. -/
def readPairs (readItem : List Char → Option (Value × List Char)) :
    (rounds : Nat) → Section → List Char → Option (Section × List Char)
  | 0, _, _ => none
  | rounds + 1, table, text => do
    let (((path, key), value), rest) ← readPair readItem text
    let table ← table.define path key value
    match rest with
    | '\x7d' :: rest => some (table, rest)
    | ',' :: rest => readPairs readItem rounds table rest
    | _ => none

/-- A value in which collections are nested at most `depth` deep. -/
def readValue : (depth : Nat) → List Char → Option (Value × List Char)
  | depth, text =>
    match text with
    | '"' :: _ => (readString text).map fun (text, rest) => (.string text, rest)
    | '\'' :: _ => (readString text).map fun (text, rest) => (.string text, rest)
    | '[' :: rest =>
      match depth with
      | 0 => none
      | depth + 1 =>
        (readItems (readValue depth) (rest.length + 1) rest).map fun (items, rest) =>
        (.array items, rest)
    | '\x7b' :: rest =>
      match depth with
      | 0 => none
      | depth + 1 =>
        match skipBlanks rest with
        | '\x7d' :: rest => some (.table [], rest)
        | rest =>
          (readPairs (readValue depth) (rest.length + 1) .empty rest).map fun (table, rest) =>
            (.table table.toEntries, rest)
    | _ => readWord text

/-! ## Documents -/

/-- A document while it is read: the tables that are finished, and the one whose header was last. -/
structure Draft where
  root : Section := .empty
  current : Section := .empty
  /-- Where the current table belongs; the empty path is the document itself. -/
  path : List String := []
  /-- Whether the current table is one more of an array. -/
  inArray : Bool := false

namespace Draft

/-- Puts the current table in its place. -/
def finish (draft : Draft) : Option Section :=
  match draft.path.getLast? with
  | none => some draft.current
  | some key =>
    draft.root.modifyAt false
      (fun parent =>
        match parent.items.lookup key with
        | none =>
          some (parent.set key
            (if draft.inArray then .tables [draft.current] else .table draft.current))
        | some (.tables tables) =>
          if draft.inArray then some (parent.set key (.tables (tables ++ [draft.current])))
        else none
        | some _ => none)
      draft.path.dropLast

/-- The draft behind a header `[path.key]`. An implicit table there becomes the current one. -/
def openTable (draft : Draft) (path : List String) (key : String) : Option Draft := do
  let root ← draft.finish
  let known := (Section.sectionAt? (path ++ [key]) root).map Section.items
  let root ← root.modifyAt false
    (fun parent =>
      match parent.items.lookup key with
      | none => some parent
      | some (.table table) =>
      if table.implicit && !table.dotted then some (parent.erase key) else none
      | some _ => none)
    path
  some { root, current := Section.empty.withItems (known.getD []), path := path ++ [key] }

/-- The draft behind a header `[[path.key]]`. -/
def openArrayTable (draft : Draft) (path : List String) (key : String) : Option Draft := do
  let root ← draft.finish
  let root ← root.modifyAt false
    (fun parent =>
      match parent.items.lookup key with
      | none => some (parent.set key (.tables []))
      | some (.tables _) => some parent
      | some _ => none)
    path
  some { root, path := path ++ [key], inArray := true }

/-- The draft behind a line `path.key = value`. -/
def define (draft : Draft) (path : List String) (key : String) (value : Value) : Option Draft := do
  let current ← draft.current.define path key value
  some { draft with current }

end Draft

/-- Reads the lines of a document, at most `rounds` of them. -/
def readLines : (rounds : Nat) → Draft → List Char → Option Table
  | 0, _, _ => none
  | rounds + 1, draft, text =>
    match skipBlanks text with
    | [] => draft.finish.map Section.toEntries
    | '\n' :: rest => readLines rounds draft rest
    | '\r' :: '\n' :: rest => readLines rounds draft rest
    | '#' :: rest => do readLines rounds draft (← finishLine ('#' :: rest))
    | '[' :: '[' :: rest => do
      let ((path, key), rest) ← readKey rest
      let rest ← drop? ']' rest
      let rest ← drop? ']' rest
      let rest ← finishLine rest
      readLines rounds (← draft.openArrayTable path key) rest
    | '[' :: rest => do
      let ((path, key), rest) ← readKey rest
      let rest ← drop? ']' rest
      let rest ← finishLine rest
      readLines rounds (← draft.openTable path key) rest
    | text => do
      let (((path, key), value), rest) ← readPair (readValue (nestingLimit - 1)) text
      let rest ← finishLine rest
      readLines rounds (← draft.define path key value) rest

/-- The entries of a document; none for a text that is no TOML document. -/
def parse? (text : String) : Option Table :=
  let text :=
    match text.toList with
    | '\ufeff' :: rest => rest
    | text => text
  readLines (text.length + 1) {} text

end Retouch.Toml
