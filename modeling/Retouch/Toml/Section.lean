import Retouch.Toml.Value

/-!
# Tables in the making

While a document is read, a table grows in three ways: by a header `[a.b]`, by a header `[[a.b]]`
for one more table of an array, and by dotted keys. The rules on what may be defined twice look at
how a table came about, so a `Section` keeps that with its entries.

* A table that a longer header or a dotted key only passes through is *implicit*.
* Implicit tables of headers may get a header of their own later, once. Tables of dotted keys may
  grow by further dotted keys of the same table, and by nothing else.
* No key gets a value twice.
-/

namespace Retouch.Toml

mutual

/-- What a key of a growing table holds. -/
inductive Item where
  /-- A value, which is final. -/
  | value (value : Value)
  /-- A table. -/
  | table (table : Section)
  /-- The tables of an array, in order. -/
  | tables (tables : List Section)

/-- A growing table. -/
inductive Section where
  | mk (implicit dotted : Bool) (items : List (String × Item))

end

namespace Section

/-- An empty table with a header of its own. -/
def empty : Section := .mk false false []

instance : Inhabited Section := ⟨empty⟩

/-- Whether the table was only passed through so far. -/
def implicit : Section → Bool
  | mk implicit _ _ => implicit

/-- Whether dotted keys made the table. -/
def dotted : Section → Bool
  | mk _ dotted _ => dotted

/-- The entries in the order in which their keys came up. -/
def items : Section → List (String × Item)
  | mk _ _ items => items

/-- The table with other entries. -/
def withItems (table : Section) (items : List (String × Item)) : Section :=
  mk table.implicit table.dotted items

/-- Puts an item in the place of the one with the same key, or at the end. -/
def setIn (key : String) (item : Item) : List (String × Item) → List (String × Item)
  | [] => [(key, item)]
  | (name, old) :: rest =>
    if name = key then (name, item) :: rest else (name, old) :: setIn key item rest

/-- The table with an item under a key. -/
def set (table : Section) (key : String) (item : Item) : Section :=
  table.withItems (setIn key item table.items)

/-- The table without a key. -/
def erase (table : Section) (key : String) : Section :=
  table.withItems (table.items.filter fun (name, _) => name ≠ key)

/-- Changes the table that a path leads to, passing through tables and the last tables of arrays,
and making implicit tables where there are none. `byDots` says that the path is one of dotted keys,
which must not lead through a table with a header. -/
def modifyAt (byDots : Bool) (change : Section → Option Section) :
    List String → Section → Option Section
  | [], table => change table
  | key :: path, table =>
    match table.items.lookup key with
    | none => do
      let child ← modifyAt byDots change path (mk true byDots [])
      some (table.set key (.table child))
    | some (.value _) => none
    | some (.table child) =>
      if byDots && !child.implicit then none
      else do
        let child ← modifyAt byDots change path child
        some (table.set key (.table child))
    | some (.tables children) =>
      match children.getLast? with
      | none => none
      | some last => do
        let last ← modifyAt byDots change path last
        some (table.set key (.tables (children.dropLast ++ [last])))

/-- The table that a path of headers leads to, if everything on the way exists. -/
def sectionAt? : List String → Section → Option Section
  | [], table => some table
  | key :: path, table =>
    match table.items.lookup key with
    | some (.table child) => sectionAt? path child
    | some (.tables children) => children.getLast?.bind (sectionAt? path)
    | _ => none

/-- Gives a key its value, at the end of a dotted path. -/
def define (path : List String) (key : String) (value : Value) (table : Section) : Option Section :=
  modifyAt true
    (fun table =>
      if table.dotted = path.isEmpty then none
      else if (table.items.lookup key).isSome then none
      else some (table.set key (.value value)))
    path table

end Section

mutual

/-- The value of a finished item. -/
def Item.toValue : Item → Value
  | .value value => value
  | .table table => .table table.toEntries
  | .tables tables => .array (Section.toValues tables)

/-- The entries of a finished table. -/
def Section.toEntries : Section → Table
  | .mk _ _ items => Item.toEntries items

/-- The values of finished items by key. -/
def Item.toEntries : List (String × Item) → Table
  | [] => []
  | (key, item) :: rest => (key, item.toValue) :: Item.toEntries rest

/-- The values of finished tables. -/
def Section.toValues : List Section → List Value
  | [] => []
  | table :: rest => .table table.toEntries :: Section.toValues rest

end

end Retouch.Toml
