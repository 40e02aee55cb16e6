import Retouch.Decimal.Binary
import Retouch.Toml.Datetime

/-!
# TOML values

What a TOML document says, with tables as lists of entries in the order in which the document first
names their keys.

A date and a table can stand for each other. A table whose first entry has the name `datetimeKey` is
a datetime in long form: the entry holds its text, and what follows in the table does not count.
`Value.settle?` replaces the tables in long form by the datetimes that they mean, and
`Datetime.toTable` gives the long form of a datetime.
-/

namespace Retouch.Toml

/-- A value of a document. -/
inductive Value where
  | string (text : String)
  | integer (number : Int)
  | float (number : Decimal.Binary)
  | boolean (value : Bool)
  | datetime (datetime : Datetime)
  | array (items : List Value)
  | table (entries : List (String × Value))
deriving Repr, Inhabited

/-- The entries of a table, by key. -/
abbrev Table := List (String × Value)

/-- The name of the type of a value. -/
def Value.typeName : Value → String
  | string _ => "string"
  | integer _ => "integer"
  | float _ => "float"
  | boolean _ => "boolean"
  | datetime _ => "datetime"
  | array _ => "array"
  | table _ => "table"

/-- The name of the entry that holds the text of a datetime in long form. -/
def datetimeKey : String := "$__toml_private_datetime"

/-- A datetime in long form. -/
def Datetime.toTable (datetime : Datetime) : Table :=
  [(datetimeKey, .string datetime.text)]

/-- The datetime whose text a value holds. -/
def Value.datetime? : Value → Option Datetime
  | string text => Datetime.ofChars? text.toList
  | _ => none

mutual

/-- The value without datetimes in long form; none when one of them has no text of a datetime. -/
def Value.settle? : Value → Option Value
  | .array items => (Value.settleItems? items).map .array
  | .table [] => some (.table [])
  | .table ((key, value) :: rest) =>
    if key = datetimeKey then value.datetime?.map .datetime
    else do
      let value ← value.settle?
      let rest ← Value.settleEntries? rest
      some (.table ((key, value) :: rest))
  | value => some value

/-- The items of an array without datetimes in long form. -/
def Value.settleItems? : List Value → Option (List Value)
  | [] => some []
  | item :: rest => do
    let item ← item.settle?
    let rest ← Value.settleItems? rest
    some (item :: rest)

/-- The entries of a table whose values are without datetimes in long form. -/
def Value.settleEntries? : List (String × Value) → Option (List (String × Value))
  | [] => some []
  | (key, value) :: rest => do
    let value ← value.settle?
    let rest ← Value.settleEntries? rest
    some ((key, value) :: rest)

end

end Retouch.Toml
