import Retouch.Decimal.Shortest
import Retouch.Failure
import Retouch.Text.Blank
import Retouch.Text.Quoted
import Retouch.Toml.Document

/-!
# Manifests

A manifest is a TOML document that says which codemod to run and with which options. It names the
codemod, may describe it, and may have a table of options; it has no other entries. A document of
the wrong shape is refused for the first entry, in document order, that has a wrong name or a value
of a wrong type, and only then for a codemod that is not named.

Dates in long form count among the values of the options, and a text in one of them that is no date
makes the document no TOML document. The table of options itself is taken as a table, even if it has
the form of a date, and a date in its place is taken as a table.
-/

namespace Retouch

/-- The options of a codemod, by name. -/
abbrev Options := Toml.Table

/-- Which codemod to run, and how. -/
structure Manifest where
  codemod : String
  description : Option String := none
  options : Options := []
deriving Repr, Inhabited

/-- How the shape of a document is wrong. -/
inductive ShapeFault where
  /-- An entry that no manifest has. -/
  | unknownEntry (name : String)
  /-- A value of another type than the entry has. -/
  | wrongType (found : Toml.Value) (expected : String)
  /-- No codemod is named. -/
  | noCodemod
deriving Repr, Inhabited

/-- Why a manifest yields no codemod. -/
inductive ManifestError where
  /-- The text is no TOML document. -/
  | notToml
  /-- The document has the wrong shape. -/
  | shape (fault : ShapeFault)
  /-- The name of the codemod is blank. -/
  | emptyName
  /-- No codemod of that name is known. -/
  | unknownCodemod (name : String) (known : List String)
  /-- The codemod refuses the options. -/
  | construction (name : String) (failure : Failure)
deriving Repr, Inhabited

/-- Names a value by its type, and shows it if it is a single one. -/
def describeValue : Toml.Value → String
  | .string text => "string " ++ Text.listing text
  | .integer number => s!"integer `{number}`"
  | .float number => s!"floating point `{number.text}`"
  | .boolean value => s!"boolean `{value}`"
  | .datetime _ => "map"
  | .array _ => "sequence"
  | .table _ => "map"

/-- The fault as one text. -/
def ShapeFault.message : ShapeFault → String
  | unknownEntry name =>
    s!"unknown field `{name}`, expected one of `codemod`, `description`, `options`"
  | wrongType found expected => s!"invalid type: {describeValue found}, expected {expected}"
  | noCodemod => "missing field `codemod`"

/-- The error as one text. -/
def ManifestError.message : ManifestError → String
  | notToml => "invalid manifest: the text is not a TOML document"
  | shape fault => "invalid manifest: " ++ fault.message
  | emptyName => "manifest names no codemod"
  | unknownCodemod name known =>
    let registered := ", ".intercalate known
    s!"unknown codemod `{name}` (registered: {registered})"
  | construction name failure => s!"cannot construct codemod `{name}`: {failure.summary}"

namespace Manifest

/-- The entries of a manifest as far as they were met. -/
structure Entries where
  codemod : Option String := none
  description : Option String := none
  options : Options := []

/-- Takes up one entry of the document. -/
def Entries.add (entries : Entries) (name : String) (value : Toml.Value) :
    Except ManifestError Entries :=
  if name = "codemod" then
    match value with
    | .string text => .ok { entries with codemod := some text }
    | other => .error (.shape (.wrongType other "a string"))
  else if name = "description" then
    match value with
    | .string text => .ok { entries with description := some text }
    | other => .error (.shape (.wrongType other "a string"))
  else if name = "options" then
    match value with
    | .table options =>
      match Toml.Value.settleEntries? options with
      | some options => .ok { entries with options }
      | none => .error .notToml
    | .datetime datetime => .ok { entries with options := datetime.toTable }
    | other => .error (.shape (.wrongType other "a map"))
  else .error (.shape (.unknownEntry name))

/-- The manifest that a document describes. -/
def ofTable (table : Toml.Table) : Except ManifestError Manifest := do
  let entries ← table.foldlM (fun entries (name, value) => entries.add name value) ({} : Entries)
  match entries.codemod with
  | some codemod =>
    .ok { codemod, description := entries.description, options := entries.options }
  | none => .error (.shape .noCodemod)

/-- Reads a manifest. A fault of shape counts only when all dates of the document are dates. -/
def parse (text : String) : Except ManifestError Manifest :=
  match Toml.parse? text with
  | none => .error .notToml
  | some table =>
    match ofTable table with
    | .error error =>
      .error (if (Toml.Value.settleEntries? table).isSome then error else .notToml)
    | .ok manifest =>
      if Text.trimBlank manifest.codemod.toList = [] then .error .emptyName else .ok manifest

end Manifest

namespace Options

/-- The option of a name, which has to be a string if it is there. -/
def string? (options : Options) (name : String) : Except Failure (Option String) :=
  match options.lookup name with
  | none => .ok none
  | some (.string text) => .ok (some text)
  | some other =>
    .error (.ofMessage s!"option `{name}` must be a string, found {other.typeName}")

/-- The option of a name, which has to be there and to be a string. -/
def string (options : Options) (name : String) : Except Failure String := do
  match ← options.string? name with
  | some text => .ok text
  | none => .error (.ofMessage s!"missing required option `{name}`")

end Options

end Retouch
