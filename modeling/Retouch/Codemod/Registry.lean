import Retouch.Codemod.RenameFunction
import Retouch.Codemod.StringLiterals
import Retouch.Files.Access

/-!
# Registries

A registry knows codemods by name. Under each name it has a factory, which makes an instance of the
codemod from the options of a manifest and may report to the journal while it does. Names are kept
in order, and a name that is registered again gets the new factory.

Instances bring the type of their state with them, so the functions here pass the journal along
instead of being actions.
-/

namespace Retouch

/-- Makes an instance of a codemod from options. -/
abbrev Factory := Options → Journal → Except Failure Instance × Journal

/-- A factory that needs only the options. -/
def Factory.ofOptions {σ : Type} (make : Options → Except Failure (Codemod σ)) (initial : σ) :
    Factory := fun options journal =>
    match make options with
    | .ok codemod => (.ok { codemod, initial }, journal)
    | .error failure => (.error failure, journal)

/-- Factories by name, in the order of the names. -/
structure Registry where
  factories : List (String × Factory) := []

namespace Registry

/-- Puts a factory in its place in the order of names. -/
def registerIn (name : String) (factory : Factory) :
    List (String × Factory) → List (String × Factory)
  | [] => [(name, factory)]
  | (other, old) :: rest =>
    if name = other then (name, factory) :: rest
    else if name < other then (name, factory) :: (other, old) :: rest
    else (other, old) :: registerIn name factory rest

/-- Registers a factory under a name. -/
def register (registry : Registry) (name : String) (factory : Factory) : Registry :=
  ⟨registerIn name factory registry.factories⟩

/-- The factory of a name. -/
def get? (registry : Registry) (name : String) : Option Factory :=
  (registry.factories.find? fun entry => entry.1 = name).map Prod.snd

/-- Whether a name is registered. -/
def contains (registry : Registry) (name : String) : Bool :=
  (registry.get? name).isSome

/-- The registered names in order. -/
def names (registry : Registry) : List String :=
  registry.factories.map Prod.fst

/-- A name that is registered is found with its factory. -/
theorem find?_registerIn_self (name : String) (factory : Factory)
    (factories : List (String × Factory)) :
    (registerIn name factory factories).find? (fun entry => entry.1 = name) =
      some (name, factory) := by
  induction factories with
  | nil => simp [registerIn]
  | cons head rest ih =>
    obtain ⟨other, old⟩ := head
    by_cases same : name = other
    · simp [registerIn, same]
    · have differ : ¬ other = name := fun equal => same equal.symm
      by_cases before : name < other
      · simp [registerIn, same, before]
      · simp [registerIn, same, before, differ, ih]

/-- A registered factory is found. -/
@[simp] theorem get?_register_self (registry : Registry) (name : String) (factory : Factory) :
    (registry.register name factory).get? name = some factory := by
  simp [get?, register, find?_registerIn_self]

/-- The name of the codemod that changes nothing. -/
def identityName : String := "identity"

/-- The registry of the codemods that come with the library. -/
def builtin : Registry :=
  (((({} : Registry).register identityName (.ofOptions (fun _ => .ok {}) ())).register
    StringLiterals.codemodName (.ofOptions StringLiterals.ofOptions 0)).register
    RenameFunction.codemodName (.ofOptions RenameFunction.ofOptions ()))

/-- Makes the codemod that a manifest names. -/
def build (registry : Registry) (manifest : Manifest) (journal : Journal) :
    Except ManifestError Instance × Journal :=
  match registry.get? manifest.codemod with
  | none => (.error (.unknownCodemod manifest.codemod registry.names), journal)
  | some factory =>
    match factory manifest.options journal with
    | (.ok made, journal) => (.ok made, journal)
    | (.error failure, journal) => (.error (.construction manifest.codemod failure), journal)

/-- Reads the manifest at a path. -/
def readManifest (store : FileStore) (path : Path) : Except RunError Manifest :=
  if !store.pathExists path then .error (.codemodNotFound path)
  else if !store.isFile path then .error (.corruptCodemod path "not a file")
  else
    match store.readText path with
    | .error error => .error (.fileFailed path error)
    | .ok text =>
      match Manifest.parse text with
      | .error error => .error (.corruptCodemod path error.message)
      | .ok manifest => .ok manifest

/-- Reads the manifest at a path and makes its codemod; gives the name of the codemod with it. -/
def load (registry : Registry) (store : FileStore) (path : Path) (journal : Journal) :
    Except RunError (String × Instance) × Journal :=
  match readManifest store path with
  | .error error => (.error error, journal)
  | .ok manifest =>
    let journal := journal.add (.diagnostic
      ⟨.debug, "evaluated codemod manifest",
        [("path", path.raw), ("codemod", manifest.codemod),
          ("options", toString manifest.options.length)]⟩)
    match registry.build manifest journal with
    | (.ok made, journal) => (.ok (manifest.codemod, made), journal)
    | (.error error, journal) => (.error (.corruptCodemod path error.message), journal)

end Registry

end Retouch
