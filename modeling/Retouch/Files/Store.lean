import Retouch.Files.OsError
import Retouch.Files.Path

/-!
# File stores

A file store holds files, directories and symbolic links. Each stands at a *location*, the list of
names from the root down to it, and the store is a finite map from locations to entries; the root is
always a directory. This module has the map and nothing else: how a path leads to a location is the
matter of `Retouch.Files.Resolve`.

The view on a store is `get?`. Two laws say all about writing: an entry that was put is found
(`get?_put_self`), and every other entry is as before (`get?_put_of_ne`).
-/

namespace Retouch

/-- The names from the root down to an entry. -/
abbrev Location := List String

/-- What can stand at a location. -/
inductive Entry where
  | file (content : ByteArray)
  | directory
  | link (target : Path)
deriving Inhabited

/-- Whether two entries are equal. Files are compared byte by byte. -/
def Entry.decEq : (a b : Entry) → Decidable (a = b)
  | .file ⟨a⟩, .file ⟨b⟩ =>
    if h : a = b then isTrue (by rw [h]) else isFalse (fun equal => by cases equal; exact h rfl)
  | .link a, .link b =>
    if h : a = b then isTrue (by rw [h]) else isFalse (fun equal => by cases equal; exact h rfl)
  | .directory, .directory => isTrue rfl
  | .file _, .directory | .file _, .link _ | .directory, .file _ | .directory, .link _
  | .link _, .file _ | .link _, .directory => isFalse (fun equal => by cases equal)

instance : DecidableEq Entry :=
  Entry.decEq

/-- Files, directories and links by location, and the directory that relative paths start from. -/
structure FileStore where
  entries : List (Location × Entry) := []
  workingDirectory : Location := []
deriving Inhabited

/-- The absolute path of a location. -/
def Location.toPath (location : Location) : Path :=
  ⟨"/" ++ "/".intercalate location⟩

namespace FileStore

/-- The entry at a location. -/
def get? (store : FileStore) (location : Location) : Option Entry :=
  if location = [] then some .directory else store.entries.lookup location

/-- Puts an entry in the place of the first one at its location, or at the end. -/
def putIn (location : Location) (entry : Entry) :
    List (Location × Entry) → List (Location × Entry)
  | [] => [(location, entry)]
  | (place, old) :: rest =>
    if place = location then (place, entry) :: rest else (place, old) :: putIn location entry rest

/-- The store with an entry at a location. -/
def put (store : FileStore) (location : Location) (entry : Entry) : FileStore :=
  { store with entries := putIn location entry store.entries }

/-- The store without the entry at a location and everything below it. -/
def erase (store : FileStore) (location : Location) : FileStore :=
  { store with entries := store.entries.filter fun (place, _) => !location.isPrefixOf place }

/-- Whether a directory stands at a location. -/
def isDirectoryAt (store : FileStore) (location : Location) : Bool :=
  store.get? location = some .directory

/-- Puts an entry of a directory among others, which are in the order of their names. -/
def insertByName (item : String × Entry) : List (String × Entry) → List (String × Entry)
  | [] => [item]
  | other :: rest =>
    if item.1 ≤ other.1 then item :: other :: rest else other :: insertByName item rest

/-- The entries of a directory, ordered by name. -/
def list (store : FileStore) (directory : Location) : List (String × Entry) :=
  let inside := store.entries.filterMap fun (place, entry) =>
    match place.getLast? with
    | some name => if place.dropLast = directory then some (name, entry) else none
    | none => none
  inside.foldr insertByName []

/-- All locations that hold an entry. -/
def locations (store : FileStore) : List Location :=
  store.entries.map Prod.fst

/-- An entry that is put is at its location. -/
theorem lookup_putIn_self (location : Location) (entry : Entry)
    (entries : List (Location × Entry)) :
    (putIn location entry entries).lookup location = some entry := by
  induction entries with
  | nil => simp [putIn]
  | cons head rest ih =>
    obtain ⟨place, old⟩ := head
    by_cases h : place = location
    · simp [putIn, h]
    · have h' : (location == place) = false := by simp [Ne.symm h]
      simp [putIn, h, List.lookup_cons, h', ih]

/-- To put an entry does not change other locations. -/
theorem lookup_putIn_of_ne {location other : Location} (h : other ≠ location) (entry : Entry)
    (entries : List (Location × Entry)) :
    (putIn location entry entries).lookup other = entries.lookup other := by
  have h' : (other == location) = false := by simp [h]
  induction entries with
  | nil => simp [putIn, List.lookup_cons, h']
  | cons head rest ih =>
    obtain ⟨place, old⟩ := head
    by_cases hp : place = location
    · subst hp
      simp [putIn, List.lookup_cons, h']
    · simp [putIn, hp, List.lookup_cons, ih]

/-- What was put at a location is found there. -/
theorem get?_put_self (store : FileStore) {location : Location} (h : location ≠ [])
    (entry : Entry) :
    (store.put location entry).get? location = some entry := by
  simp [get?, put, h, lookup_putIn_self]

/-- Putting an entry changes no other location. -/
theorem get?_put_of_ne (store : FileStore) {location other : Location} (h : other ≠ location)
    (entry : Entry) : (store.put location entry).get? other = store.get? other := by
  simp [get?, put, lookup_putIn_of_ne h]

end FileStore

end Retouch
