import Retouch.Files.Store

/-!
# From paths to locations

A path is followed one step at a time. Every step but the last has to reach a directory, `..` goes
to the directory above, and a symbolic link is replaced by the path that it holds, which is why
following it may go on anywhere. At most `linkLimit` links are followed on one path, names have at
most `nameLimit` bytes, and a path as a whole has fewer than `pathLimit`.

A path leads to an entry, or to a place in a directory where nothing is yet (`Destination`). A slash
at the end asks for a directory, just as `.` there does.
-/

namespace Retouch

/-- One step on the way along a path. -/
inductive PathStep where
  | here
  | up
  | name (name : String)
  /-- The slash at the end of a path, which stays in place. -/
  | slash
deriving DecidableEq, Repr, Inhabited

namespace Path

/-- The step that a segment stands for. -/
def stepOf? (segment : String) : Option PathStep :=
  if segment = "" then none
  else if segment = "." then some .here
  else if segment = ".." then some .up
  else some (.name segment)

/-- The steps along the path. -/
def steps (path : Path) : List PathStep :=
  let steps := path.segments.filterMap stepOf?
  if path.endsWithSlash && !steps.isEmpty then steps ++ [.slash] else steps

/-- Whether the path holds a NUL. -/
def holdsNul (path : Path) : Bool :=
  path.raw.toList.contains '\x00'

end Path

/-- Where a path leads: to an entry, or to a name in a directory that does not hold it. -/
inductive Destination where
  | present (location : Location)
  | absent (directory : Location) (name : String)
deriving DecidableEq, Repr, Inhabited

namespace FileStore

/-- The most symbolic links that are followed on one path. -/
def linkLimit : Nat := 40

/-- The most bytes of a name. -/
def nameLimit : Nat := 255

/-- A path with this many bytes is too long. -/
def pathLimit : Nat := 4096

/-- Follows steps from a location. `expand` goes on from a symbolic link, given the location and the
steps that the link and the rest of the path ask for. `writing` says that a file is to be written at
the end, so that a slash there is refused before anything is looked up. -/
def followWith (store : FileStore) (writing : Bool)
    (expand : Location → List PathStep → Except OsError Destination) :
    Location → List PathStep → Except OsError Destination
  | location, [] => .ok (.present location)
  | location, step :: rest =>
    if store.isDirectoryAt location then
      match step with
      | .here | .slash => followWith store writing expand location rest
      | .up => followWith store writing expand location.dropLast rest
      | .name name =>
        if writing && rest = [.slash] then .error .isDirectory
        else if nameLimit < name.utf8ByteSize then .error .nameTooLong
        else
          match store.get? (location ++ [name]) with
          | none => if rest = [] then .ok (.absent location name) else .error .noEntry
          | some (.link target) =>
            if target.raw = "" then .error .noEntry
            else expand (if target.isAbsolute then [] else location) (target.steps ++ rest)
          | some _ => followWith store writing expand (location ++ [name]) rest
    else .error .notDirectory

/-- Follows steps from a location through at most `links` symbolic links. -/
def followSteps (store : FileStore) (writing : Bool) :
    (links : Nat) → Location → List PathStep → Except OsError Destination
  | 0 => followWith store writing fun _ _ => .error .tooManyLinks
  | links + 1 => followWith store writing (followSteps store writing links)

/-- Where the steps along a path start. -/
def startOf (store : FileStore) (path : Path) : Location :=
  if path.isAbsolute then [] else store.workingDirectory

/-- Follows some steps of a path from where the path starts. A path with a NUL, one that is too long
and the empty one lead nowhere. -/
def follow (store : FileStore) (writing : Bool) (path : Path) (steps : List PathStep) :
    Except FileError Destination :=
  if path.holdsNul then .error .nulInPath
  else if pathLimit ≤ path.raw.utf8ByteSize then .error (.system .nameTooLong)
  else if path.raw = "" then .error (.system .noEntry)
  else (store.followSteps writing linkLimit (store.startOf path) steps).mapError .system

/-- The location of the entry that a path leads to. -/
def locate (store : FileStore) (path : Path) : Except FileError Location := do
  match ← store.follow false path path.steps with
  | .present location => .ok location
  | .absent _ _ => .error (.system .noEntry)

/-- The entry that a path leads to. -/
def entryAt? (store : FileStore) (path : Path) : Option Entry :=
  match store.locate path with
  | .ok location => store.get? location
  | .error _ => none

/-- Whether a path leads to anything. -/
def pathExists (store : FileStore) (path : Path) : Bool :=
  (store.entryAt? path).isSome

/-- Whether a path leads to a file. -/
def isFile (store : FileStore) (path : Path) : Bool :=
  match store.entryAt? path with
  | some (.file _) => true
  | _ => false

/-- Whether a path leads to a directory. -/
def isDirectory (store : FileStore) (path : Path) : Bool :=
  match store.entryAt? path with
  | some .directory => true
  | _ => false

/-- The directory and the last step of a path, when that step is a name: where the path would have
to be made. The error is that of the way to the directory, or of the name. -/
def parentOf (store : FileStore) (path : Path) :
    Except FileError (Location × Option String) := do
  let steps := path.segments.filterMap Path.stepOf?
  match ← store.follow false path steps.dropLast with
  | .absent _ _ => .error (.system .noEntry)
  | .present location =>
    if store.isDirectoryAt location then
      match steps.getLast? with
      | some (.name name) =>
        if nameLimit < name.utf8ByteSize then .error (.system .nameTooLong)
        else .ok (location, some name)
      | _ => .ok (location, none)
    else .error (.system .notDirectory)

/-- The location of the entry that a path leads to, found piece by piece, so that it does not matter
how long the path as a whole is. -/
def canonical? (store : FileStore) (path : Path) : Option Location :=
  if path.raw = "" || path.holdsNul then none
  else
    match store.followSteps false linkLimit (store.startOf path) path.steps with
    | .ok (.present location) => some location
    | _ => none

/-- The absolute path, without links, `.` and `..`, of an existing entry; else the path made
absolute without looking at the store. The empty path stays as it is. -/
def normalize (store : FileStore) (path : Path) : Path :=
  match store.canonical? path with
  | some location => location.toPath
  | none => (path.absolute? store.workingDirectory.toPath).getD path

end FileStore

end Retouch
