import Retouch.Files.Resolve

/-!
# Reading and writing files

The operations that look into files and change a store. They fail as the operating system does, and
a failing operation leaves behind what it had done before it failed: `createDirectories` may have
made some of the directories.
-/

namespace Retouch

/-- An action on a file store. -/
abbrev FileM : Type → Type :=
  EStateM FileError FileStore

namespace FileStore

/-- The bytes of the file that a path leads to. -/
def readBytes (store : FileStore) (path : Path) : Except FileError ByteArray := do
  match store.get? (← store.locate path) with
  | some (.file content) => .ok content
  | some .directory => .error (.system .isDirectory)
  | some (.link _) | none => .error (.system .noEntry)

/-- The text of the file that a path leads to. -/
def readText (store : FileStore) (path : Path) : Except FileError String := do
  match String.fromUTF8? (← store.readBytes path) with
  | some text => .ok text
  | none => .error .notText

/-- Where writing to a path puts its content. A path that ends with a slash, `.` or `..` asks for a
directory and cannot be written, and neither can a link to such a path. -/
def writePlace (store : FileStore) (path : Path) : Except FileError Location := do
  match ← store.follow true path path.steps with
  | .absent directory name => .ok (directory ++ [name])
  | .present location =>
    if store.isDirectoryAt location then .error (.system .isDirectory) else .ok location

end FileStore

namespace FileM

/-- Reads the text of a file. -/
def readText (path : Path) : FileM String := fun store =>
  match store.readText path with
  | .ok text => .ok text store
  | .error error => .error error store

/-- Writes bytes to a file, which is made if its directory exists. -/
def writeBytes (path : Path) (content : ByteArray) : FileM Unit := fun store =>
  match store.writePlace path with
  | .ok location => .ok () (store.put location (.file content))
  | .error error => .error error store

/-- Writes a text to a file. -/
def writeText (path : Path) (text : String) : FileM Unit :=
  writeBytes path text.toUTF8

/-- Makes an entry at a path where nothing is yet. -/
def create (path : Path) (entry : Entry) : FileM Unit := fun store =>
  match store.parentOf path with
  | .error error => .error error store
  | .ok (_, none) => .error (.system .alreadyExists) store
  | .ok (directory, some name) =>
    match store.get? (directory ++ [name]) with
    | some _ => .error (.system .alreadyExists) store
    | none => .ok () (store.put (directory ++ [name]) entry)

/-- Makes a directory at a path where nothing is yet. -/
def createDirectory (path : Path) : FileM Unit :=
  create path .directory

/-- Makes a directory given the paths from it upwards: if there is no directory to make it in, that
one is made first. An existing directory is left alone. -/
def createAlong : List Path → FileM Unit
  | [] => throw (.refused "failed to create whole tree")
  | path :: above => fun store =>
    if path.raw = "" then .ok () store
    else
      match createDirectory path store with
      | .ok () store => .ok () store
      | .error error store =>
        if error = .system .noEntry then
          match createAlong above store with
          | .error error store => .error error store
          | .ok () store =>
            match createDirectory path store with
            | .ok () store => .ok () store
            | .error error store =>
              if store.isDirectory path then .ok () store else .error error store
        else if store.isDirectory path then .ok () store
        else .error error store

/-- Makes a directory and all directories that lead to it, as far as they do not exist. -/
def createDirectories (path : Path) : FileM Unit :=
  createAlong path.ancestors

/-- Removes the entry at a path, with everything below it, and not what a link there leads to. -/
def remove (path : Path) : FileM Unit := fun store =>
  match store.parentOf path with
  | .error error => .error error store
  | .ok (_, none) => .error (.system .isDirectory) store
  | .ok (directory, some name) => .ok () (store.erase (directory ++ [name]))

end FileM

end Retouch
