import Retouch.Cli.Program
import Retouch.Tree.Written

/-!
# The command line

Runs the program on the files of the machine. The files below the working directory, and those that
absolute arguments lead to, are read into a store; the program runs on the store; what it changed
there is written back. Concrete trees of PHP sources are read from standard input, as
`Retouch.Tree.Written` describes.
-/

namespace Retouch.Cli

/-- The entry for something in a directory, and the entries below it. -/
partial def loadEntry (location : Location) (entry : IO.FS.DirEntry) :
    IO (List (Location × Entry)) := do
  let location := location ++ [entry.fileName]
  match (← entry.path.symlinkMetadata).type with
  | .dir =>
    let below ← (← entry.path.readDir).toList.mapM (loadEntry location)
    return (location, .directory) :: below.flatten
  | .file => return [(location, .file (← IO.FS.readBinFile entry.path))]
  | .symlink =>
    try return [(location, .link ⟨(← IO.FS.realPath entry.path).toString⟩)]
    catch _ => return []
  | .other => return []

/-- The names from the root down to an absolute path. -/
def locationOf (path : String) : Location :=
  (path.splitOn "/").filter (· ≠ "")

/-- The directories above a location, and all entries below the path that leads there. -/
def loadTree (path : String) : IO (List (Location × Entry)) := do
  let location := locationOf path
  let above := (List.range (location.length + 1)).map fun length =>
    (location.take length, Entry.directory)
  let root ← IO.FS.realPath path
  let below ← (← root.readDir).toList.mapM (loadEntry location)
  return above.drop 1 ++ below.flatten

/-- The files that a run with some arguments can see. -/
def loadStore (arguments : List String) : IO FileStore := do
  let here := (← IO.currentDir).toString
  let mut store : FileStore := { workingDirectory := locationOf here }
  for path in here :: arguments.filter (fun argument => (Path.mk argument).isAbsolute) do
    let entries ← (try loadTree path catch _ => pure [])
    for (location, entry) in entries do
      store := store.put location entry
  return store

/-- Writes the entries that changed between two stores. -/
def saveChanges (before after : FileStore) : IO Unit := do
  for (location, entry) in after.entries do
    if before.get? location ≠ some entry then
      let path := location.toPath.raw
      match entry with
      | .directory => IO.FS.createDirAll path
      | .file content => IO.FS.writeBinFile path content
      | .link _ => pure ()

/-- All lines of a stream. -/
partial def readLines (stream : IO.FS.Stream) : IO (List String) := do
  let rec go (lines : List String) : IO (List String) := do
    let line ← stream.getLine
    if line.isEmpty then return lines.reverse
    go ((line.dropEndWhile (· = '\n')).toString :: lines)
  go []

/-- One line for a log record. -/
def recordLine (record : Record) : String :=
  let level :=
    match record.level with
    | .trace => "TRACE"
    | .debug => "DEBUG"
    | .info => "INFO"
    | .warn => "WARN"
    | .error => "ERROR"
  let fields := record.fields.map fun (name, value) => name ++ "=" ++ value
  " ".intercalate (level :: record.message :: fields)

/-- Whether the arguments ask for something that reads sources. -/
def needsTrees (arguments : List String) : Bool :=
  match Invocation.parse arguments with
  | .execute (.run _) _ | .execute (.tree _ _ _) _ => true
  | _ => false

end Retouch.Cli

open Retouch in
/-- Runs the program and ends with its code. -/
def main (arguments : List String) : IO UInt32 := do
  let trees ← if Cli.needsTrees arguments then Cli.readLines (← IO.getStdin) else pure []
  let grammar := Grammar.php (Written.treeOf (Written.readTrees trees))
  let store ← Cli.loadStore arguments
  let outcome := Cli.runProgram grammar arguments { store }
  Cli.saveChanges store outcome.world.store
  for record in outcome.log do
    IO.eprintln (Cli.recordLine record)
  IO.print outcome.output
  IO.eprint outcome.errors
  return UInt32.ofNat outcome.code
