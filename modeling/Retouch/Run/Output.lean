import Retouch.Run.World

/-!
# Where output goes

Turns the output that a user asks for into a file or a directory, and makes the directories that
lead there. Without a request the output is in place.

* For a file (`outputFile`): an existing directory, and a path without an extension, takes a file of
  the same name as the input; any other path is the file itself.
* For a directory (`outputDirectory`): the path itself, unless a file has it. Then the first free
  one of `name-1`, `name-2` and so on next to it is taken, with a warning.
-/

namespace Retouch

/-- Whether a path has one of the extensions, in upper or lower case. -/
def Path.hasExtension (path : Path) (extensions : List String) : Bool :=
  match path.extension? with
  | none => false
  | some ending =>
    extensions.any fun extension =>
      ending.toList.map Char.toLower = extension.toList.map Char.toLower

/-- The file that the result for `input` goes to. -/
def outputFile (input : Path) : Option Path → FileM Path
  | none => do pure ((← get).normalize input)
  | some output => do
    let store ← get
    if store.isDirectory output || output.extension?.isNone then
      match input.fileName? with
      | none => throw (.refused s!"input has no file name: {input.raw}")
      | some name => do
        FileM.createDirectories output
        pure ((← get).normalize (output.join ⟨name⟩))
    else do
      match output.parent? with
      | some parent => if parent.raw ≠ "" then FileM.createDirectories parent
      | none => pure ()
      pure ((← get).normalize output)

/-- The path next to `output` with a number added to its name. -/
def numberedSibling (output : Path) (number : Nat) : Path :=
  let name := output.fileName?.getD "output"
  output.withFileName s!"{name}-{number}"

/-- The first number from `number` on whose sibling is no file, tried at most `rounds` times. -/
def freeNumber (store : FileStore) (output : Path) : (rounds number : Nat) → Nat
  | 0, number => number
  | rounds + 1, number =>
    if store.isFile (numberedSibling output number) then freeNumber store output rounds (number + 1)
    else number

/-- The sibling that takes the place of an output directory whose name a file has. There is a free
number among the first ones, one more than the store has entries. -/
def freeSibling (store : FileStore) (output : Path) : Path :=
  numberedSibling output (freeNumber store output (store.entries.length + 1) 1)

/-- The directory that the results for the files in `input` go to. -/
def outputDirectory (input : Path) : Option Path → EStateM FileError World Path
  | none => do pure ((← get).store.normalize input)
  | some output => do
    let store := (← get).store
    if store.isFile output then do
      let target := freeSibling store output
      World.report (.warning
        s!"output directory {output.raw} collides with an existing file, using {target.raw}")
      World.onFiles (FileM.createDirectories target)
      pure ((← get).store.normalize target)
    else do
      World.onFiles (FileM.createDirectories output)
      pure ((← get).store.normalize output)

end Retouch
