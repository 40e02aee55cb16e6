import Retouch.Failure
import Retouch.Files.OsError
import Retouch.Files.Path
import Retouch.Tree.Concrete

/-!
# Errors of a run

Everything that can end a run, with its cause. The wording of an error is in `RunError.message`, the
code that the process ends with in `RunError.code`, and the chain of causes behind it in
`RunError.causes`.
-/

namespace Retouch

/-- Why a run ended early. -/
inductive RunError where
  /-- The input is not there, or is not a file or directory as required. -/
  | fileNotFound (path : Path)
  /-- The manifest of a codemod is not there. -/
  | codemodNotFound (path : Path)
  /-- The manifest is there and yields no codemod. -/
  | corruptCodemod (path : Path) (reason : String)
  /-- The source text does not fit the grammar. -/
  | syntaxFault (file : Option Path) (fault : SyntaxFault)
  /-- A codemod failed, while it was set up or on a file. -/
  | codemodFailed (file : Option Path) (failure : Failure)
  /-- A file could not be read or written. -/
  | fileFailed (path : Path) (error : FileError)
  /-- The arguments make no sense. -/
  | invalidArguments (reason : String)
deriving DecidableEq, Repr, Inhabited

/-- The ways in which the process can end with an error. -/
inductive ExitCode where
  | invalidArguments
  | notFound
  | notLoaded
  | notParsed
  | codemodFailed
  | internal
deriving DecidableEq, Repr, Inhabited

/-- The number that the process ends with. -/
def ExitCode.number : ExitCode → Nat
  | invalidArguments => 2
  | notFound => 3
  | notLoaded => 4
  | notParsed => 5
  | codemodFailed => 6
  | internal => 10

namespace RunError

/-- Names a file, when one is known. -/
def inFile : Option Path → String
  | some path => " in " ++ path.raw
  | none => ""

/-- The error as one text. -/
def message : RunError → String
  | fileNotFound path => s!"file not found: {path.raw}"
  | codemodNotFound path => s!"codemod not found: {path.raw}"
  | corruptCodemod path reason => s!"corrupt codemod {path.raw}: {reason}"
  | syntaxFault file fault =>
    let position := fault.position
    s!"parse error{inFile file} at {position.line}:{position.column}: {fault.description}"
  | codemodFailed file failure => s!"codemod execution failed{inFile file}: {failure.summary}"
  | fileFailed path error => s!"I/O error on {path.raw}: {error.message}"
  | invalidArguments reason => s!"invalid arguments: {reason}"

/-- How the process ends. -/
def code : RunError → ExitCode
  | fileNotFound _ => .notFound
  | codemodNotFound _ => .notFound
  | corruptCodemod _ _ => .notLoaded
  | syntaxFault _ _ => .notParsed
  | codemodFailed _ _ => .codemodFailed
  | fileFailed _ _ => .internal
  | invalidArguments _ => .invalidArguments

/-- The file that the error is about, when it is known. -/
def file? : RunError → Option Path
  | fileNotFound path => some path
  | codemodNotFound path => some path
  | corruptCodemod path _ => some path
  | syntaxFault file _ => file
  | codemodFailed file _ => file
  | fileFailed path _ => some path
  | invalidArguments _ => none

/-- Whether something that the run needs was not there. -/
def isNotFound : RunError → Bool
  | fileNotFound _ => true
  | codemodNotFound _ => true
  | _ => false

/-- The causes behind the error, the nearest first. -/
def causes : RunError → List String
  | codemodFailed _ failure => failure.chain
  | fileFailed _ error => [error.message]
  | _ => []

end RunError

end Retouch
