import Retouch.Report.Error

/-!
# Journals

All parts of a run report what they do to a journal, a list of events in the order in which they
happened. What a user gets to see of it is a view on that list.

* `Journal.console`: the lines on the two output channels.
* `Journal.records`: records for a log, with a level and named fields. The diagnostics of the run
  itself are always among them; with `.all`, so is everything that the console shows.
* `Journal.notes`: lines that scripted visitors keep for themselves and no other view shows.
-/

namespace Retouch

/-- The output channels. -/
inductive Channel where
  | out
  | err
deriving DecidableEq, Repr, Inhabited

/-- Levels of log records. -/
inductive Level where
  | trace
  | debug
  | info
  | warn
  | error
deriving DecidableEq, Repr, Inhabited

/-- A record for a log. -/
structure Record where
  level : Level
  message : String
  fields : List (String × String) := []
deriving DecidableEq, Repr, Inhabited

/-- Something that happened in a run. -/
inductive Event where
  /-- A line for the user. -/
  | line (channel : Channel) (text : String)
  /-- A problem that does not end the run. -/
  | warning (message : String)
  /-- A file went through a codemod. -/
  | transformed (input output : Path) (changed : Bool)
  /-- A codemod was loaded from its manifest. -/
  | loaded (codemod : String) (manifest : Path)
  /-- A diagnostic of the run itself. -/
  | diagnostic (record : Record)
  /-- A line that a scripted visitor keeps. -/
  | note (text : String)
deriving DecidableEq, Repr, Inhabited

namespace Event

/-- The lines that an event puts on the console. -/
def console : Event → List (Channel × String)
  | line channel text => [(channel, text)]
  | warning message => [(.err, "warning: " ++ message)]
  | transformed input output changed =>
    let status := if changed then "changed" else "unchanged"
    if input.same output then [(.out, s!"{input.raw} ({status})")]
    else [(.out, s!"{input.raw} -> {output.raw} ({status})")]
  | loaded codemod manifest => [(.out, s!"loaded codemod `{codemod}` from {manifest.raw}")]
  | diagnostic _ => []
  | note _ => []

/-- The record that a log keeps of an event which the console shows. -/
def consoleRecord? : Event → Option Record
  | line .out text => some ⟨.info, text, []⟩
  | line .err text => some ⟨.error, text, []⟩
  | warning message => some ⟨.warn, message, []⟩
  | transformed input output changed =>
    some ⟨.info, "transformed file",
      [("input", input.raw), ("output", output.raw), ("changed", toString changed)]⟩
  | loaded codemod manifest =>
    some ⟨.info, "loaded codemod", [("codemod", codemod), ("path", manifest.raw)]⟩
  | diagnostic _ => none
  | note _ => none

/-- The diagnostic that an event is. -/
def diagnostic? : Event → Option Record
  | diagnostic record => some record
  | _ => none

/-- The line that a scripted visitor kept. -/
def note? : Event → Option String
  | note text => some text
  | _ => none

end Event

/-- What a log takes up. -/
inductive LogScope where
  /-- Diagnostics only. -/
  | diagnostics
  /-- Diagnostics and everything that the console shows. -/
  | all
deriving DecidableEq, Repr, Inhabited

/-- The events of a run, in order. -/
structure Journal where
  events : List Event := []
deriving DecidableEq, Repr, Inhabited

namespace Journal

/-- Adds events at the end. -/
def append (journal : Journal) (events : List Event) : Journal :=
  ⟨journal.events ++ events⟩

/-- Adds an event at the end. -/
def add (journal : Journal) (event : Event) : Journal :=
  journal.append [event]

/-- The console lines. -/
def console (journal : Journal) : List (Channel × String) :=
  journal.events.flatMap Event.console

/-- The console lines of one channel. -/
def channelLines (journal : Journal) (channel : Channel) : List String :=
  journal.console.filterMap fun (shown, text) => if shown = channel then some text else none

/-- The log records. -/
def records (journal : Journal) (scope : LogScope) : List Record :=
  journal.events.filterMap fun event =>
    match scope with
    | .diagnostics => event.diagnostic?
    | .all => event.diagnostic? <|> event.consoleRecord?

/-- The lines that scripted visitors kept. -/
def notes (journal : Journal) : List String :=
  journal.events.filterMap Event.note?

/-- The events since a journal that this one continues. -/
def since (journal earlier : Journal) : Journal :=
  ⟨journal.events.drop earlier.events.length⟩

/-- Later events are shown after the earlier ones. -/
@[simp] theorem console_append (journal : Journal) (events : List Event) :
    (journal.append events).console = journal.console ++ events.flatMap Event.console := by
  simp [console, append]

/-- Later notes come after the earlier ones. -/
@[simp] theorem notes_append (journal : Journal) (events : List Event) :
    (journal.append events).notes = journal.notes ++ events.filterMap Event.note? := by
  simp [notes, append]

/-- What was appended is what happened since. -/
@[simp] theorem since_append (journal : Journal) (events : List Event) :
    (journal.append events).since journal = ⟨events⟩ := by
  simp [since, append]

end Journal

/-- A line that reports a failure. -/
def Event.failure (message : String) : Event :=
  .line .err ("error: " ++ message)

/-- The events that report an error, with its causes if `withCauses` is set. -/
def RunError.report (error : RunError) (withCauses : Bool) : List Event :=
  Event.failure error.message ::
    (if withCauses then
      error.causes.map fun cause => Event.line .err ("  caused by: " ++ cause)
    else [])

end Retouch
