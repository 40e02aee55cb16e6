import Retouch.Codemod.Basic
import Retouch.Files.Access

/-!
# What a run changes

The states that the parts of a run work on, from the smallest to the largest.

* `World`: the files and the journal, which outlive every codemod.
* `Live`: a codemod in use on texts: its own state, the context of the text at hand, and the
  journal. No text leaves a context behind.
* `Site`: a codemod in use on files, which is all of the above.

An action on a smaller state is an action on a larger one by `focus`.
-/

namespace Retouch

/-- Files and journal. -/
structure World where
  store : FileStore := {}
  journal : Journal := {}

/-- A codemod in use on texts. -/
structure Live (σ : Type) where
  own : σ
  context : Context := .empty
  journal : Journal := {}

/-- A codemod in use on files. -/
structure Site (σ : Type) where
  own : σ
  context : Context := .empty
  journal : Journal := {}
  store : FileStore := {}

/-- Reports an event. -/
def World.report {ε : Type} (event : Event) : EStateM ε World Unit :=
  modify fun world => { world with journal := world.journal.add event }

/-- An action on files as an action on a world. -/
def World.onFiles {α : Type} (action : FileM α) : EStateM FileError World α :=
  focus World.store (fun store world => { world with store }) id action

namespace Site

variable {σ : Type}

/-- The part of the site that is in use on texts. -/
def live (site : Site σ) : Live σ :=
  ⟨site.own, site.context, site.journal⟩

/-- The site with the part that is in use on texts replaced. -/
def withLive (live : Live σ) (site : Site σ) : Site σ :=
  { site with own := live.own, context := live.context, journal := live.journal }

/-- Files and journal of the site. -/
def world (site : Site σ) : World :=
  ⟨site.store, site.journal⟩

/-- The site with files and journal replaced. -/
def withWorld (world : World) (site : Site σ) : Site σ :=
  { site with store := world.store, journal := world.journal }

end Site

/-- An action of a run with a codemod. -/
abbrev RunM (σ : Type) : Type → Type :=
  EStateM RunError (Site σ)

namespace RunM

variable {σ α : Type}

/-- An action on texts. -/
def onText (action : EStateM RunError (Live σ) α) : RunM σ α :=
  focus Site.live Site.withLive id action

/-- An action on files and journal; a failure is reported on a path. -/
def onWorld (path : Path) (action : EStateM FileError World α) : RunM σ α :=
  focus Site.world Site.withWorld (RunError.fileFailed path) action

/-- An action on files; a failure is reported on a path. -/
def onFiles (path : Path) (action : FileM α) : RunM σ α :=
  onWorld path (World.onFiles action)

/-- Reports an event. -/
def report (event : Event) : RunM σ Unit :=
  modify fun site => { site with journal := site.journal.add event }

/-- The files at this moment. -/
def files : RunM σ FileStore := do
  pure (← get).store

end RunM

end Retouch
