import Retouch.Codemod.Registry
import Retouch.Run.Transformer

/-!
# Runners

A runner takes a target through a schedule of codemods, given by their manifests. Every codemod is
loaded when its turn comes. If an output is asked for, the first codemod writes there and the later
ones go on in place on what it wrote; else all of them work in place on the target.

`execute` gives the first error back. `executeSecured` reports it to the journal instead, and
`executeReported` does both.
-/

namespace Retouch

/-- A transformer with the state of its codemod, whatever the type of that state is. -/
structure Loaded where
  {State : Type}
  transformer : Transformer State
  own : State
  context : Context := .empty

namespace Loaded

/-- Puts a codemod to use in a world, runs an action, and gives the codemod back as the action left
it. -/
def runWith {α : Type} (loaded : Loaded) (action : RunM loaded.State α) (world : World) :
    Except RunError α × Loaded × World :=
  match action ⟨loaded.own, loaded.context, world.journal, world.store⟩ with
  | .ok value site =>
    (.ok value, { loaded with own := site.own, context := site.context }, site.world)
  | .error error site =>
    (.error error, { loaded with own := site.own, context := site.context }, site.world)

/-- Transforms a text. -/
def onText (loaded : Loaded) (text : String) (context : Option Context) (world : World) :
    Except RunError String × Loaded × World :=
  loaded.runWith (RunM.onText (loaded.transformer.onText text context)) world

/-- Transforms a file. -/
def onFile (loaded : Loaded) (input : Path) (output : Option Path) (world : World) :
    Except RunError Path × Loaded × World :=
  loaded.runWith (loaded.transformer.onFile input output) world

/-- Transforms the files below a directory. -/
def onDirectory (loaded : Loaded) (input : Path) (output : Option Path) (ignored : IgnoreSet)
    (world : World) : Except RunError Path × Loaded × World :=
  loaded.runWith (loaded.transformer.onDirectory input output ignored) world

/-- Transforms what a path leads to. -/
def onPath (loaded : Loaded) (path : Path) (output : Option Path) (ignored : IgnoreSet)
    (world : World) : Except RunError Path × Loaded × World :=
  loaded.runWith (loaded.transformer.onPath path output ignored) world

/-- A transformer without a codemod. -/
def bare (grammar : Grammar) (ownExtensions : Option (List String)) : Loaded :=
  { transformer := ({ grammar, ownExtensions } : Transformer Unit), own := () }

/-- Sets a codemod up and puts it into a transformer. -/
def ofInstance (grammar : Grammar) (ownExtensions : Option (List String)) (name : String)
    (manifest : Path) (made : Instance) (journal : Journal) : Except RunError Loaded × Journal :=
  match made.codemod.prepare name manifest ⟨made.initial, journal⟩ with
  | .ok prepared state =>
    (.ok { transformer := { grammar, codemod := some prepared, ownExtensions }, own := state.own },
      state.journal)
  | .error error state => (.error error, state.journal)

/-- The number of steps of the codemod. -/
def stepCount (loaded : Loaded) : Nat :=
  (loaded.transformer.codemod.map fun codemod => codemod.plan.length).getD 0

end Loaded

/-- A registry, a grammar, and the manifests of the codemods to run. -/
structure Runner where
  registry : Registry
  grammar : Grammar
  schedule : List Path := []

namespace Runner

/-- Adds manifests at the end of the schedule. -/
def addAll (runner : Runner) (manifests : List Path) : Runner :=
  { runner with schedule := runner.schedule ++ manifests }

/-- Empties the schedule. -/
def clear (runner : Runner) : Runner :=
  { runner with schedule := [] }

/-- Loads a codemod from its manifest and sets it up. -/
def loadCodemod (runner : Runner) (manifest : Path) (world : World) :
    Except RunError Loaded × World :=
  match runner.registry.load world.store manifest world.journal with
  | (.error error, journal) => (.error error, { world with journal })
  | (.ok (name, made), journal) =>
    match Loaded.ofInstance runner.grammar none name manifest made journal with
    | (.error error, journal) => (.error error, { world with journal })
    | (.ok loaded, journal) =>
      let journal := journal.append
        [.diagnostic
          ⟨.debug, "prepared codemod", [("codemod", name), ("steps", toString loaded.stepCount)]⟩,
          .loaded name manifest]
      (.ok loaded, { world with journal })

/-- Runs the codemods of some manifests on a target, one after the other. -/
def executeAll (runner : Runner) (ignored : IgnoreSet) :
    List Path → Path → Option Path → World → Except RunError Path × World
  | [], target, _, world => (.ok target, world)
  | manifest :: rest, target, output, world =>
    match runner.loadCodemod manifest world with
    | (.error error, world) => (.error error, world)
    | (.ok loaded, world) =>
      let journal := world.journal.add (.diagnostic
        ⟨.info, "running codemod", [("codemod", manifest.raw), ("target", target.raw)]⟩)
      match loaded.onPath target output ignored { world with journal } with
      | (.error error, _, world) => (.error error, world)
      | (.ok produced, _, world) =>
        executeAll runner ignored rest (if output.isSome then produced else target) none world

/-- Runs the schedule on a target, and gives the path of the result. -/
def execute (runner : Runner) (target : Path) (output : Option Path) (ignore : List Path)
    (world : World) : Except RunError Path × World :=
  let (entries, events) := world.store.resolveEntries target ignore
  let ignored := IgnoreSet.ofPaths world.store entries
  runner.executeAll ignored runner.schedule target output
    { world with journal := world.journal.append events }

/-- Runs the schedule, reports an error, and gives it back. -/
def executeReported (runner : Runner) (target : Path) (output : Option Path) (ignore : List Path)
    (withCauses : Bool) (world : World) : Except RunError Path × World :=
  match runner.execute target output ignore world with
  | (.ok path, world) => (.ok path, world)
  | (.error error, world) =>
    (.error error, { world with journal := world.journal.append (error.report withCauses) })

/-- Runs the schedule, reports an error, and says whether there was none. -/
def executeSecured (runner : Runner) (target : Path) (output : Option Path) (ignore : List Path)
    (withCauses : Bool) (world : World) : Bool × World :=
  match runner.executeReported target output ignore withCauses world with
  | (.ok _, world) => (true, world)
  | (.error _, world) => (false, world)

end Runner

end Retouch
