import Retouch.Run.Runner
import Retouch.Text.Quoted

/-!
# Listings of transformers and runners

One-line descriptions of the parts of a run, for diagnostics: each value by the name of its type and
its fields, texts between quotes.
-/

namespace Retouch

/-- A record by the name of its type and its fields. -/
def listingRecord (name : String) (fields : List (String × String)) : String :=
  let shown := ", ".intercalate (fields.map fun (field, value) => field ++ ": " ++ value)
  name ++ " \x7b " ++ shown ++ " \x7d"

/-- A context, attribute by attribute. -/
def Context.listing (context : Context) : String :=
  let shown := ", ".intercalate
    (context.attributes.map fun (name, value) => Text.listing name ++ ": " ++ Text.listing value)
  listingRecord "TransformContext" [("attributes", "\x7b" ++ shown ++ "\x7d")]

/-- A plan, with the number of visitors of each step. -/
def Plan.listing {σ : Type} (plan : Plan σ) : String :=
  listingRecord "TraversalPlan"
    [("steps", Text.listingList
      (plan.map fun visitors =>
        listingRecord "TraversalStep" [("visitors", toString visitors.length)]))]

/-- A codemod that is set up, with the context that it has at the moment. -/
def Prepared.listing {σ : Type} (prepared : Prepared σ) (context : Context) : String :=
  listingRecord "PreparedCodemod"
    [("name", Text.listing prepared.name), ("path", Text.listing prepared.manifest.raw),
      ("plan", Plan.listing prepared.plan), ("context", context.listing)]

/-- A transformer with its codemod. -/
def Loaded.listing (loaded : Loaded) : String :=
  listingRecord "Transformer"
    [("toolkit", Text.listing loaded.transformer.grammar.name),
      ("codemod", Text.listingOption
        (loaded.transformer.codemod.map fun codemod => codemod.listing loaded.context)),
      ("extensions", Text.listingList (loaded.transformer.extensions.map Text.listing))]

/-- A runner with the names that it knows and its schedule. -/
def Runner.listing (runner : Runner) : String :=
  listingRecord "Runner"
    [("registry", listingRecord "CodemodRegistry"
        [("names", Text.listingList (runner.registry.names.map Text.listing))]),
      ("toolkit", Text.listing runner.grammar.name),
      ("schedule", Text.listingList (runner.schedule.map fun path => Text.listing path.raw))]

end Retouch
