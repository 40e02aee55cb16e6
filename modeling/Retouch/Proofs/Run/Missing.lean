import Retouch.Proofs.Run.Sources

/-!
# Schedules with a missing manifest

Every codemod is loaded when its turn comes. So a manifest that is missing then stops the run with
an error, and the world is as the codemods before it left it (`execute_of_missing`). What counts is
whether the manifest is there when its turn comes: an earlier codemod may have written it.

* When it is the first one, no file is touched.
* When the run is redirected (`Redirects`), the files of the target are untouched at every position
  of the missing manifest, under the provisos of any redirected run.
* In place, the target is not what it was when it is a later one
  (`execute_rewrites_before_missing`).
-/

namespace Retouch

variable {target : Path} {output : Option Path} {ignore : List Path}
  {world after : World}

/-- A run on a directory is redirected: its output is found at another directory, and there is no
link in it. -/
structure Redirects (world : World) (target output : Path) (root out : Location) : Prop where
  wellFormed : world.store.WellFormed
  locate : world.store.locate target = .ok root
  directory : world.store.get? root = some .directory
  found : ∃ ready, outputDirectory root.toPath (some output) world = .ok out.toPath ready ∧
    ready.store.get? out = some .directory
  differs : out ≠ root
  clear : ∀ location link, out <+: location → world.store.get? location ≠ some (.link link)

namespace Runner

/-- How manifests are run does not depend on what else is in the schedule. -/
theorem executeAll_withSchedule (runner : Runner) (schedule : List Path) (ignored : IgnoreSet)
    (manifests : List Path) (target : Path) (output : Option Path) (world : World) :
    executeAll { runner with schedule } ignored manifests target output world =
      runner.executeAll ignored manifests target output world := by
  induction manifests generalizing target output world with
  | nil => rfl
  | cons manifest rest ih =>
    rw [executeAll_cons, executeAll_cons]
    simp only [ih]
    rfl

/-- A stage with a missing manifest does nothing but fail. -/
theorem stage_of_missing (runner : Runner) (ignored : IgnoreSet) {manifest : Path} (target : Path)
    (output : Option Path) (h : world.store.pathExists manifest = false) :
    runner.stage ignored manifest target output world =
      (.error (.codemodNotFound manifest), world) := by
  unfold stage loadCodemod Registry.load Registry.readManifest
  rw [h]
  rfl

/-- A missing manifest stops the run with an error, and leaves the world as the codemods before it
left it. If there are none, no file is touched. If the run is redirected, every file of the target
that is not in the output is untouched, unless the output is above the target and more than one
codemod comes before the missing one. -/
theorem execute_of_missing (runner : Runner) (before rest : List Path) (missing : Path)
    {result : Path} (hschedule : runner.schedule = before ++ missing :: rest)
    (hbefore : execute { runner with schedule := before } target output ignore world =
      (.ok result, after))
    (hmissing : after.store.pathExists missing = false) :
    runner.execute target output ignore world = (.error (.codemodNotFound missing), after) ∧
      (before = [] → after.store = world.store) ∧
      ∀ path root out, output = some path → Redirects world target path root out →
        (out <+: root → before.length ≤ 1) → ∀ file content,
        world.store.get? file = some (.file content) → root <+: file →
        ¬ (root <+: out ∧ out <+: file) → after.store.get? file = some (.file content) := by
  simp only [execute, executeAll_withSchedule] at hbefore
  refine ⟨?_, ?_, ?_⟩
  · simp only [execute, hschedule, executeAll_append, hbefore]
    rw [executeAll_cons, stage_of_missing runner _ _ _ hmissing]
  · rintro rfl
    cases hbefore
    rfl
  · -- the codemods before the missing one are a redirected run of their own
    rintro path root out rfl hredirects habove file content hfile hsource hkept
    obtain ⟨ready, hresolved, hout⟩ := hredirects.found
    have hat := outputAt_of_outputDirectory hredirects.wellFormed hredirects.directory hresolved
      hout
    have hafter := congrArg (fun outcome => outcome.2.store.get? file) hbefore
    refine hafter.symm.trans ?_
    exact get?_executeAll_of_output hredirects.wellFormed hredirects.locate hredirects.directory
      hat hredirects.differs habove hredirects.clear hfile hsource hkept

/-- The second of three manifests is missing, and the run is redirected. -/
theorem execute_of_missing_bench :
    let run := (echoRunner [⟨"strings.toml"⟩, ⟨"missing.toml"⟩, ⟨"identity.toml"⟩]).execute
      ⟨"proj/src"⟩ (some ⟨"out"⟩) [] (bench [])
    run.1 = .error (.codemodNotFound ⟨"missing.toml"⟩) ∧
      run.2.store.get? ["proj", "src", "a.php"] = some (.file singleQuoted.toUTF8) := by
  intro run
  have hresolved : valueOf? (outputDirectory (Location.toPath ["proj", "src"]) (some ⟨"out"⟩)
      (bench [])) = some (Location.toPath ["out"]) := by decide +kernel
  have hlinks : (bench []).store.NoLinks := FileStore.noLinks_of_entries (by decide +kernel)
  have hredirects : Redirects (bench []) ⟨"proj/src"⟩ ⟨"out"⟩ ["proj", "src"] ["out"] :=
    { wellFormed := by decide +kernel
      locate := by decide +kernel
      directory := by decide +kernel
      found := ⟨_, eq_ok_of_valueOf? hresolved, by decide +kernel⟩
      differs := by decide
      clear := fun location link _ => hlinks location link }
  let before := execute
    { echoRunner [⟨"strings.toml"⟩, ⟨"missing.toml"⟩, ⟨"identity.toml"⟩] with
      schedule := [⟨"strings.toml"⟩] } ⟨"proj/src"⟩ (some ⟨"out"⟩) [] (bench [])
  obtain ⟨hbefore, hmissing⟩ : before.1 = .ok ⟨"/out"⟩ ∧
      before.2.store.pathExists ⟨"missing.toml"⟩ = false := by decide +kernel
  generalize hrun : before = outcome at hbefore hmissing
  obtain ⟨_, after⟩ := outcome
  obtain rfl := hbefore
  obtain ⟨hstopped, -, hkept⟩ := execute_of_missing (echoRunner _) [⟨"strings.toml"⟩]
    [⟨"identity.toml"⟩] ⟨"missing.toml"⟩ rfl hrun hmissing
  refine ⟨congrArg Prod.fst hstopped, ?_⟩
  rw [show run.2 = after from congrArg Prod.snd hstopped]
  exact hkept ⟨"out"⟩ ["proj", "src"] ["out"] rfl hredirects (by decide) _ _ (by decide +kernel)
    (by decide) (by decide)

/-! ### Targets that are touched -/

/-- In place, a codemod that comes before a missing one has rewritten the target. -/
theorem execute_rewrites_before_missing :
    (bench []).store.WellFormed ∧
    (bench []).store.pathExists ⟨"missing.toml"⟩ = false ∧
    ((echoRunner [⟨"strings.toml"⟩]).execute ⟨"proj/src"⟩ none [] (bench [])).1 =
      .ok ⟨"proj/src"⟩ ∧
    ((echoRunner [⟨"strings.toml"⟩, ⟨"missing.toml"⟩]).execute ⟨"proj/src"⟩ none []
      (bench [])).1 = .error (.codemodNotFound ⟨"missing.toml"⟩) ∧
    (bench []).store.get? ["proj", "src", "a.php"] = some (.file singleQuoted.toUTF8) ∧
    ((echoRunner [⟨"strings.toml"⟩, ⟨"missing.toml"⟩]).execute ⟨"proj/src"⟩ none []
      (bench [])).2.store.get? ["proj", "src", "a.php"] = some (.file literalReplaced.toUTF8) := by
  decide +kernel

end Runner

end Retouch
