import Retouch.Proofs.Run.DirectoryRun
import Retouch.Run.Runner

/-!
# Stages of a schedule

A schedule is run stage by stage (`executeAll_cons`, `executeAll_append`): a codemod is loaded, it
is run on the target, and the next stage goes on where this one wrote. On a directory a stage is a
directory run, or nothing happens (`stageRun_stage`).

In place, any number of stages changes no file outside of the directory, and makes nothing
(`grows_executeAll`).
-/

namespace Retouch

open FileStore

variable {runner : Runner} {ignored : IgnoreSet} {manifest target : Path} {output : Option Path}
  {world after : World} {root location : Location}

namespace Runner

/-! ### One stage -/

/-- Loads a codemod and runs it on a target. Gives the codemod and the target of the next stage. -/
def stage (runner : Runner) (ignored : IgnoreSet) (manifest target : Path) (output : Option Path)
    (world : World) : Except RunError (Loaded × Path) × World :=
  match runner.loadCodemod manifest world with
  | (.error error, world) => (.error error, world)
  | (.ok loaded, world) =>
    let journal := world.journal.add (.diagnostic
      ⟨.info, "running codemod", [("codemod", manifest.raw), ("target", target.raw)]⟩)
    match loaded.onPath target output ignored { world with journal } with
    | (.error error, _, world) => (.error error, world)
    | (.ok produced, _, world) => (.ok (loaded, if output.isSome then produced else target), world)

/-- A stage that does not fail has loaded a codemod and run it. -/
theorem stage_eq_ok {loaded : Loaded} {next : Path}
    (h : runner.stage ignored manifest target output world = (.ok (loaded, next), after)) :
    ∃ ready start produced left, runner.loadCodemod manifest world = (.ok loaded, ready) ∧
      loaded.onPath target output ignored start = (.ok produced, left, after) ∧
      next = if output.isSome then produced else target := by
  unfold stage at h
  cases hload : runner.loadCodemod manifest world with
  | mk found ready =>
    rw [hload] at h
    cases found with
    | error error => cases h
    | ok found =>
      simp only at h
      generalize hran : Loaded.onPath found target output ignored _ = ran at h
      obtain ⟨produced, left, now⟩ := ran
      cases produced with
      | error error => cases h
      | ok produced =>
        cases h
        exact ⟨ready, _, produced, left, rfl, hran, rfl⟩

/-- In place, a stage hands its own target on to the next one. -/
theorem eq_target_of_stage {loaded : Loaded} {next : Path}
    (h : runner.stage ignored manifest target none world = (.ok (loaded, next), after)) :
    next = target := by
  obtain ⟨_, _, _, _, -, -, hnext⟩ := stage_eq_ok h
  exact hnext

/-- The first manifest is run, and the others go on in place with what it gave. -/
theorem executeAll_cons (runner : Runner) (ignored : IgnoreSet) (manifest target : Path)
    (rest : List Path) (output : Option Path) (world : World) :
    runner.executeAll ignored (manifest :: rest) target output world =
      match runner.stage ignored manifest target output world with
      | (.error error, after) => (.error error, after)
      | (.ok (_, next), after) => runner.executeAll ignored rest next none after := by
  conv_lhs => unfold executeAll
  unfold stage
  cases runner.loadCodemod manifest world with
  | mk loaded world =>
    cases loaded with
    | error error => rfl
    | ok loaded =>
      simp only
      generalize Loaded.onPath loaded target output ignored _ = ran
      obtain ⟨produced, left, after⟩ := ran
      cases produced <;> rfl

/-- A schedule is run stage by stage. -/
theorem executeAll_append (runner : Runner) (ignored : IgnoreSet) (before rest : List Path)
    (target : Path) (output : Option Path) (world : World) :
    runner.executeAll ignored (before ++ rest) target output world =
      match runner.executeAll ignored before target output world with
      | (.error error, after) => (.error error, after)
      | (.ok next, after) =>
        runner.executeAll ignored rest next (if before = [] then output else none) after := by
  induction before generalizing target output world with
  | nil => rfl
  | cons manifest others ih =>
    rw [List.cons_append, executeAll_cons, executeAll_cons]
    cases runner.stage ignored manifest target output world with
    | mk produced after =>
      cases produced with
      | error error => rfl
      | ok produced =>
        simp only [ih, List.cons_ne_nil, if_false, ite_self]

/-- In place, the target stays the same. -/
theorem eq_target_of_executeAll {manifests : List Path} {result : Path}
    (h : runner.executeAll ignored manifests target none world = (.ok result, after)) :
    result = target := by
  induction manifests generalizing world with
  | nil =>
    cases h
    rfl
  | cons manifest rest ih =>
    rw [executeAll_cons] at h
    cases hstage : runner.stage ignored manifest target none world with
    | mk produced between =>
      rw [hstage] at h
      cases produced with
      | error error => cases h
      | ok produced =>
        obtain ⟨loaded, next⟩ := produced
        obtain rfl := eq_target_of_stage hstage
        exact ih h

/-- Loading a codemod changes no file. -/
theorem store_loadCodemod (runner : Runner) (manifest : Path) (world : World) :
    (runner.loadCodemod manifest world).2.store = world.store := by
  unfold loadCodemod
  split
  · rfl
  · split <;> rfl

/-- The codemods of a schedule take up the files of the grammar. -/
theorem extensions_of_loadCodemod {loaded : Loaded}
    (h : runner.loadCodemod manifest world = (.ok loaded, after)) :
    loaded.transformer.extensions = runner.grammar.extensions := by
  unfold loadCodemod at h
  split at h
  · cases h
  · split at h
    · cases h
    · rename_i hmade
      cases h
      rw [Loaded.ofInstance] at hmade
      split at hmade
      · cases hmade
        rfl
      · cases hmade

end Runner

/-! ### Stages on directories -/

/-- The path leads to the directory, or it is the path of the directory. The latter may be too long
to lead there. -/
def Targets (store : FileStore) (target : Path) (root : Location) : Prop :=
  store.locate target = .ok root ∨ target = root.toPath

/-- The ways in which a stage on a directory can go. -/
inductive StageRun (runner : Runner) (ignored : IgnoreSet) (root : Location) (target : Path)
    (output : Option Path) (world : World) : Except RunError (Loaded × Path) × World → Prop
  | notBegun {error : RunError} {after : World} (hafter : after.store = world.store) :
      StageRun runner ignored root target output world (.error error, after)
  | failed {loaded : Loaded} {site after : Site loaded.State} {error : RunError}
      (hextensions : loaded.transformer.extensions = runner.grammar.extensions)
      (hsite : site.store = world.store)
      (hrun : DirectoryRun loaded.transformer ignored root output site (.error error after)) :
      StageRun runner ignored root target output world (.error error, after.world)
  | passed {loaded : Loaded} {site after : Site loaded.State} {produced : Path}
      (hextensions : loaded.transformer.extensions = runner.grammar.extensions)
      (hsite : site.store = world.store)
      (hrun : DirectoryRun loaded.transformer ignored root output site (.ok produced after)) :
      StageRun runner ignored root target output world
        (.ok (loaded, if output.isSome then produced else target), after.world)

/-- The path of a run leads to its directory, if it leads anywhere. -/
theorem Targets.eq_of_locate {store : FileStore} {place : Location} (h : store.WellFormed)
    (hroot : store.get? root = some .directory) (htarget : Targets store target root)
    (hlocate : store.locate target = .ok place) : place = root := by
  rcases htarget with hlocated | rfl
  · exact Except.ok.inj (hlocate.symm.trans hlocated)
  · exact (eq_of_locate_toPath (h.proper_of_get? hroot)
      (clear_of_get? h hroot (by simp [Entry.kind])) hlocate).1

/-- A path goes on leading to its directory while the store grows. -/
theorem Targets.of_grows {store now : FileStore} {written made : Location → Prop}
    (hgrows : store.Grows written made now) (htarget : Targets store target root) :
    Targets now target root :=
  htarget.imp_left (locate_of_grows hgrows)

/-- On the path of a directory, a run is a directory run, or it fails before it has done
anything. -/
theorem onPath_cases {σ : Type} (transformer : Transformer σ) (ignored : IgnoreSet)
    (output : Option Path) {site : Site σ} (h : site.store.WellFormed)
    (hroot : site.store.get? root = some .directory)
    (htarget : Targets site.store target root) :
    (∃ error, transformer.onPath target output ignored site = .error error site) ∨
      DirectoryRun transformer ignored root output site
        (transformer.onPath target output ignored site) := by
  rw [Transformer.onPath, bind_apply, RunM.files_apply]
  by_cases hdirectory : site.store.isDirectory target = true
  · obtain ⟨place, hlocate, -⟩ := isDirectory_iff_locate.mp hdirectory
    rw [htarget.eq_of_locate h hroot hlocate] at hlocate
    simp only [hdirectory, if_true]
    exact .inr (directoryRun_onDirectory transformer ignored output h hlocate hroot)
  · have hfile : ¬ site.store.isFile target = true := by
      intro hfile
      obtain ⟨place, content, hlocate, hcontent⟩ := isFile_iff_locate.mp hfile
      rw [htarget.eq_of_locate h hroot hlocate, hroot] at hcontent
      cases hcontent
    simp only [hdirectory, hfile, if_false, Bool.false_eq_true]
    exact .inl ⟨_, rfl⟩

/-- A stage on a directory goes in one of the ways of a stage. -/
theorem stageRun_stage (runner : Runner) (ignored : IgnoreSet) (manifest : Path)
    (output : Option Path) (h : world.store.WellFormed)
    (hroot : world.store.get? root = some .directory) (htarget : Targets world.store target root) :
    StageRun runner ignored root target output world
      (runner.stage ignored manifest target output world) := by
  have hstore := runner.store_loadCodemod manifest world
  unfold Runner.stage
  cases hload : runner.loadCodemod manifest world with
  | mk loaded ready =>
    rw [hload] at hstore
    cases loaded with
    | error error => exact .notBegun hstore
    | ok loaded =>
      simp only [Loaded.onPath, Loaded.runWith]
      generalize hsite : (⟨loaded.own, loaded.context, _, ready.store⟩ : Site loaded.State) = site
      have hsame : site.store = world.store := by rw [← hsite, ← hstore]
      rw [← hsame] at h hroot htarget
      have hextensions := Runner.extensions_of_loadCodemod hload
      rcases onPath_cases loaded.transformer ignored output h hroot htarget with
        ⟨error, hresult⟩ | hrun
      · rw [hresult]
        exact .notBegun hsame
      · cases hresult : loaded.transformer.onPath target output ignored site with
        | error error after =>
          rw [hresult] at hrun
          exact .failed hextensions hsame hrun
        | ok produced after =>
          rw [hresult] at hrun
          exact .passed hextensions hsame hrun

section inPlace

/-- However a stage ends, it has written only where its results go. Without an output it has made no
directory. -/
theorem StageRun.grows {outcome : Except RunError (Loaded × Path) × World}
    (h : world.store.WellFormed) (hroot : world.store.get? root = some .directory)
    (hlinks : OutputClear root output world.store)
    (hstage : StageRun runner ignored root target output world outcome) :
    world.store.Grows (LandsIn runner.grammar.extensions ignored root output world.store)
      (fun _ => output.isSome) outcome.2.store := by
  cases hstage with
  | notBegun hafter =>
    rw [hafter]
    exact .refl _ _ _
  | failed hextensions hsite hrun =>
    rw [← hsite] at h hroot hlinks ⊢
    rw [← hextensions]
    exact hrun.grows h hroot hlinks
  | passed hextensions hsite hrun =>
    rw [← hsite] at h hroot hlinks ⊢
    rw [← hextensions]
    exact hrun.grows h hroot hlinks

/-- A stage that does not fail hands its output on to the next one, and has only written there since
the output was found. -/
theorem StageRun.grows_ready {path next : Path} {loaded : Loaded} {base : Location}
    {ready : FileStore} (h : world.store.WellFormed)
    (hroot : world.store.get? root = some .directory)
    (hlinks : OutputClear root (some path) world.store)
    (hout : OutputAt root (some path) world.store base ready)
    (hstage : StageRun runner ignored root target (some path) world (.ok (loaded, next), after)) :
    next = base.toPath ∧
      ready.Grows (LandsIn runner.grammar.extensions ignored root (some path) world.store)
        (fun _ => True) after.store := by
  cases hstage with
  | passed hextensions hsite hrun =>
    rw [← hsite] at h hroot hlinks hout
    obtain ⟨rfl, hready⟩ := hrun.grows_ready h hroot hlinks hout
    rw [hextensions, hsite] at hready
    exact ⟨rfl, hready.mono (fun _ h => h) fun _ _ => trivial⟩

/-- Without an output there is nowhere for a link to be in the way. -/
theorem outputClear_none {store : FileStore} (h : store.WellFormed)
    (hroot : store.get? root = some .directory) : OutputClear root none store :=
  fun _ _ hout hne => absurd (hout.eq h (outputAt_none hroot)).1 hne

/-- Results that go to a directory go strictly below it. -/
theorem LandsIn.below {extensions : List String} {store : FileStore} {base : Location}
    {ready : FileStore} (h : store.WellFormed) (hout : OutputAt root output store base ready)
    (hlands : LandsIn extensions ignored root output store location) :
    base <+: location ∧ location ≠ base := by
  obtain ⟨other, now, hother, file, hfile, rfl⟩ := hlands
  obtain ⟨rfl, rfl⟩ := hother.eq h hout
  exact WalkReady.base_prefix_landing other hfile

/-- In place, a stage writes only below its directory, and makes nothing. -/
theorem grows_stage_inPlace (runner : Runner) (ignored : IgnoreSet) (manifest : Path)
    (h : world.store.WellFormed) (hroot : world.store.get? root = some .directory)
    (htarget : Targets world.store target root) :
    world.store.Grows (fun location => root <+: location ∧ location ≠ root) (fun _ => False)
      (runner.stage ignored manifest target none world).2.store := by
  have hstage := stageRun_stage runner ignored manifest none h hroot htarget
  refine (hstage.grows h hroot (outputClear_none h hroot)).mono ?_ fun _ hmade => by cases hmade
  exact fun location hlands => hlands.below h (outputAt_none hroot)

/-- In place, the stages of a schedule write only files below the directory, and make nothing. -/
theorem grows_executeAll (runner : Runner) (ignored : IgnoreSet) (manifests : List Path)
    (h : world.store.WellFormed) (hroot : world.store.get? root = some .directory)
    (htarget : Targets world.store target root) :
    world.store.Grows (fun location => root <+: location ∧ location ≠ root) (fun _ => False)
      (runner.executeAll ignored manifests target none world).2.store := by
  induction manifests generalizing world with
  | nil => exact .refl _ _ _
  | cons manifest rest ih =>
    have hgrows := grows_stage_inPlace runner ignored manifest h hroot htarget
    rw [Runner.executeAll_cons]
    cases hresult : runner.stage ignored manifest target none world with
    | mk produced after =>
      rw [hresult] at hgrows
      cases produced with
      | error error => exact hgrows
      | ok produced =>
        obtain ⟨loaded, next⟩ := produced
        obtain rfl := Runner.eq_target_of_stage hresult
        exact hgrows.trans (ih (hgrows.wellFormed h) (hgrows.directory hroot)
          (htarget.of_grows hgrows))

end inPlace

end Retouch
