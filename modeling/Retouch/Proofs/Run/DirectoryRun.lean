import Retouch.Proofs.Run.Results
import Retouch.Proofs.Run.Walk

/-!
# What transforming a directory does

A directory run first finds out where its output goes (`outputRoot`), which may make directories,
and then walks. The output is a directory, unless the empty path was asked for
(`outputRoot_cases`); then everything is ignored, and the walk comes to no file.

`DirectoryRun` lists the ways in which such a run can go, and `directoryRun_onDirectory` is the one
place where the steps of `Transformer.onDirectory` are gone through.
-/

namespace Retouch

open FileStore Transformer

variable {σ : Type} {store ready : FileStore} {root base location : Location} {output : Option Path}
  {path target : Path}

/-! ### The output -/

/-- Where the output of a directory run goes. -/
def outputRoot (root : Location) : Option Path → FileM Path
  | none => pure root.toPath
  | some output => do
    let store ← get
    let target := if store.isFile output then freeSibling store output else output
    FileM.createDirectories target
    pure ((← get).normalize target)

/-- An output is made with all directories above it, beside the file that may be in its place. -/
theorem outputRoot_some (root : Location) (output : Path) (store : FileStore) :
    outputRoot root (some output) store =
      match FileM.createDirectories
        (if store.isFile output then freeSibling store output else output) store with
      | .ok _ ready => .ok (ready.normalize
          (if store.isFile output then freeSibling store output else output)) ready
      | .error error ready => .error error ready := by
  rw [outputRoot, bind_apply, get_apply]
  dsimp only
  generalize (if store.isFile output then freeSibling store output else output) = wanted
  exact FileM.createDirectories_normalize wanted wanted store

/-- To make directories in a world is to make them in its store. -/
theorem createDirectories_normalize_world (path : Path) (world : World) :
    (do
      World.onFiles (FileM.createDirectories path)
      pure ((← get).store.normalize path) : EStateM FileError World Path) world =
      match FileM.createDirectories path world.store with
      | .ok _ ready => .ok (ready.normalize path) { world with store := ready }
      | .error error ready => .error error { world with store := ready } := by
  rw [bind_apply, World.onFiles, focus]
  cases FileM.createDirectories path world.store <;> rfl

/-- What is reported when a file has the name of the output directory. -/
def collisionMessage (output target : Path) : String :=
  s!"output directory {output.raw} collides with an existing file, using {target.raw}"

/-- If there is a file in the place of the output, a sibling is taken, and a warning says so. -/
theorem outputDirectory_of_isFile (input : Path) (world : World)
    (hfile : world.store.isFile path = true) :
    outputDirectory input (some path) world =
      match FileM.createDirectories (freeSibling world.store path) world.store with
      | .ok _ ready => .ok (ready.normalize (freeSibling world.store path))
          ⟨ready, world.journal.append
            [.warning (collisionMessage path (freeSibling world.store path))]⟩
      | .error error ready => .error error
          ⟨ready, world.journal.append
            [.warning (collisionMessage path (freeSibling world.store path))]⟩ := by
  rw [outputDirectory, bind_apply, get_apply]
  simp only [hfile, if_true]
  generalize freeSibling world.store path = target
  rw [bind_apply, World.report, modify_apply]
  dsimp only
  rw [createDirectories_normalize_world]
  cases FileM.createDirectories target world.store <;> rfl

/-- If there is no file in the place of the output, it is taken as it is. -/
theorem outputDirectory_of_not_isFile (input : Path) (world : World)
    (hfile : world.store.isFile path = false) :
    outputDirectory input (some path) world =
      match FileM.createDirectories path world.store with
      | .ok _ ready => .ok (ready.normalize path) { world with store := ready }
      | .error error ready => .error error { world with store := ready } := by
  rw [outputDirectory, bind_apply, get_apply]
  simp only [hfile, Bool.false_eq_true, if_false]
  exact createDirectories_normalize_world path world

/-- The output of a directory run is found without regard to the journal, and nothing but warnings
is reported. -/
theorem outputDirectory_eq (h : store.WellFormed) (hroot : store.get? root = some .directory)
    (output : Option Path) (journal : Journal) :
    ∃ messages : List String, outputDirectory root.toPath output ⟨store, journal⟩ =
      match outputRoot root output store with
      | .ok target ready => .ok target ⟨ready, journal.append (messages.map .warning)⟩
      | .error error ready => .error error ⟨ready, journal.append (messages.map .warning)⟩ := by
  have hsilent : journal.append (([] : List String).map .warning) = journal := by
    simp [Journal.append]
  cases output with
  | none =>
    refine ⟨[], ?_⟩
    have hnormal := normalize_toPath h (h.proper_of_get? hroot)
      (clear_of_get? h hroot (by simp [Entry.kind]))
    show EStateM.Result.ok (store.normalize root.toPath) _ = _
    rw [hnormal, hsilent]
    rfl
  | some output =>
    rw [outputRoot_some]
    by_cases hfile : store.isFile output = true
    · refine ⟨[collisionMessage output (freeSibling store output)], ?_⟩
      rw [outputDirectory_of_isFile root.toPath ⟨store, journal⟩ hfile, if_pos hfile]
      dsimp only
      cases FileM.createDirectories (freeSibling store output) store <;> rfl
    · refine ⟨[], ?_⟩
      rw [hsilent,
        outputDirectory_of_not_isFile root.toPath ⟨store, journal⟩ (by simpa using hfile),
        if_neg hfile]
      dsimp only
      cases FileM.createDirectories output store <;> rfl

/-- Finding the output makes directories, if one is asked for, and changes nothing else. -/
theorem grows_outputRoot (h : store.WellFormed) (root : Location) (output : Option Path) :
    store.Grows (fun _ => False) (fun _ => output.isSome)
      (stateAfter (outputRoot root output store)) := by
  cases output with
  | none => exact .refl _ _ _
  | some output =>
    rw [outputRoot_some]
    have hgrows := FileM.grows_createDirectories h
      (if store.isFile output then freeSibling store output else output)
    cases hmade : FileM.createDirectories
        (if store.isFile output then freeSibling store output else output) store with
    | ok _ ready =>
      rw [hmade] at hgrows
      exact hgrows.mono (fun _ h => h) fun _ _ => rfl
    | error error ready =>
      rw [hmade] at hgrows
      exact hgrows.mono (fun _ h => h) fun _ _ => rfl

/-- The empty path is its own normal form. -/
theorem normalize_empty (store : FileStore) : store.normalize ⟨""⟩ = ⟨""⟩ :=
  rfl

/-- The output is a directory, unless the empty path was asked for. -/
theorem outputRoot_cases (h : store.WellFormed) (hroot : store.get? root = some .directory)
    (htarget : outputRoot root output store = .ok target ready) :
    target = ⟨""⟩ ∨
      ∃ base : Location, target = base.toPath ∧ ready.get? base = some .directory := by
  cases output with
  | none =>
    cases htarget
    exact .inr ⟨root, rfl, hroot⟩
  | some output =>
    rw [outputRoot_some] at htarget
    generalize (if store.isFile output then freeSibling store output else output) = wanted
      at htarget
    cases hmade : FileM.createDirectories wanted store with
    | error error ready =>
      rw [hmade] at htarget
      cases htarget
    | ok _ made =>
      rw [hmade] at htarget
      cases htarget
      rcases FileM.isDirectory_of_createDirectories h hmade with hempty | hdirectory
      · obtain rfl : wanted = ⟨""⟩ := congrArg Path.mk hempty
        exact .inl (normalize_empty _)
      · obtain ⟨base, hlocate, hbase⟩ := isDirectory_iff_locate.mp hdirectory
        exact .inr ⟨base, normalize_of_locate hlocate, hbase⟩

/-! ### The plan -/

namespace IgnoreSet

variable {ignored : IgnoreSet}

/-- Ignoring one more path. -/
theorem covers_insert (ignored : IgnoreSet) (store : FileStore) (path : Path)
    (location : Location) :
    (ignored.insert store path).covers location =
      (ignored.covers location || location.toPath.beginsWith (store.normalize path)) := by
  rw [insert]
  by_cases hknown : ignored.paths.any (store.normalize path).same = true
  · simp only [hknown, if_true]
    obtain ⟨other, hother, hsame⟩ := List.any_eq_true.mp hknown
    cases hbegins : location.toPath.beginsWith (store.normalize path) with
    | false => rw [Bool.or_false]
    | true =>
      rw [Bool.or_true, covers, List.any_eq_true]
      refine ⟨other, hother, ?_⟩
      rw [Path.same, decide_eq_true_eq] at hsame
      rw [Path.beginsWith, ← hsame]
      exact hbegins
  · simp only [hknown, Bool.false_eq_true, if_false, covers, List.any_append, List.any_cons,
      List.any_nil, Bool.or_false]

/-- Ignoring some more paths. -/
theorem covers_foldl_insert (ignored : IgnoreSet) (store : FileStore) (paths : List Path)
    (location : Location) :
    (paths.foldl (fun ignored path => ignored.insert store path) ignored).covers location =
      (ignored.covers location || (paths.map store.normalize).any location.toPath.beginsWith) := by
  induction paths generalizing ignored with
  | nil => simp
  | cons path rest ih =>
    rw [List.foldl_cons, ih, covers_insert, List.map_cons, List.any_cons, Bool.or_assoc]

/-- Ignoring one more directory. -/
theorem covers_insert_toPath (h : store.WellFormed) (hbase : store.get? base = some .directory)
    (location : Location) :
    (ignored.insert store base.toPath).covers location =
      (ignored.covers location || location.toPath.beginsWith base.toPath) := by
  rw [covers_insert, normalize_toPath h (h.proper_of_get? hbase)
    (clear_of_get? h hbase (by simp [Entry.kind]))]

/-- Ignoring the empty path is ignoring everything. -/
theorem contains_insert_empty (ignored : IgnoreSet) (store now : FileStore) (path : Path) :
    (ignored.insert store ⟨""⟩).contains now path = true := by
  rw [insert, normalize_empty, contains, List.any_eq_true]
  by_cases hknown : ignored.paths.any (Path.same ⟨""⟩) = true
  · simp only [hknown, if_true]
    obtain ⟨empty, hmem, hsame⟩ := List.any_eq_true.mp hknown
    refine ⟨empty, hmem, ?_⟩
    rw [Path.same, decide_eq_true_eq] at hsame
    rw [Path.beginsWith, ← hsame]
    rfl
  · simp only [hknown, Bool.false_eq_true, if_false]
    exact ⟨⟨""⟩, by simp, rfl⟩

end IgnoreSet

/-- The plan of a directory run. -/
def directoryPlan (extensions : List String) (ignored : IgnoreSet) (root : Location) (target : Path)
    (store : FileStore) : WalkPlan where
  ignored := if target.same root.toPath then ignored else ignored.insert store target
  extensions := extensions
  output := target

/-- A directory run ignores what it is told to, and its output if that is elsewhere. -/
theorem covers_directoryPlan (h : store.WellFormed) (hroot : store.get? root = some .directory)
    (hbase : store.get? base = some .directory) (extensions : List String) (ignored : IgnoreSet)
    (hlocation : location.Proper) :
    (directoryPlan extensions ignored root base.toPath store).ignored.covers location = true ↔
      ignored.covers location = true ∨ (base ≠ root ∧ base <+: location) := by
  have hsame := Location.same_toPath_iff (h.proper_of_get? hbase) (h.proper_of_get? hroot)
  by_cases heq : base = root
  · simp only [directoryPlan, if_pos (hsame.mpr heq)]
    simp [heq]
  · simp only [directoryPlan, if_neg (heq ∘ hsame.mp), IgnoreSet.covers_insert_toPath h hbase,
      Bool.or_eq_true, Location.beginsWith_toPath_iff hlocation (h.proper_of_get? hbase), ne_eq,
      heq, not_false_eq_true, true_and]

/-- A directory run has what a walk needs, if its output is there and holds no links. -/
theorem walkReady_directoryPlan (h : store.WellFormed) (hroot : store.get? root = some .directory)
    (hbase : store.get? base = some .directory) (extensions : List String) (ignored : IgnoreSet)
    (hlinks : base ≠ root → ∀ location target, base <+: location →
      store.get? location ≠ some (.link target)) :
    WalkReady (directoryPlan extensions ignored root base.toPath store) store root base where
  wellFormed := h
  rootThere := hroot
  baseThere := hbase
  output := rfl
  ignored hne := (covers_directoryPlan h hroot hbase _ _ (h.proper_of_get? hbase)).mpr
    (.inr ⟨hne, List.prefix_rfl⟩)
  noLinks := hlinks

/-! ### The run -/

/-- The files that the walk of a directory run comes to, when its output goes to `base`. -/
def walkedFiles (extensions : List String) (ignored : IgnoreSet) (root base : Location)
    (ready : FileStore) : List Location :=
  itinerary ready (directoryPlan extensions ignored root base.toPath ready)
    (ready.entries.length + 1) root

/-- The walk of a directory run. -/
def walkFrom (transformer : Transformer σ) (ignored : IgnoreSet) (root : Location) (target : Path)
    (ready : Site σ) : EStateM.Result RunError (Site σ) Nat :=
  walkDirectory transformer
    (directoryPlan transformer.extensions ignored root target ready.store)
    (ready.store.entries.length + 1) root [] ready

/-- The walk attempts the files of its itinerary, in order. -/
theorem attempted_walkFrom {transformer : Transformer σ} {ignored : IgnoreSet} {ready : Site σ}
    (h : WalkReady (directoryPlan transformer.extensions ignored root base.toPath ready.store)
      ready.store root base) :
    Attempted transformer (mirror root base)
      (walkedFiles transformer.extensions ignored root base ready.store)
      ready (failureOf (walkFrom transformer ignored root base.toPath ready))
      (stateAfter (walkFrom transformer ignored root base.toPath ready)) := by
  have hwalk := h.attempted_walkDirectory transformer (ready.store.entries.length + 1) []
    (by rw [List.append_nil]; exact h.rootThere) (.refl _ _ ready.store)
  rwa [List.append_nil] at hwalk

/-- When the empty path was asked for, the walk comes to no file. -/
theorem walkFrom_empty (transformer : Transformer σ) (ignored : IgnoreSet) (root : Location)
    (ready : Site σ) :
    ∃ after, ready.Quiet after ∧ walkFrom transformer ignored root ⟨""⟩ ready = .ok 0 after := by
  obtain ⟨after, hquiet, hleaves⟩ := leavesOut_apply
    (directoryPlan transformer.extensions ignored root ⟨""⟩ ready.store) root.toPath ready
  refine ⟨after, hquiet, ?_⟩
  have hdiffers : ¬ Path.same ⟨""⟩ root.toPath = true := by
    rw [Path.same, decide_eq_true_eq, Path.components.eq_def root.toPath,
      Location.isAbsolute_toPath]
    exact List.cons_ne_nil _ _ |>.symm
  have hall : (directoryPlan transformer.extensions ignored root ⟨""⟩ ready.store).ignored.contains
      ready.store root.toPath = true := by
    rw [directoryPlan, if_neg hdiffers]
    exact IgnoreSet.contains_insert_empty ignored ready.store ready.store root.toPath
  rw [hall] at hleaves
  rw [walkFrom, walkDirectory, bind_apply, hleaves]
  rfl

/-- The ways in which transforming a directory can go. -/
inductive DirectoryRun (transformer : Transformer σ) (ignored : IgnoreSet) (root : Location)
    (output : Option Path) (site : Site σ) : EStateM.Result RunError (Site σ) Path → Prop
  | noOutput {error : FileError} {after : Site σ}
      (htarget : outputRoot root output site.store = .error error after.store) :
      DirectoryRun transformer ignored root output site
        (.error (.fileFailed (output.getD root.toPath) error) after)
  | stopped {target : Path} {ready after : Site σ} {failure : RunError}
      (htarget : outputRoot root output site.store = .ok target ready.store)
      (hwalk : walkFrom transformer ignored root target ready = .error failure after)
      (hlive : site.live.Quiet ready.live) :
      DirectoryRun transformer ignored root output site (.error failure after)
  | finished {target : Path} {ready walked after : Site σ} {count : Nat}
      (htarget : outputRoot root output site.store = .ok target ready.store)
      (hwalk : walkFrom transformer ignored root target ready = .ok count walked)
      (hquiet : walked.Quiet after) (hlive : site.live.Quiet ready.live) :
      DirectoryRun transformer ignored root output site (.ok target after)

/-- Transforming a directory goes in one of the ways of a directory run. -/
theorem directoryRun_onDirectory (transformer : Transformer σ) (ignored : IgnoreSet) {input : Path}
    (output : Option Path) {site : Site σ} (h : site.store.WellFormed)
    (hinput : site.store.locate input = .ok root) (hroot : site.store.get? root = some .directory) :
    DirectoryRun transformer ignored root output site
      (transformer.onDirectory input output ignored site) := by
  obtain ⟨messages, htarget⟩ := outputDirectory_eq h hroot output site.journal
  rw [onDirectory, bind_apply, RunM.files_apply]
  simp only [hinput]
  rw [if_neg (by simp [isDirectoryAt, hroot]), normalize_of_locate hinput, bind_apply, RunM.onWorld,
    focus]
  simp only [Site.world, htarget]
  cases hout : outputRoot root output site.store with
  | error error ready => exact .noOutput hout
  | ok target ready =>
    simp only
    rw [bind_apply, RunM.files_apply]
    simp only
    rw [bind_apply]
    generalize hready : Site.withWorld _ site = here
    have hstore : here.store = ready := by rw [← hready]; rfl
    have hlive : site.live.Quiet here.live := by
      rw [← hready]
      refine ⟨messages.map .warning, ?_, rfl⟩
      simp [Event.traced?]
    rw [← hstore] at hout
    generalize hwalk : walkDirectory transformer _ _ root [] here = walked
    cases walked with
    | error error after => exact .stopped hout hwalk hlive
    | ok count after => exact .finished hout hwalk ⟨[_], rfl⟩ hlive

/-! ### What the run leaves behind -/

section consequences

variable {transformer : Transformer σ} {ignored : IgnoreSet} {site : Site σ}

/-- The files that a directory run takes up. -/
theorem lists_directoryPlan_iff (h : store.WellFormed) (hroot : store.get? root = some .directory)
    (hbase : store.get? base = some .directory) {extensions : List String} {file : Location} :
    WalkPlan.Lists (directoryPlan extensions ignored root base.toPath store) store root file ↔
      ∃ rest, rest ≠ [] ∧ file = root ++ rest ∧
        (∃ content, store.get? file = some (.file content)) ∧
        file.toPath.hasExtension extensions = true ∧ ignored.covers file = false ∧
        ¬ (base ≠ root ∧ base <+: file) := by
  have hfree : ∀ content, store.get? file = some (.file content) →
      ((directoryPlan extensions ignored root base.toPath store).ignored.covers file = false ↔
        ignored.covers file = false ∧ ¬ (base ≠ root ∧ base <+: file)) := by
    intro content hcontent
    have hcovers := covers_directoryPlan h hroot hbase extensions ignored
      (h.proper_of_get? hcontent)
    rw [← Bool.not_eq_true, hcovers, not_or, Bool.not_eq_true]
  constructor
  · rintro ⟨rest, hrest, heq, ⟨content, hcontent⟩, hextension, hcovers⟩
    exact ⟨rest, hrest, heq, ⟨content, hcontent⟩, hextension, (hfree content hcontent).mp hcovers⟩
  · rintro ⟨rest, hrest, heq, ⟨content, hcontent⟩, hextension, hcovers⟩
    exact ⟨rest, hrest, heq, ⟨content, hcontent⟩, hextension, (hfree content hcontent).mpr hcovers⟩

/-- The output of a directory run goes to a directory, which is there when the walk starts. -/
structure OutputAt (root : Location) (output : Option Path) (store : FileStore) (base : Location)
    (ready : FileStore) : Prop where
  found : outputRoot root output store = .ok base.toPath ready
  directory : ready.get? base = some .directory

/-- Finding the output writes no file, and makes directories only if an output is asked for. -/
theorem OutputAt.grows (h : store.WellFormed) (hout : OutputAt root output store base ready) :
    store.Grows (fun _ => False) (fun _ => output.isSome) ready := by
  have hgrows := grows_outputRoot h root output
  rwa [hout.found, stateAfter] at hgrows

/-- The output is found in one place only. -/
theorem OutputAt.eq (h : store.WellFormed) {other : Location} {ready' : FileStore}
    (hout : OutputAt root output store base ready)
    (hother : OutputAt root output store other ready') : base = other ∧ ready = ready' := by
  obtain ⟨hpath, rfl⟩ := EStateM.Result.ok.inj (hout.found.symm.trans hother.found)
  have hready := (hout.grows h).wellFormed h
  exact ⟨Location.toPath_injective (hready.proper_of_get? hout.directory)
    (hready.proper_of_get? hother.directory) hpath, rfl⟩

/-- Without an output, the results go to the directory itself. -/
theorem outputAt_none (hroot : store.get? root = some .directory) :
    OutputAt root none store root store :=
  ⟨rfl, hroot⟩

/-- There are no links in an output that is not the directory itself. -/
def OutputClear (root : Location) (output : Option Path) (store : FileStore) : Prop :=
  ∀ base ready, OutputAt root output store base ready → base ≠ root →
    ∀ location target, base <+: location → store.get? location ≠ some (.link target)

/-- Without any links, there are none in the output. -/
theorem FileStore.NoLinks.outputClear (h : store.NoLinks) (root : Location) (output : Option Path) :
    OutputClear root output store :=
  fun _ _ _ _ location link _ => h location link

/-- Where the results of a directory run go. -/
def LandsIn (extensions : List String) (ignored : IgnoreSet) (root : Location)
    (output : Option Path) (store : FileStore) (location : Location) : Prop :=
  ∃ base ready, OutputAt root output store base ready ∧
    WalkPlan.Lands (directoryPlan extensions ignored root base.toPath ready) ready root base
      location

/-- Once the output is found, the walk can start. -/
theorem OutputAt.walkReady (h : store.WellFormed) (hroot : store.get? root = some .directory)
    (hlinks : OutputClear root output store) (extensions : List String) (ignored : IgnoreSet)
    (hout : OutputAt root output store base ready) :
    WalkReady (directoryPlan extensions ignored root base.toPath ready) ready root base := by
  have hgrows := hout.grows h
  refine walkReady_directoryPlan (hgrows.wellFormed h) (hgrows.directory hroot) hout.directory
    _ _ ?_
  intro hne location target hbelow hlink
  exact hlinks base ready hout hne location target hbelow (hgrows.link_iff.mp hlink)

/-- However the walk ends, it has written only where results go. -/
theorem grows_walkFrom (transformer : Transformer σ) (ignored : IgnoreSet)
    (h : site.store.WellFormed) (hroot : site.store.get? root = some .directory)
    (hlinks : OutputClear root output site.store) {ready : Site σ}
    (htarget : outputRoot root output site.store = .ok target ready.store) :
    ready.store.Grows (LandsIn transformer.extensions ignored root output site.store)
      (fun _ => output.isSome)
      (stateAfter (walkFrom transformer ignored root target ready)).store := by
  rcases outputRoot_cases h hroot htarget with rfl | ⟨base, rfl, hbase⟩
  · obtain ⟨after, hquiet, hwalk⟩ := walkFrom_empty transformer ignored root ready
    rw [hwalk, stateAfter, hquiet.store_eq]
    exact .refl _ _ _
  · have hout : OutputAt root output site.store base ready.store := ⟨htarget, hbase⟩
    have hready := hout.walkReady h hroot hlinks transformer.extensions ignored
    have hunderway := (attempted_walkFrom hready).underway hready
      (fun _ hmem => lists_of_mem_itinerary hready.wellFormed hmem) (.refl _ _ _)
    refine hunderway.mono (fun location hlands => ⟨base, ready.store, hout, hlands⟩) ?_
    rintro location ⟨hne, -⟩
    cases output with
    | none => exact absurd (hout.eq h (outputAt_none hroot)).1 hne
    | some output => rfl

/-- However a directory run ends, it has written only where its results go. Without an output it has
made no directory. -/
theorem DirectoryRun.grows (h : site.store.WellFormed)
    (hroot : site.store.get? root = some .directory)
    (hlinks : OutputClear root output site.store)
    {outcome : EStateM.Result RunError (Site σ) Path}
    (hrun : DirectoryRun transformer ignored root output site outcome) :
    site.store.Grows (LandsIn transformer.extensions ignored root output site.store)
      (fun _ => output.isSome) (stateAfter outcome).store := by
  have hout : site.store.Grows (LandsIn transformer.extensions ignored root output site.store)
      (fun _ => output.isSome) (stateAfter (outputRoot root output site.store)) :=
    (grows_outputRoot h root output).mono (fun _ h => h.elim) fun _ h => h
  cases hrun with
  | noOutput htarget =>
    rw [htarget] at hout
    exact hout
  | stopped htarget hwalk =>
    have hwalked := grows_walkFrom transformer ignored h hroot hlinks htarget
    rw [htarget] at hout
    rw [hwalk] at hwalked
    exact hout.trans hwalked
  | finished htarget hwalk hquiet =>
    have hwalked := grows_walkFrom transformer ignored h hroot hlinks htarget
    rw [htarget] at hout
    rw [hwalk, stateAfter, ← hquiet.store_eq] at hwalked
    exact hout.trans hwalked

/-- A directory run that does not fail gives the path of its output, and has only written there
since the output was found. -/
theorem DirectoryRun.grows_ready (h : site.store.WellFormed)
    (hroot : site.store.get? root = some .directory)
    (hlinks : OutputClear root output site.store) {after : Site σ}
    (hrun : DirectoryRun transformer ignored root output site (.ok target after))
    (hout : OutputAt root output site.store base ready) :
    target = base.toPath ∧
      ready.Grows (LandsIn transformer.extensions ignored root output site.store)
        (fun _ => output.isSome) after.store := by
  cases hrun with
  | finished htarget hwalk hquiet =>
    obtain ⟨rfl, rfl⟩ := EStateM.Result.ok.inj (htarget.symm.trans hout.found)
    have hwalked := grows_walkFrom transformer ignored h hroot hlinks htarget
    rw [hwalk, stateAfter, ← hquiet.store_eq] at hwalked
    exact ⟨rfl, hwalked⟩

/-- When the output is found, a directory run is a list of attempts on the files of its walk. -/
theorem DirectoryRun.attempted (h : site.store.WellFormed)
    (hroot : site.store.get? root = some .directory)
    (hlinks : OutputClear root output site.store)
    {outcome : EStateM.Result RunError (Site σ) Path}
    (hrun : DirectoryRun transformer ignored root output site outcome)
    (hout : OutputAt root output site.store base ready) :
    ∃ begun walked : Site σ, begun.store = ready ∧ site.live.Quiet begun.live ∧
      Attempted transformer (mirror root base)
        (walkedFiles transformer.extensions ignored root base ready) begun (failureOf outcome)
        walked ∧
      walked.Quiet (stateAfter outcome) := by
  have hready := hout.walkReady h hroot hlinks transformer.extensions ignored
  cases hrun with
  | noOutput htarget =>
    rw [hout.found] at htarget
    cases htarget
  | @stopped target begun after failure htarget hwalk hlive =>
    obtain ⟨rfl, rfl⟩ := EStateM.Result.ok.inj (htarget.symm.trans hout.found)
    have hattempted := attempted_walkFrom hready
    rw [hwalk] at hattempted
    exact ⟨begun, after, rfl, hlive, hattempted, .refl _⟩
  | @finished target begun walked after count htarget hwalk hquiet hlive =>
    obtain ⟨rfl, rfl⟩ := EStateM.Result.ok.inj (htarget.symm.trans hout.found)
    have hattempted := attempted_walkFrom hready
    rw [hwalk] at hattempted
    exact ⟨begun, walked, rfl, hlive, hattempted, hquiet⟩

/-- A directory run that does not fail transforms the files that its walk comes to. -/
theorem DirectoryRun.transformed (h : site.store.WellFormed)
    (hroot : site.store.get? root = some .directory)
    (hlinks : OutputClear root output site.store) {after : Site σ}
    (hrun : DirectoryRun transformer ignored root output site (.ok target after))
    (hout : OutputAt root output site.store base ready) :
    Transformed transformer (fun file => landing ready (mirror root base file)) site.store
      after.store (walkedFiles transformer.extensions ignored root base ready) site.live
      after.live := by
  have hready := hout.walkReady h hroot hlinks transformer.extensions ignored
  obtain ⟨begun, walked, rfl, hlive, hattempted, hquiet⟩ := hrun.attempted h hroot hlinks hout
  have hwalked := hattempted.transformed hready
    (fun _ hmem => lists_of_mem_itinerary hready.wellFormed hmem)
    (nodup_itinerary hready.wellFormed _ _ _) (.refl _ _ _) (fun _ _ => rfl)
  refine ((hwalked.of_quiet hlive).then_quiet hquiet.live).transport (fun _ _ => rfl) ?_ ?_
  · intro file _ content hcontent
    exact ((hout.grows h).file_iff id).mp hcontent
  · intro file _ content hcontent
    rw [← hquiet.store_eq] at hcontent
    exact hcontent

end consequences

end Retouch
