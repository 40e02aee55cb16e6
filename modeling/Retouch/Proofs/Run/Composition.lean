import Retouch.Proofs.Files.Fresh
import Retouch.Proofs.Run.Chain
import Retouch.Proofs.Run.Sources

/-!
# Whole runs are compositions

A run whose output is a new directory writes there with its first codemod, and goes on in place with
the others (`composes_redirected`). The directory was empty, so it holds the results of the first
codemod and nothing else, and the others take up those of them that are not ignored. What is ignored
in the output has only been through the first codemod.

The empty path is an output, too: then everything is left out, and no file changes
(`outputAt_or_empty`). With and without an output, `execute_composes` says what a run comes to.
-/

namespace Retouch

open FileStore

/-! ### With an output -/

section redirected

variable {runner : Runner} {ignored : IgnoreSet} {manifest target path result : Path}
  {rest : List Path} {world after : World} {root base : Location} {store ready : FileStore}

/-- Where there is nothing, there is no file. -/
theorem isFile_of_not_pathExists (h : store.pathExists path = false) :
    store.isFile path = false := by
  rw [pathExists, Option.isSome_eq_false_iff, Option.isNone_iff_eq_none] at h
  rw [isFile, h]

/-- An output that was not there is made, unless it is the empty path. -/
theorem outputRoot_of_new (h : store.WellFormed) (hnew : store.pathExists path = false)
    (hfound : outputRoot root (some path) store = .ok target ready) :
    FileM.createDirectories path store = .ok () ready ∧
      ((path = ⟨""⟩ ∧ target = ⟨""⟩) ∨
        ∃ base, ready.locate path = .ok base ∧ target = base.toPath ∧
          ready.get? base = some .directory) := by
  rw [outputRoot_some, isFile_of_not_pathExists hnew] at hfound
  simp only [Bool.false_eq_true, if_false] at hfound
  cases hmade : FileM.createDirectories path store with
  | error error now =>
    rw [hmade] at hfound
    cases hfound
  | ok _ now =>
    rw [hmade] at hfound
    obtain ⟨rfl, rfl⟩ := EStateM.Result.ok.inj hfound
    refine ⟨rfl, ?_⟩
    rcases FileM.isDirectory_of_createDirectories h hmade with hraw | hdirectory
    · obtain rfl : path = ⟨""⟩ := congrArg Path.mk hraw
      exact .inl ⟨rfl, normalize_empty now⟩
    · obtain ⟨base, hbase, hentry⟩ := isDirectory_iff_locate.mp hdirectory
      exact .inr ⟨base, hbase, normalize_of_locate hbase, hentry⟩

/-- An output that was not there is a new directory: there was nothing, and there is nothing in it.
-/
theorem OutputAt.fresh (h : store.WellFormed) (hlinks : store.NoLinks) (hup : .up ∉ path.components)
    (hnew : store.pathExists path = false) (hout : OutputAt root (some path) store base ready) :
    ready.locate path = .ok base ∧
      (∀ location, base <+: location → store.get? location = none) ∧
      ∀ location, base <+: location → location ≠ base → ready.get? location = none := by
  have hready := (hout.grows h).wellFormed h
  obtain ⟨hmade, ⟨-, hempty⟩ | ⟨other, hother, hpath, hentry⟩⟩ :=
    outputRoot_of_new h hnew hout.found
  · exact absurd (congrArg Path.raw hempty) (Location.raw_toPath_ne_empty base)
  · obtain rfl := Location.toPath_injective (hready.proper_of_get? hout.directory)
      (hready.proper_of_get? hentry) hpath
    exact ⟨hother, FileM.createDirectories_fresh h hlinks hup hnew hmade hother⟩

/-- In a new directory nothing is in the way of the results. -/
theorem WalkReady.landing_of_fresh {plan : Transformer.WalkPlan} {file : Location}
    (h : WalkReady plan ready root base)
    (hfresh : ∀ location, base <+: location → location ≠ base → ready.get? location = none)
    (hfile : WalkPlan.Lists plan ready root file) :
    landing ready (mirror root base file) = mirror root base file := by
  refine landing_of_not_directory h.wellFormed (h.proper_mirror hfile) (h.clear_mirror hfile) ?_
  obtain ⟨names, hnames, rfl, -⟩ := hfile
  rw [mirror_append, hfresh _ (List.prefix_append _ _) (by simpa using hnames)]
  simp

/-- The first codemod writes to the new directory. -/
theorem composes_stage_redirected {loaded : Loaded} {next : Path} (h : world.store.WellFormed)
    (hlinks : world.store.NoLinks) (hroot : world.store.get? root = some .directory)
    (htarget : Targets world.store target root) (hup : .up ∉ path.components)
    (hnew : world.store.pathExists path = false)
    (hout : OutputAt root (some path) world.store base ready) (hdetermined : loaded.TreeDetermined)
    (hresult : runner.stage ignored manifest target (some path) world =
      (.ok (loaded, next), after)) :
    Composes
      (Eligible runner.grammar.extensions (ignored.paths ++ [base.toPath]) world.store root)
      (mirror root base) (fun _ => [loaded]) world.store after.store := by
  obtain ⟨-, hbefore, hfresh⟩ := hout.fresh h hlinks hup hnew
  have hclear := hlinks.outputClear root (some path)
  have hdiffers : base ≠ root := by
    rintro rfl
    rw [hbefore base List.prefix_rfl] at hroot
    cases hroot
  refine (composes_stage h hroot htarget hclear hout hdetermined hresult).congr ?_ ?_
  · intro file
    rw [lists_iff_eligible h hroot hout, if_neg hdiffers]
  · intro file hfile
    exact (hout.walkReady h hroot hclear _ _).landing_of_fresh hfresh hfile

/-- What is eligible in a directory is so in its output, once it is there, unless it is ignored
there. -/
theorem Eligible.mirror {extensions : List String} {leftOut : List Path} {file : Location}
    {between : FileStore} (h : store.WellFormed) (hroot : store.get? root = some .directory)
    (hbetween : between.WellFormed)
    (hthere : ∃ content, between.get? (Retouch.mirror root base file) = some (.file content))
    (hfree : ignored.covers (Retouch.mirror root base file) = false)
    (hfile : Eligible extensions leftOut store root file) :
    Eligible extensions ignored.paths between base (Retouch.mirror root base file) := by
  obtain ⟨names, hnames, rfl⟩ := hfile.exists_append hroot
  rw [mirror_append] at hthere hfree ⊢
  refine ⟨List.prefix_append _ _, hthere, ?_, hfree⟩
  -- the two files have the same name
  obtain ⟨source, hsource⟩ := hfile.isFile
  obtain ⟨content, hcontent⟩ := hthere
  have hextension := hfile.extension
  obtain ⟨front, name, rfl⟩ := (List.eq_nil_or_concat names).resolve_left hnames
  rw [List.concat_eq_append, ← List.append_assoc] at hsource hcontent hextension ⊢
  rw [Path.hasExtension, extension?_toPath_concat (h.proper_of_get? hsource)
    (hbetween.proper_of_get? hcontent)]
  exact hextension

/-- With a new output, the first codemod writes there, and the others go on in place. -/
theorem composes_redirected (h : world.store.WellFormed) (hlinks : world.store.NoLinks)
    (hroot : world.store.get? root = some .directory) (htarget : Targets world.store target root)
    (hup : .up ∉ path.components) (hnew : world.store.pathExists path = false)
    (hout : OutputAt root (some path) world.store base ready)
    (hdetermined : ∀ loaded ∈ runner.codemodsOf ignored (manifest :: rest) target (some path) world,
      loaded.TreeDetermined)
    (hrun : runner.executeAll ignored (manifest :: rest) target (some path) world =
      (.ok result, after)) :
    (after.store.locate path = .ok base ∧ result = base.toPath) ∧
      Composes
        (Eligible runner.grammar.extensions (ignored.paths ++ [base.toPath]) world.store root)
        (mirror root base)
        (fun location =>
          let codemods := runner.codemodsOf ignored (manifest :: rest) target (some path) world
          if ignored.covers location then codemods.take 1 else codemods)
        world.store after.store := by
  obtain ⟨loaded, next, between, hstage, hrest, hcodemods⟩ := Runner.executeAll_cons_eq_ok hrun
  rw [hcodemods] at hdetermined ⊢
  have hfirst := composes_stage_redirected h hlinks hroot htarget hup hnew hout
    (hdetermined loaded List.mem_cons_self) hstage
  have hstages := stageRun_stage runner ignored manifest (some path) h hroot htarget
  rw [hstage] at hstages
  have hclear := hlinks.outputClear root (some path)
  obtain ⟨hlocate, hbefore, -⟩ := hout.fresh h hlinks hup hnew
  obtain ⟨rfl, hready⟩ := hstages.grows_ready h hroot hclear hout
  -- the first codemod hands the output on, so the others run in place there
  have hbetween := hready.wellFormed ((hout.grows h).wellFormed h)
  have hbase := hready.directory hout.directory
  have hgrows := grows_executeAll runner ignored rest hbetween hbase (.inr rfl)
  rw [hrest] at hgrows
  refine ⟨⟨locate_of_grows hgrows (locate_of_grows hready hlocate),
    Runner.eq_target_of_executeAll hrest⟩, ?_⟩
  cases rest with
  | nil =>
    cases hrest
    simp only [Runner.codemodsOf_nil, List.take_succ_cons, List.take_nil, ite_self]
    exact hfirst
  | cons manifest' rest =>
    have hnext := composes_executeAll hbetween hbase (.inr rfl)
      (fun other hother => hdetermined other (List.mem_cons_of_mem _ hother)) hrest
    refine hfirst.andThen hnext ?_ ?_ ?_
    · -- the directory is new, so a file in it is a result of the first codemod
      intro location hlater
      by_contra hnone
      obtain ⟨content, hcontent⟩ := hlater.isFile
      have hold := (hfirst.others location (fun file hfile heq => hnone ⟨file, hfile, heq⟩)
        content).mp hcontent
      rw [hbefore location hlater.below] at hold
      cases hold
    · intro location hlater
      have hfree : ignored.covers location = false := hlater.free
      simp [hfree]
    · intro file hfile hnot
      by_cases hcovers : ignored.covers (mirror root base file) = true
      · simp [hcovers]
      · obtain ⟨_, final, -, -, hfinal⟩ := hfirst.rewritten file hfile
        exact absurd (hfile.mirror h hroot hbetween ⟨_, hfinal⟩ (by simpa using hcovers)) hnot

/-! ### The empty output -/

/-- The empty path leads to nothing, so there is nothing to transform. -/
theorem onPath_empty {σ : Type} (transformer : Transformer σ) (output : Option Path)
    (ignored : IgnoreSet) (site : Site σ) :
    transformer.onPath ⟨""⟩ output ignored site = .error (.fileNotFound ⟨""⟩) site := by
  rw [Transformer.onPath, bind_apply, RunM.files_apply]
  rfl

/-- The empty path is nothing to run a codemod on. -/
theorem eq_nil_of_executeAll_empty {manifests : List Path} {output : Option Path}
    (h : runner.executeAll ignored manifests ⟨""⟩ output world = (.ok result, after)) :
    manifests = [] := by
  cases manifests with
  | nil => rfl
  | cons manifest rest =>
    obtain ⟨loaded, next, between, hstage, -, -⟩ := Runner.executeAll_cons_eq_ok h
    obtain ⟨_, _, _, _, -, hran, -⟩ := Runner.stage_eq_ok hstage
    rw [Loaded.onPath, Loaded.runWith, onPath_empty] at hran
    cases hran

/-- An output that was not there is found, unless it is the empty path. Then no file changes. -/
theorem outputAt_or_empty {loaded : Loaded} {next : Path} (h : world.store.WellFormed)
    (hlinks : world.store.NoLinks)
    (hroot : world.store.get? root = some .directory) (htarget : Targets world.store target root)
    (hnew : world.store.pathExists path = false)
    (hresult : runner.stage ignored manifest target (some path) world =
      (.ok (loaded, next), after)) :
    (∃ base ready, OutputAt root (some path) world.store base ready) ∨
      (path = ⟨""⟩ ∧ next = ⟨""⟩ ∧ ∀ location content,
        after.store.get? location = some (.file content) ↔
          world.store.get? location = some (.file content)) := by
  have hstage := stageRun_stage runner ignored manifest (some path) h hroot htarget
  have hgrows := hstage.grows h hroot (hlinks.outputClear root (some path))
  rw [hresult] at hstage hgrows
  by_cases hat : ∃ base ready, OutputAt root (some path) world.store base ready
  · exact .inl hat
  · right
    cases hstage with
    | passed hextensions hsite hrun =>
      cases hrun with
      | finished hfound hwalk hquiet =>
        rw [hsite] at hfound
        obtain ⟨-, ⟨hpath, hnext⟩ | ⟨base, -, rfl, hbase⟩⟩ := outputRoot_of_new h hnew hfound
        · refine ⟨hpath, hnext, fun location content => hgrows.file_iff ?_⟩
          rintro ⟨base, ready, hout, -⟩
          exact hat ⟨base, ready, hout⟩
        · exact absurd ⟨base, _, hfound, hbase⟩ hat

/-- With an output that was not there, the first codemod writes there, and the others go on in
place. When the output is the empty path, nothing is eligible. -/
theorem composes_executeAll_output (h : world.store.WellFormed) (hlinks : world.store.NoLinks)
    (hroot : world.store.get? root = some .directory) (htarget : Targets world.store target root)
    (hup : .up ∉ path.components) (hnew : world.store.pathExists path = false)
    (hdetermined : ∀ loaded ∈ runner.codemodsOf ignored (manifest :: rest) target (some path) world,
      loaded.TreeDetermined)
    (hrun : runner.executeAll ignored (manifest :: rest) target (some path) world =
      (.ok result, after)) :
    ∃ out, (path.raw ≠ "" → after.store.locate path = .ok out ∧ result = out.toPath) ∧
      Composes (Eligible runner.grammar.extensions (ignored.paths ++ [result]) world.store root)
        (mirror root out)
        (fun location =>
          let codemods := runner.codemodsOf ignored (manifest :: rest) target (some path) world
          if ignored.covers location then codemods.take 1 else codemods)
        world.store after.store := by
  obtain ⟨loaded, next, between, hstage, hrest, -⟩ := Runner.executeAll_cons_eq_ok hrun
  rcases outputAt_or_empty h hlinks hroot htarget hnew hstage with
    ⟨base, ready, hout⟩ | ⟨rfl, rfl, hsame⟩
  · obtain ⟨⟨hlocate, rfl⟩, hcomposes⟩ :=
      composes_redirected h hlinks hroot htarget hup hnew hout hdetermined hrun
    exact ⟨base, fun _ => ⟨hlocate, rfl⟩, hcomposes⟩
  · obtain rfl := eq_nil_of_executeAll_empty hrest
    cases hrest
    refine ⟨root, fun hraw => absurd rfl hraw, fun file hfile => ?_,
      fun location _ => hsame location⟩
    -- every path begins with the empty one
    have hfree := hfile.free
    rw [List.any_append, Bool.or_eq_false_iff] at hfree
    cases hfree.2

end redirected

/-! ### Whole runs -/

/-- The paths that a run leaves out, in normal form. -/
def FileStore.leftOut (store : FileStore) (target : Path) (ignore : List Path) : List Path :=
  (store.resolveEntries target ignore).1.map store.normalize

/-- The set of ignored paths that a run goes by. -/
def FileStore.ignoreSet (store : FileStore) (target : Path) (ignore : List Path) : IgnoreSet :=
  .ofPaths store (store.resolveEntries target ignore).1

/-- A run leaves out what has one of the paths above it. -/
theorem FileStore.covers_ignoreSet (store : FileStore) (target : Path) (ignore : List Path)
    (location : Location) :
    (store.ignoreSet target ignore).covers location =
      (store.leftOut target ignore).any location.toPath.beginsWith :=
  IgnoreSet.covers_foldl_insert {} store _ location

/-- The world in which a run starts, after the paths to ignore have been looked up. -/
def World.afterLookup (world : World) (target : Path) (ignore : List Path) : World :=
  { world with journal := world.journal.append (world.store.resolveEntries target ignore).2 }

/-- A run looks up the paths to ignore, and then runs its schedule. -/
theorem Runner.execute_eq (runner : Runner) (target : Path) (output : Option Path)
    (ignore : List Path) (world : World) :
    runner.execute target output ignore world =
      runner.executeAll (world.store.ignoreSet target ignore) runner.schedule target output
        (world.afterLookup target ignore) :=
  rfl

/-- The codemods that a runner runs, up to the first failure. -/
def Runner.codemods (runner : Runner) (target : Path) (output : Option Path) (ignore : List Path)
    (world : World) : List Loaded :=
  runner.codemodsOf (world.store.ignoreSet target ignore) runner.schedule target output
    (world.afterLookup target ignore)

/-- What a schedule makes of a directory is what its codemods, one after the other, make of each
eligible file. They are the codemods of its manifests, each of them loaded in its turn. In place the
results take the place of the files. With a new output they go to the same places there, and what is
ignored there has only been through the first codemod. -/
theorem execute_composes {runner : Runner} {target result : Path} {output : Option Path}
    {ignore : List Path} {world after : World} {root : Location} (h : world.store.WellFormed)
    (htarget : world.store.locate target = .ok root)
    (hroot : world.store.get? root = some .directory) (hschedule : runner.schedule ≠ [])
    (hdetermined : ∀ loaded ∈ runner.codemods target output ignore world, loaded.TreeDetermined)
    (houtput : ∀ path ∈ output,
      world.store.NoLinks ∧ .up ∉ path.components ∧ world.store.pathExists path = false)
    (hrun : runner.execute target output ignore world = (.ok result, after)) :
    let extensions := runner.grammar.extensions
    let leftOut := world.store.leftOut target ignore
    let codemods := runner.codemods target output ignore world
    codemods.length = runner.schedule.length ∧
    List.Forall₂
      (runner.LoadedInTurn (world.store.ignoreSet target ignore) runner.schedule target output
        (world.afterLookup target ignore)) runner.schedule codemods ∧
    (output = none →
      Composes (Eligible extensions leftOut world.store root) id (fun _ => codemods)
        world.store after.store) ∧
    ∀ path ∈ output, ∃ out,
      (path.raw ≠ "" → after.store.locate path = .ok out ∧ result = out.toPath) ∧
      Composes (Eligible extensions (leftOut ++ [result]) world.store root) (mirror root out)
        (fun location =>
          if leftOut.any location.toPath.beginsWith then codemods.take 1 else codemods)
        world.store after.store := by
  intro extensions leftOut codemods
  have hleftOut : ∀ location, (world.store.ignoreSet target ignore).covers location =
      leftOut.any location.toPath.beginsWith := world.store.covers_ignoreSet target ignore
  have hstart : (world.afterLookup target ignore).store.WellFormed := h
  rw [Runner.execute_eq] at hrun
  have hloaded := Runner.forall₂_codemodsOf hrun
  refine ⟨hloaded.length_eq.symm, hloaded, ?_⟩
  obtain ⟨manifest, rest, hmanifests⟩ := List.exists_cons_of_ne_nil hschedule
  simp only [codemods, Runner.codemods, hmanifests] at hrun hdetermined ⊢
  constructor
  · rintro rfl
    have hcomposes := composes_executeAll hstart hroot (.inl htarget) hdetermined hrun
    exact hcomposes.congr (fun file => eligible_congr (hleftOut file).symm) fun _ _ => rfl
  · rintro path ⟨⟩
    obtain ⟨hlinks, hup, hnew⟩ := houtput path rfl
    obtain ⟨out, hout, hcomposes⟩ := composes_executeAll_output hstart hlinks hroot (.inl htarget)
      hup hnew hdetermined hrun
    simp only [hleftOut] at hcomposes
    refine ⟨out, hout, hcomposes.congr (fun file => eligible_congr ?_) fun _ _ => rfl⟩
    rw [List.any_append, List.any_append, ← hleftOut file]
    rfl

/-- A file that goes through two codemods to a new directory. -/
theorem execute_composes_bench :
    let runner := echoRunner [⟨"identity.toml"⟩, ⟨"strings.toml"⟩]
    let run := runner.execute ⟨"proj/src"⟩ (some ⟨"out"⟩) [⟨"./vendor"⟩] (bench [])
    Loaded.chain? (runner.codemods ⟨"proj/src"⟩ (some ⟨"out"⟩) [⟨"./vendor"⟩] (bench []))
        singleQuoted = some literalReplaced ∧
      run.2.store.get? ["out", "a.php"] = some (.file literalReplaced.toUTF8) := by
  intro runner run
  obtain ⟨hresult, hlocate, hwritten⟩ : run.1 = .ok ⟨"/out"⟩ ∧
      run.2.store.locate ⟨"out"⟩ = .ok ["out"] ∧
      run.2.store.get? ["out", "a.php"] = some (.file literalReplaced.toUTF8) := by
    decide +kernel
  have htarget : (bench []).store.locate ⟨"proj/src"⟩ = .ok ["proj", "src"] := by decide +kernel
  have hsource : (bench []).store.get? ["proj", "src", "a.php"] =
      some (.file singleQuoted.toUTF8) := by decide +kernel
  have hlinks : (bench []).store.NoLinks := noLinks_of_entries (by decide +kernel)
  have hdetermined := Runner.forall_mem_codemodsOf fun manifest world loaded after
    (hload : runner.loadCodemod manifest world = (.ok loaded, after)) =>
      Runner.treeDetermined_of_builtin rfl hload
  generalize hrun : run = outcome at hresult hlocate hwritten ⊢
  obtain ⟨_, after⟩ := outcome
  obtain rfl := hresult
  obtain ⟨-, -, -, hcomposes⟩ := execute_composes (by decide +kernel) htarget (by decide +kernel)
    (List.cons_ne_nil _ _) (hdetermined _ _ _ _ _)
    (by rintro path ⟨⟩; exact ⟨hlinks, by decide +kernel, by decide +kernel⟩) hrun
  obtain ⟨out, hout, hcomposes⟩ := hcomposes ⟨"out"⟩ rfl
  obtain rfl : ["out"] = out := Except.ok.inj (hlocate.symm.trans (hout (by decide)).1)
  obtain ⟨text, final, htext, hfinal, hafter⟩ := hcomposes.rewritten ["proj", "src", "a.php"]
    ⟨by decide, ⟨_, hsource⟩, by decide +kernel, by decide +kernel⟩
  rw [hsource, Option.some.injEq, Entry.file.injEq] at htext
  obtain rfl := String.toByteArray_inj.mp htext
  rw [if_neg (by decide +kernel)] at hfinal
  -- the file that was written shows which text that is
  have hsame := hwritten.symm.trans hafter
  rw [Option.some.injEq, Entry.file.injEq] at hsame
  obtain rfl := String.toByteArray_inj.mp hsame
  exact ⟨hfinal, hwritten⟩

end Retouch
