import Retouch.Proofs.Run.Pruning

/-!
# Runs that a refused file interrupts

The text of a file is refused when it does not fit the grammar, or when the codemod fails on it, in
whatever phase. A run stops there (`onPath_interrupted`), and what it leaves behind is a run on the
files before:

* the error names the file that was refused;
* the files before it, in the order of the walk, have their results in place and are reported, each
  of them once and by one line on the console;
* neither the refused file nor one after it has a result or a report, and no other file has changed.
  Directories may have been made.

For a single file, nothing was before it, so no file has changed at all.
-/

namespace Retouch

open FileStore Transformer

variable {σ : Type} {transformer : Transformer σ} {ignored : IgnoreSet} {output : Option Path}
  {input target : Path} {store ready : FileStore} {root base file : Location} {site after : Site σ}
  {error : RunError} {text : String} {context : Option Context}

/-! ### Refusals -/

/-- The context of a file has the path of that file as its input. -/
theorem Context.inputFile?_forFile (input output : Path) :
    (Context.forFile input output).inputFile? = some input := by
  apply inputFile?_eq_some_iff.mpr
  rw [forFile, get?_set_of_ne _ (by decide), get?_set_self]

/-- A text can only be refused, and the error names the input of the context. -/
theorem file?_of_onText {live left : Live σ}
    (h : transformer.onText text context live = .error error left) :
    error.file? = context.bind Context.inputFile? := by
  rw [onText] at h
  cases hparse : transformer.grammar.parse text with
  | error fault =>
    rw [hparse] at h
    cases h
    rfl
  | ok parsed =>
    rw [hparse] at h
    cases hcodemod : transformer.codemod with
    | none =>
      rw [hcodemod] at h
      cases h
    | some codemod =>
      simp only [hcodemod, bind_apply, transformTree] at h
      cases hmade : codemod.transform (context.getD .empty) parsed.tree
          ⟨live.own, live.journal⟩ with
      | ok tree hooks =>
        rw [hmade] at h
        cases h
      | error failure hooks =>
        rw [hmade] at h
        cases h
        rfl

/-! ### Interrupted runs -/

/-- A run was interrupted at a file. The files before it were transformed, the text of the file was
refused, and nothing came of it and of the files after it. -/
structure Interrupted (transformer : Transformer σ) (error : RunError)
    (place : Location → Location) (earlier : List Location) (file : Location)
    (later : List Location) (site after : Site σ) : Prop where
  refused : ∃ live text target,
    Transformed transformer place site.store after.store earlier site.live live ∧
    site.store.get? file = some (.file text.toUTF8) ∧
    transformer.onText text (some (.forFile file.toPath target)) live = .error error after.live
  apart : ∀ other ∈ file :: later, place other ∉ earlier.map place
  others : site.store.Grows (· ∈ earlier.map place) (fun _ => True) after.store

namespace Interrupted

variable {place : Location → Location} {earlier later : List Location}

/-- The error names the file that was refused. -/
theorem file?_eq (h : Interrupted transformer error place earlier file later site after) :
    error.file? = some file.toPath := by
  obtain ⟨live, text, target, -, -, hresult⟩ := h.refused
  rw [file?_of_onText hresult]
  exact Context.inputFile?_forFile _ _

/-- The files before the refused one are reported, each of them once and in order. -/
theorem traced_eq (h : Interrupted transformer error place earlier file later site after)
    (hkeeps : transformer.KeepsTrace) :
    after.journal.traced = site.journal.traced ++
      earlier.map fun other => (other.toPath, (place other).toPath) := by
  obtain ⟨live, text, target, htransformed, -, hresult⟩ := h.refused
  have hkept := hkeeps text (some (.forFile file.toPath target)) live
  rw [hresult] at hkept
  exact hkept.trans (htransformed.traced_eq hkeeps)

/-- Before the run that was interrupted, directories were made. -/
theorem of_grows {begun : Site σ} {made : Location → Prop} {place' : Location → Location}
    (h : Interrupted transformer error place earlier file later begun after)
    (hgrows : site.store.Grows (fun _ => False) made begun.store)
    (hlive : site.live.Quiet begun.live)
    (hplace : ∀ other ∈ earlier ++ file :: later, place other = place' other) :
    Interrupted transformer error place' earlier file later site after := by
  have hold := fun other hother => hplace other (List.mem_append_left _ hother)
  have hmap : earlier.map place = earlier.map place' := List.map_congr_left hold
  obtain ⟨live, text, target, htransformed, htext, hresult⟩ := h.refused
  constructor
  · refine ⟨live, text, target, ?_, (hgrows.file_iff not_false).mp htext, hresult⟩
    refine (htransformed.of_quiet hlive).transport hold ?_ fun _ _ _ hafter => hafter
    exact fun _ _ _ hbefore => (hgrows.file_iff not_false).mp hbefore
  · intro other hother
    rw [← hplace other (List.mem_append_right _ hother), ← hmap]
    exact h.apart other hother
  · rw [← hmap]
    exact (hgrows.mono (fun _ hnone => hnone.elim) fun _ _ => trivial).trans h.others

end Interrupted

/-! ### Single files -/

/-- To find out where the result of a file goes, at most directories are made. -/
theorem grows_outputFile (h : store.WellFormed) (input : Path) (output : Option Path) :
    store.Grows (fun _ => False) (fun _ => True) (stateAfter (outputFile input output store)) := by
  cases output with
  | none => exact .refl _ _ _
  | some output =>
    have hmade : ∀ path result, store.Grows (fun _ => False) (fun _ => True)
        (stateAfter ((do FileM.createDirectories path; pure ((← get).normalize result) :
          FileM Path) store)) := by
      intro path result
      have hgrows := FileM.grows_createDirectories h path
      rw [FileM.createDirectories_normalize]
      cases hpath : FileM.createDirectories path store <;> rwa [hpath] at hgrows
    rw [outputFile, bind_apply, get_apply]
    dsimp only
    by_cases hinside : (store.isDirectory output || output.extension?.isNone) = true
    · rw [if_pos hinside]
      cases input.fileName? with
      | none => exact .refl _ _ _
      | some name => exact hmade _ _
    · rw [if_neg hinside]
      cases output.parent? with
      | none => exact .refl _ _ _
      | some parent =>
        by_cases hparent : parent.raw ≠ ""
        · simp only [if_pos hparent]
          exact hmade _ _
        · simp only [if_neg hparent]
          exact .refl _ _ _

/-- A file that is refused changes no file. -/
theorem interrupted_onFile (h : site.store.WellFormed) (hlinks : site.store.NoLinks)
    (hfile : site.store.isFile input = true)
    (hrun : transformer.onFile input output site = .error error after)
    (hrefused : error.isRefusal = true) :
    ∃ file, site.store.locate input = .ok file ∧
      Interrupted transformer error id [] file [] site after := by
  obtain ⟨file, content, hinput, hcontent⟩ := isFile_iff_locate.mp hfile
  refine ⟨file, hinput, ?_⟩
  have hfileRun := fileRun_onFile transformer output hfile
  rw [hrun, normalize_of_locate hinput] at hfileRun
  have hproper := h.proper_of_get? hcontent
  have hgrows := grows_outputFile h file.toPath output
  cases hfileRun with
  | noTarget => cases hrefused
  | unread => cases hrefused
  | unwritten => cases hrefused
  | failed htarget hread hresult =>
    rw [htarget, stateAfter] at hgrows
    have htext := readText_toPath hproper (hgrows.clear (hlinks.clear file)) hread
    constructor
    · exact ⟨_, _, _, .done (.refl _), (hgrows.file_iff not_false).mp htext, hresult⟩
    · exact fun _ _ => List.not_mem_nil
    · exact hgrows.mono (fun _ hnone => hnone.elim) fun _ hmade => hmade

/-! ### Directories -/

/-- Attempts that end with a refusal have transformed the files before the refused one. -/
theorem Attempted.interrupted {plan : WalkPlan} {files : List Location}
    (h : WalkReady plan site.store root base)
    (hfiles : ∀ file ∈ files, WalkPlan.Lists plan site.store root file) (hnodup : files.Nodup)
    (hattempted : Attempted transformer (mirror root base) files site (some error) after)
    (hrefused : error.isRefusal = true) :
    ∃ earlier file later, files = earlier ++ file :: later ∧
      Interrupted transformer error (fun file => landing site.store (mirror root base file))
        earlier file later site after := by
  obtain ⟨earlier, file, later, middle, noted, rfl, hearlier, hquiet, hstop⟩ :=
    hattempted.exists_stop
  refine ⟨earlier, file, later, rfl, ?_⟩
  have hbefore := fun other hother => hfiles other (List.mem_append_left _ hother)
  have hfile := hfiles file (by simp)
  obtain ⟨hnodupEarlier, -, hdisjoint⟩ := List.nodup_append.mp hnodup
  have hgrows := hearlier.grows h hbefore (.refl _ _ _)
  have hunderway := hearlier.underway h hbefore (.refl _ _ _)
  have htransformed := hearlier.transformed h hbefore hnodupEarlier (.refl _ _ _) fun _ _ => rfl
  rw [← hquiet.store_eq] at hgrows hunderway htransformed
  have houtcome := h.fileOutcome_onFile_underway transformer hunderway hfile
  rw [hstop] at houtcome
  cases houtcome with
  | blocked hcause =>
    rw [hrefused] at hcause
    cases hcause
  | @refused text _ _ htext hresult hlast =>
    constructor
    · refine ⟨noted.live, text, _, ?_, (hgrows.file_iff ?_).mp htext, hresult⟩
      · refine (htransformed.then_quiet hquiet.live).transport (fun _ _ => rfl)
          (fun _ _ _ hold => hold) ?_
        exact fun _ _ _ hnew => (hlast.file_iff not_false).mpr hnew
      · -- the results of the files before the refused one are elsewhere
        rintro ⟨other, hother, heq⟩
        exact h.ne_landing (hbefore other hother) hfile
          (hdisjoint other hother file List.mem_cons_self).symm heq
    · intro other hother hmem
      obtain ⟨first, hfirst, heq⟩ := List.mem_map.mp hmem
      have hsame := h.eq_of_landing (hbefore first hfirst)
        (hfiles other (List.mem_append_right _ hother)) heq
      exact hdisjoint first hfirst other hother hsame
    · refine (hgrows.mono ?_ fun _ _ => trivial).trans
        (hlast.mono (fun _ hnone => hnone.elim) fun _ _ => trivial)
      rintro location ⟨other, hother, rfl⟩
      exact List.mem_map_of_mem hother

namespace DirectoryRun

/-- An error about a text comes from the walk. -/
theorem outputAt_of_refused (h : site.store.WellFormed)
    (hroot : site.store.get? root = some .directory)
    (hrun : DirectoryRun transformer ignored root output site (.error error after))
    (hrefused : error.isRefusal = true) :
    ∃ base begun, OutputAt root output site.store base begun.store ∧
      site.live.Quiet begun.live ∧
      walkFrom transformer ignored root base.toPath begun = .error error after := by
  cases hrun with
  | noOutput => cases hrefused
  | @stopped target begun _ _ htarget hwalk hlive =>
    rcases outputRoot_cases h hroot htarget with rfl | ⟨base, rfl, hbase⟩
    · obtain ⟨left, -, hempty⟩ := walkFrom_empty transformer ignored root begun
      rw [hwalk] at hempty
      cases hempty
    · exact ⟨base, begun, ⟨htarget, hbase⟩, hlive, hwalk⟩

/-- A walk that comes to a refused file has transformed the files before it. -/
theorem interrupted (h : site.store.WellFormed) (hroot : site.store.get? root = some .directory)
    (hlinks : OutputClear root output site.store)
    (hrun : DirectoryRun transformer ignored root output site (.error error after))
    (hrefused : error.isRefusal = true) :
    ∃ base ready earlier file later, OutputAt root output site.store base ready ∧
      walkedFiles transformer.extensions ignored root base ready = earlier ++ file :: later ∧
      Interrupted transformer error (fun file => landing after.store (mirror root base file))
        earlier file later site after := by
  obtain ⟨base, begun, hout, hlive, hwalk⟩ := hrun.outputAt_of_refused h hroot hrefused
  have hready := hout.walkReady h hroot hlinks transformer.extensions ignored
  have hattempted := attempted_walkFrom hready
  rw [hwalk, failureOf, stateAfter] at hattempted
  obtain ⟨earlier, file, later, hfiles, hinterrupted⟩ := hattempted.interrupted hready
    (fun _ hmem => lists_of_mem_itinerary hready.wellFormed hmem)
    (nodup_itinerary hready.wellFormed _ _ _) hrefused
  refine ⟨base, begun.store, earlier, file, later, hout, hfiles, ?_⟩
  refine hinterrupted.of_grows (hout.grows h) hlive ?_
  intro other hother
  rw [← hfiles] at hother
  exact (hrun.landing_eq h hroot hlinks hout hother).symm

end DirectoryRun

/-! ### Paths -/

/-- A run that ends with a refusal was interrupted at the file that the error names: it has
transformed the files that the walk comes to before, and nothing else. If the codemod reports no
files itself, then these are reported, each of them once and in order. On the console, each report
on a file is one line. -/
theorem onPath_interrupted (h : site.store.WellFormed) (hlinks : site.store.NoLinks)
    (hrun : transformer.onPath target output ignored site = .error error after)
    (hrefused : error.isRefusal = true) :
    ∃ place earlier file later,
      error.file? = some file.toPath ∧
      Interrupted transformer error place earlier file later site after ∧
      (transformer.KeepsTrace → after.journal.traced = site.journal.traced ++
        earlier.map fun other => (other.toPath, (place other).toPath)) ∧
      List.Sublist after.journal.traceLines after.journal.console ∧
      List.Forall₂ TraceLine after.journal.traced after.journal.traceLines ∧
      ((site.store.locate target = .ok file ∧ earlier = [] ∧ later = []) ∨
        ∃ root out ready, site.store.locate target = .ok root ∧
          outputDirectory root.toPath output site.world = .ok out.toPath ready ∧
          ready.store.get? out = some .directory ∧
          place = (fun file => landing after.store (mirror root out file)) ∧
          WalkOrder transformer.extensions
            (ignored.paths ++ if out.toPath = root.toPath then [] else [out.toPath]) site.store root
            (earlier ++ file :: later)) := by
  rw [onPath, bind_apply, RunM.files_apply] at hrun
  dsimp only at hrun
  by_cases hdirectory : site.store.isDirectory target = true
  · rw [if_pos hdirectory] at hrun
    obtain ⟨root, hlocate, hroot⟩ := isDirectory_iff_locate.mp hdirectory
    have hdirectoryRun := directoryRun_onDirectory transformer ignored output h hlocate hroot
    rw [hrun] at hdirectoryRun
    obtain ⟨out, ready, earlier, file, later, hout, hfiles, hinterrupted⟩ :=
      hdirectoryRun.interrupted h hroot (hlinks.outputClear root output) hrefused
    obtain ⟨messages, hresolved⟩ := outputDirectory_eq h hroot output site.journal
    rw [hout.found] at hresolved
    refine ⟨_, earlier, file, later, hinterrupted.file?_eq, hinterrupted, hinterrupted.traced_eq,
      after.journal.traceLines_sublist, after.journal.forall₂_traceLines,
      .inr ⟨root, out, _, hlocate, hresolved, hout.directory, rfl, ?_⟩⟩
    rw [← hfiles]
    exact hout.walkOrder h hroot
  · rw [if_neg hdirectory] at hrun
    by_cases hfile : site.store.isFile target = true
    · rw [if_pos hfile] at hrun
      obtain ⟨file, hlocate, hinterrupted⟩ := interrupted_onFile h hlinks hfile hrun hrefused
      exact ⟨id, [], file, [], hinterrupted.file?_eq, hinterrupted, hinterrupted.traced_eq,
        after.journal.traceLines_sublist, after.journal.forall₂_traceLines,
        .inl ⟨hlocate, rfl, rfl⟩⟩
    · rw [if_neg hfile] at hrun
      cases hrun
      cases hrefused

/-- A codemod that fails on one file, before the first step. -/
def picky : Transformer Unit where
  grammar := (echoRunner []).grammar
  codemod := some
    { name := "picky"
      manifest := ⟨"picky.toml"⟩
      codemod.before := fun context tree =>
        if context.inputFile? = some ⟨"/proj/src/b.php"⟩ then throw (.ofMessage "not this one")
        else pure tree
      plan := [] }

/-- It reports no file. -/
theorem keepsTrace_picky : picky.KeepsTrace := by
  apply keepsTrace_of_codemod
  rintro prepared ⟨⟩
  apply Prepared.keepsTrace_of_hooks
  · intro context tree
    dsimp only
    split
    · exact fun _ => rfl
    · exact fun _ => rfl
  · exact fun _ hmem => absurd hmem List.not_mem_nil
  · exact fun _ _ _ => rfl

/-- A walk over three files whose second one is refused. -/
theorem onPath_interrupted_picky :
    let site : Site Unit := ⟨(), .empty, {}, (bench
      [(["proj", "src", "b.php"], .file singleQuoted.toUTF8),
       (["proj", "src", "c.php"], .file singleQuoted.toUTF8)]).store⟩
    let run := picky.onPath ⟨"proj/src"⟩ (some ⟨"out"⟩) {} site
    ∃ error place earlier later, run = .error error (stateAfter run) ∧
      Interrupted picky error place earlier ["proj", "src", "b.php"] later site (stateAfter run) ∧
      ["proj", "src", "a.php"] ∈ earlier ∧ ["proj", "src", "c.php"] ∈ later ∧
      List.Forall₂ TraceLine (earlier.map fun other => (other.toPath, (place other).toPath))
        (stateAfter run).journal.traceLines := by
  intro site run
  have hfailure : failureOf run = some (.codemodFailed (some ⟨"/proj/src/b.php"⟩)
      (.ofMessage "not this one")) := by decide +kernel
  have hinput : site.store.locate ⟨"proj/src"⟩ = .ok ["proj", "src"] := by decide +kernel
  have hlinks : site.store.NoLinks := noLinks_of_entries (by decide +kernel)
  have hformed : site.store.WellFormed := by decide +kernel
  have hrun := eq_error_of_failureOf hfailure
  obtain ⟨place, earlier, file, later, hnamed, hinterrupted, htraced, -, hlines, hwalk⟩ :=
    onPath_interrupted hformed hlinks hrun rfl
  obtain ⟨_, _, _, -, htext, -⟩ := hinterrupted.refused
  obtain rfl : file = ["proj", "src", "b.php"] :=
    Location.toPath_injective (hformed.proper_of_get? htext) (by decide +kernel)
      ((Option.some.inj hnamed).symm.trans (by decide +kernel))
  refine ⟨_, place, earlier, later, hrun, hinterrupted, ?_⟩
  rcases hwalk with ⟨hfile, -, -⟩ | ⟨root, out, ready, hroot, hfound, -, -, horder⟩
  · rw [hinput] at hfile
    exact absurd hfile (by decide)
  · obtain rfl : ["proj", "src"] = root := Except.ok.inj (hinput.symm.trans hroot)
    have hresolved : valueOf? (outputDirectory (Location.toPath ["proj", "src"]) (some ⟨"out"⟩)
        site.world) = some ⟨"/out"⟩ := by decide +kernel
    rw [hfound, valueOf?, Option.some.injEq] at hresolved
    rw [hresolved] at horder
    rw [htraced keepsTrace_picky] at hlines
    refine ⟨horder.mem_earlier_iff.mpr ⟨?_, by decide⟩, horder.mem_later_iff.mpr ⟨?_, by decide⟩,
      hlines⟩
    · exact ⟨by decide, ⟨_, rfl⟩, by decide +kernel, by decide +kernel⟩
    · exact ⟨by decide, ⟨_, rfl⟩, by decide +kernel, by decide +kernel⟩

end Retouch
