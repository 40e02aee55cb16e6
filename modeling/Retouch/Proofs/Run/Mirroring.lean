import Retouch.Proofs.Run.Pruning

/-!
# Directories are mirrored into the output

A directory run gives every eligible file a result at the same place below the output. It leaves the
output out of its walk, so that it does not take up its own results, and with the output goes
everything below. This decides what is mirrored (`onDirectory_mirrors`).

* A file that is not below the output is mirrored. This is every file if the output is apart from
  the directory of the run, or is that directory itself.
* An output above the directory of the run has all files below it. Then nothing is mirrored, and the
  run does not fail for that (`onDirectory_skips_below_output`).
-/

namespace Retouch

open FileStore Transformer

variable {σ : Type} {transformer : Transformer σ} {ignored : IgnoreSet} {output : Option Path}
  {root out file : Location} {site after : Site σ}

namespace DirectoryRun

/-- A run that ends at a directory had its output there from the start of the walk. -/
theorem exists_outputAt (h : site.store.WellFormed)
    (hroot : site.store.get? root = some .directory) (hproper : out.Proper)
    (hrun : DirectoryRun transformer ignored root output site (.ok out.toPath after)) :
    ∃ ready, OutputAt root output site.store out ready := by
  obtain ⟨ready, hfound⟩ := hrun.outputRoot_eq
  refine ⟨ready, hfound, ?_⟩
  rcases outputRoot_cases h hroot hfound with hempty | ⟨base, hpath, hbase⟩
  · exact absurd hempty (Location.toPath_ne_empty out)
  · have hgrows := grows_outputRoot h root output
    rw [hfound, stateAfter] at hgrows
    rwa [Location.toPath_injective hproper ((hgrows.wellFormed h).proper_of_get? hbase) hpath]

/-- An eligible file has its result at the same place below the output, if no directory is there. -/
theorem mirrors (h : site.store.WellFormed) (hlinks : site.store.NoLinks)
    (hroot : site.store.get? root = some .directory)
    (hrun : DirectoryRun transformer ignored root output site (.ok out.toPath after))
    {ready : FileStore} (hout : OutputAt root output site.store out ready)
    (hfile : Eligible transformer.extensions
      (ignored.paths ++ if out = root then [] else [out.toPath]) site.store root file)
    (hfree : after.store.get? (mirror root out file) ≠ some .directory) :
    ∃ text result context live left, site.store.get? file = some (.file text.toUTF8) ∧
      transformer.onText text context live = .ok result left ∧
      after.store.get? (mirror root out file) = some (.file result.toUTF8) := by
  have hclear := hlinks.outputClear root output
  have hready := hout.walkReady h hroot hclear transformer.extensions ignored
  have hlisted := (lists_iff_eligible h hroot hout).mpr hfile
  have hmem : file ∈ walkedFiles transformer.extensions ignored root out ready :=
    (mem_itinerary_iff hready.wellFormed (Nat.le_succ _)).mpr hlisted
  have hgrows := hrun.grows h hroot hclear
  have hplace : landing after.store (mirror root out file) = mirror root out file :=
    landing_of_not_directory (hgrows.wellFormed h) (hready.proper_mirror hlisted)
      ((hgrows.noLinks hlinks).clear _) hfree
  obtain ⟨text, result, live, left, htext, hresult, hstored⟩ :=
    (hrun.transformed_after h hroot hclear hout).of_mem hmem
  rw [hplace] at hstored
  exact ⟨text, result, _, live, left, htext, hresult, hstored⟩

/-- With an output above the directory of the run, no file changes. -/
theorem file_iff_of_above (h : site.store.WellFormed) (hlinks : site.store.NoLinks)
    (hroot : site.store.get? root = some .directory)
    (hrun : DirectoryRun transformer ignored root output site (.ok out.toPath after))
    {ready : FileStore} (hout : OutputAt root output site.store out ready) (habove : out <+: root)
    (hne : out ≠ root) (location : Location) (content : ByteArray) :
    after.store.get? location = some (.file content) ↔
      site.store.get? location = some (.file content) := by
  refine (hrun.grows h hroot (hlinks.outputClear root output)).file_iff ?_
  rintro ⟨base, begun, hother, file, hlisted, -⟩
  obtain ⟨rfl, rfl⟩ := hout.eq h hother
  obtain ⟨rest, -, rfl, -, -, -, hfree⟩ := (lists_directoryPlan_iff ((hout.grows h).wellFormed h)
    ((hout.grows h).directory hroot) hout.directory).mp hlisted
  exact hfree ⟨hne, habove.trans (List.prefix_append _ _)⟩

end DirectoryRun

/-- A codemod that was loaded is run by its transformer. -/
theorem Loaded.exists_of_onDirectory {loaded left : Loaded} {input target : Path}
    {world last : World} (hrun : loaded.onDirectory input output ignored world =
      (.ok target, left, last)) :
    ∃ after, loaded.transformer.onDirectory input output ignored
      ⟨loaded.own, loaded.context, world.journal, world.store⟩ = .ok target after ∧
      after.store = last.store := by
  rw [Loaded.onDirectory, Loaded.runWith] at hrun
  cases hresult : loaded.transformer.onDirectory input output ignored
      ⟨loaded.own, loaded.context, world.journal, world.store⟩ with
  | error error after =>
    rw [hresult] at hrun
    cases hrun
  | ok given after =>
    rw [hresult] at hrun
    cases hrun
    exact ⟨after, rfl, rfl⟩

/-- Without ignored paths, only what is below the output is left out. -/
theorem eligible_of_not_below {extensions : List String} {store : FileStore} {rest : Location}
    {content : ByteArray} (h : store.WellFormed) (hproper : out.Proper)
    (hfile : store.get? (root ++ rest) = some (.file content))
    (hextension : (Location.toPath (root ++ rest)).hasExtension extensions = true)
    (hbelow : out <+: root ++ rest → out = root) :
    Eligible extensions (({} : IgnoreSet).paths ++ if out = root then [] else [out.toPath]) store
      root (root ++ rest) := by
  refine ⟨List.prefix_append _ _, ⟨content, hfile⟩, hextension, ?_⟩
  show (if out = root then [] else [out.toPath]).any _ = false
  by_cases heq : out = root
  · simp [heq]
  · have hapart : ¬ out <+: root ++ rest := fun hpre => heq (hbelow hpre)
    rw [← Location.beginsWith_toPath_iff (h.proper_of_get? hfile) hproper,
      Bool.not_eq_true] at hapart
    simp [heq, hapart]

/-- A directory run without ignored paths that does not fail mirrors every file with one of the
extensions that is not below the output. If the output is above the directory of the run, all files
are below it, and none changes. -/
theorem onDirectory_mirrors {loaded left : Loaded} {input : Path} {world last : World}
    (h : world.store.WellFormed) (hlinks : world.store.NoLinks)
    (hinput : world.store.locate input = .ok root) (hdetermined : loaded.TextDetermined)
    (hrun : loaded.onDirectory input output {} world = (.ok out.toPath, left, last))
    (hout : last.store.get? out = some .directory) :
    (∀ rest content, world.store.get? (root ++ rest) = some (.file content) →
      (Location.toPath (root ++ rest)).hasExtension loaded.transformer.extensions = true →
      (out <+: root ++ rest → out = root) →
      last.store.get? (out ++ rest) ≠ some .directory →
      ∃ text result, content = text.toUTF8 ∧ loaded.rewrite? text = some result ∧
        last.store.get? (out ++ rest) = some (.file result.toUTF8)) ∧
    (out <+: root → out ≠ root → ∀ location content,
      last.store.get? location = some (.file content) ↔
        world.store.get? location = some (.file content)) := by
  obtain ⟨after, hresult, hlast⟩ := Loaded.exists_of_onDirectory hrun
  rw [← hlast] at hout ⊢
  have hroot : world.store.get? root = some .directory := by
    obtain ⟨other, hother, hdirectory⟩ := exists_of_onDirectory hresult
    rwa [Except.ok.inj (hinput.symm.trans hother)]
  have hdirectory : DirectoryRun loaded.transformer {} root output
      ⟨loaded.own, loaded.context, world.journal, world.store⟩ (.ok out.toPath after) := by
    rw [← hresult]
    exact directoryRun_onDirectory loaded.transformer {} output h hinput hroot
  have hproper : out.Proper :=
    ((hdirectory.grows h hroot (hlinks.outputClear root output)).wellFormed h).proper_of_get? hout
  obtain ⟨ready, hat⟩ := hdirectory.exists_outputAt h hroot hproper
  constructor
  · intro rest content hfile hextension hbelow hfree
    rw [← mirror_append root out rest] at hfree ⊢
    obtain ⟨text, result, context, live, left, htext, hresult, hstored⟩ :=
      hdirectory.mirrors h hlinks hroot hat
        (eligible_of_not_below h hproper hfile hextension hbelow) hfree
    have hcontent : content = text.toUTF8 := by
      rw [hfile, Option.some.injEq, Entry.file.injEq] at htext
      exact htext
    exact ⟨text, result, hcontent, Loaded.rewrite?_of_onText hdetermined hresult, hstored⟩
  · intro habove hne
    exact hdirectory.file_iff_of_above h hlinks hroot hat habove hne

/-- The codemod for string literals in use. -/
def quoter : Loaded where
  transformer :=
    { grammar := (echoRunner []).grammar
      codemod := some
        { name := StringLiterals.codemodName
          manifest := ⟨"strings.toml"⟩
          codemod := StringLiterals.codemod "foo"
          plan := [[(StringLiterals.replacer "foo").ofCodemod]] } }
  own := 0

/-- The codemod of this transformer depends on the tree alone. -/
theorem treeDetermined_quoter : quoter.TreeDetermined := by
  rintro prepared ⟨⟩
  refine Prepared.treeDetermined_of_plan rfl rfl ?_
  intro visitors hvisitors visitor hvisitor
  obtain rfl := List.mem_singleton.mp hvisitors
  obtain rfl := List.mem_singleton.mp hvisitor
  exact (StringLiterals.oblivious_replacer "foo").oblivious_focus

/-- A file with a literal is mirrored with the literal replaced. -/
theorem onDirectory_mirrors_quoted :
    let run := quoter.onDirectory ⟨"proj/src"⟩ (some ⟨"out"⟩) {} (bench [])
    ∃ result, quoter.rewrite? singleQuoted = some result ∧
      run.2.2.store.get? ["out", "a.php"] = some (.file result.toUTF8) := by
  intro run
  have hresult : run.1 = .ok (Location.toPath ["out"]) := by decide +kernel
  have hout : run.2.2.store.get? ["out"] = some .directory := by decide +kernel
  have hfree : run.2.2.store.get? ["out", "a.php"] ≠ some .directory := by decide +kernel
  have hlinks : (bench []).store.NoLinks := noLinks_of_entries (by decide +kernel)
  have hinput : (bench []).store.locate ⟨"proj/src"⟩ = .ok ["proj", "src"] := by decide +kernel
  have hsource : (bench []).store.get? ["proj", "src", "a.php"] =
      some (.file singleQuoted.toUTF8) := by decide +kernel
  generalize hrun : run = outcome at hresult hout hfree ⊢
  obtain ⟨_, left, last⟩ := outcome
  obtain rfl := hresult
  obtain ⟨text, result, htext, hrewrite, hstored⟩ := (onDirectory_mirrors (by decide +kernel) hlinks
    hinput treeDetermined_quoter.textDetermined hrun hout).1 ["a.php"] singleQuoted.toUTF8 hsource
    (by decide +kernel) (by decide) hfree
  obtain rfl := String.toByteArray_inj.mp htext
  exact ⟨result, hrewrite, hstored⟩

/-- With an output above the directory of the run, a file is not mirrored, though nothing is in its
way and the run does not fail. -/
theorem onDirectory_skips_below_output :
    (bench []).store.WellFormed ∧
    (bench []).store.locate ⟨"proj/src"⟩ = .ok ["proj", "src"] ∧
    (bench []).store.get? ["proj", "src", "a.php"] = some (.file singleQuoted.toUTF8) ∧
    (quoter.onDirectory ⟨"proj/src"⟩ (some ⟨"proj"⟩) {} (bench [])).1 = .ok ⟨"/proj"⟩ ∧
    quoter.rewrite? singleQuoted = some literalReplaced ∧
    (quoter.onDirectory ⟨"proj/src"⟩ (some ⟨"proj"⟩) {} (bench [])).2.2.store.get?
      ["proj", "a.php"] = none := by
  decide +kernel

end Retouch
