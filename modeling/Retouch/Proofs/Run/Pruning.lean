import Retouch.Proofs.Run.Chain
import Retouch.Proofs.Run.Sources
import Retouch.Proofs.Run.Tracing

/-!
# The walk of a directory run is the filtered list of its files

A directory run leaves out whole directories while it walks, and it makes files and directories
in the tree that it walks through. Still the files that it transforms are those that a test of every
single file would give.

* **`WalkOrder`** says this of a list of files without a walk: the files are the eligible ones, in
  the order of their locations as lists of names. That order is depth first, with the entries of a
  directory in the order of their names, and it has no file twice.
* **`transformed_onDirectory`**: a directory run that does not fail has transformed the files of
  such a list, one after the other, each from the text that it had before the run. All results are
  below the output, and no other file has changed.

The empty path is an output, too. Every path begins with it, so no file is eligible.
-/

namespace Retouch

open FileStore Transformer

variable {σ : Type} {transformer : Transformer σ} {extensions : List String} {ignored : IgnoreSet}
  {output : Option Path} {input target : Path} {store ready : FileStore} {root base file : Location}
  {site after : Site σ} {outcome : EStateM.Result RunError (Site σ) Path}

/-! ### The files -/

/-- The files that a walk through a directory comes to if it leaves some paths out: all eligible
files, depth first, with the entries of each directory in the order of their names. -/
structure WalkOrder (extensions : List String) (leftOut : List Path) (store : FileStore)
    (root : Location) (files : List Location) : Prop where
  ordered : files.Pairwise (· < ·)
  complete : ∀ file, file ∈ files ↔ Eligible extensions leftOut store root file

section around

variable {leftOut : List Path} {earlier later : List Location}

/-- The files of a walk that come before one of them. -/
theorem WalkOrder.mem_earlier_iff {other : Location}
    (h : WalkOrder extensions leftOut store root (earlier ++ file :: later)) :
    other ∈ earlier ↔ Eligible extensions leftOut store root other ∧ other < file := by
  obtain ⟨-, hlater, hacross⟩ := List.pairwise_append.mp h.ordered
  have hafter := (List.pairwise_cons.mp hlater).1
  rw [← h.complete]
  constructor
  · intro hmem
    exact ⟨List.mem_append_left _ hmem, hacross other hmem file List.mem_cons_self⟩
  · rintro ⟨hmem, hlt⟩
    rcases List.mem_append.mp hmem with hearlier | hrest
    · exact hearlier
    · rcases List.mem_cons.mp hrest with rfl | hlast
      · exact absurd hlt (List.lt_irrefl _)
      · exact absurd hlt (List.lt_asymm (hafter other hlast))

/-- The files of a walk that come after one of them. -/
theorem WalkOrder.mem_later_iff {other : Location}
    (h : WalkOrder extensions leftOut store root (earlier ++ file :: later)) :
    other ∈ later ↔ Eligible extensions leftOut store root other ∧ file < other := by
  obtain ⟨-, hlater, hacross⟩ := List.pairwise_append.mp h.ordered
  have hafter := (List.pairwise_cons.mp hlater).1
  rw [← h.complete]
  constructor
  · intro hmem
    exact ⟨List.mem_append_right _ (List.mem_cons_of_mem _ hmem), hafter other hmem⟩
  · rintro ⟨hmem, hlt⟩
    rcases List.mem_append.mp hmem with hearlier | hrest
    · exact absurd hlt (List.lt_asymm (hacross other hearlier file List.mem_cons_self))
    · rcases List.mem_cons.mp hrest with rfl | hlast
      · exact absurd hlt (List.lt_irrefl _)
      · exact hlast

end around

/-- The itinerary of a directory run is in the order of the walk. -/
theorem OutputAt.walkOrder (h : store.WellFormed) (hroot : store.get? root = some .directory)
    (hout : OutputAt root output store base ready) :
    WalkOrder extensions (ignored.paths ++ if base.toPath = root.toPath then [] else [base.toPath])
      store root (walkedFiles extensions ignored root base ready) := by
  have hready := (hout.grows h).wellFormed h
  have hsame : base.toPath = root.toPath ↔ base = root :=
    ⟨Location.toPath_injective (hready.proper_of_get? hout.directory) (h.proper_of_get? hroot),
      congrArg _⟩
  constructor
  · exact pairwise_itinerary hready _ _ _
  · intro file
    rw [walkedFiles, mem_itinerary_iff hready (Nat.le_succ _), lists_iff_eligible h hroot hout]
    simp only [hsame]

/-- No location has the empty path. -/
theorem Location.toPath_ne_empty (location : Location) : location.toPath ≠ ⟨""⟩ :=
  fun heq => location.raw_toPath_ne_empty (congrArg Path.raw heq)

/-- Every path begins with the empty path. -/
theorem walkOrder_empty (extensions : List String) (ignored : IgnoreSet) (store : FileStore)
    (root : Location) :
    WalkOrder extensions
      (ignored.paths ++ if (⟨""⟩ : Path) = root.toPath then [] else [⟨""⟩]) store root [] := by
  constructor
  · exact .nil
  · intro file
    rw [if_neg (Location.toPath_ne_empty root).symm]
    refine ⟨fun hmem => absurd hmem List.not_mem_nil, fun hfile => ?_⟩
    have hfree := hfile.free
    rw [List.any_append, Bool.or_eq_false_iff] at hfree
    exact absurd hfree.2 (by simp [Path.beginsWith, show Path.components ⟨""⟩ = [] from rfl])

/-! ### The run -/

/-- A run that does not fail was on a directory. -/
theorem exists_of_onDirectory
    (hrun : transformer.onDirectory input output ignored site = .ok target after) :
    ∃ root, site.store.locate input = .ok root ∧ site.store.get? root = some .directory := by
  rw [onDirectory, bind_apply, RunM.files_apply] at hrun
  simp only at hrun
  cases hinput : site.store.locate input with
  | error error =>
    rw [hinput] at hrun
    cases hrun
  | ok root =>
    refine ⟨root, rfl, ?_⟩
    rw [hinput] at hrun
    by_contra hnone
    have hother : site.store.isDirectoryAt root = false := by
      rw [← Bool.not_eq_true]
      intro hdirectory
      exact hnone (by simpa [isDirectoryAt] using hdirectory)
    simp only [hother, Bool.not_false, if_true] at hrun
    cases hrun

namespace DirectoryRun

/-- Where the result of a file goes can be read off the store that the run leaves behind. -/
theorem landing_eq (h : site.store.WellFormed)
    (hroot : site.store.get? root = some .directory)
    (hlinks : OutputClear root output site.store)
    (hrun : DirectoryRun transformer ignored root output site outcome)
    (hout : OutputAt root output site.store base ready)
    (hmem : file ∈ walkedFiles transformer.extensions ignored root base ready) :
    landing (stateAfter outcome).store (mirror root base file) =
      landing ready (mirror root base file) := by
  have hready := hout.walkReady h hroot hlinks transformer.extensions ignored
  have hlists : ∀ other ∈ walkedFiles transformer.extensions ignored root base ready, _ :=
    fun _ hother => lists_of_mem_itinerary hready.wellFormed hother
  obtain ⟨begun, walked, rfl, -, hattempted, hquiet⟩ := hrun.attempted h hroot hlinks hout
  rw [hquiet.store_eq]
  exact hready.landing_eq (hattempted.underway hready hlists (.refl _ _ _)) (hlists file hmem)

/-- A run that does not fail transforms the files that its walk comes to. -/
theorem transformed_after (h : site.store.WellFormed)
    (hroot : site.store.get? root = some .directory)
    (hlinks : OutputClear root output site.store)
    (hrun : DirectoryRun transformer ignored root output site (.ok target after))
    (hout : OutputAt root output site.store base ready) :
    Transformed transformer (fun file => landing after.store (mirror root base file)) site.store
      after.store (walkedFiles transformer.extensions ignored root base ready) site.live
      after.live := by
  refine (hrun.transformed h hroot hlinks hout).transport ?_ (fun _ _ _ hbefore => hbefore)
    fun _ _ _ hafter => hafter
  exact fun file hmem => (hrun.landing_eq h hroot hlinks hout hmem).symm

/-- A run writes only where the results of the files go that its walk comes to. -/
theorem grows_after (h : site.store.WellFormed)
    (hroot : site.store.get? root = some .directory)
    (hlinks : OutputClear root output site.store)
    (hrun : DirectoryRun transformer ignored root output site outcome)
    (hout : OutputAt root output site.store base ready) :
    site.store.Grows
      (· ∈ (walkedFiles transformer.extensions ignored root base ready).map fun file =>
        landing (stateAfter outcome).store (mirror root base file))
      (fun _ => output.isSome) (stateAfter outcome).store := by
  refine (hrun.grows h hroot hlinks).mono ?_ fun _ hmade => hmade
  rintro location ⟨other, begun, hother, file, hlisted, rfl⟩
  obtain ⟨rfl, rfl⟩ := hout.eq h hother
  have hmem : file ∈ walkedFiles transformer.extensions ignored root base ready :=
    (mem_itinerary_iff ((hout.grows h).wellFormed h) (Nat.le_succ _)).mpr hlisted
  rw [← hrun.landing_eq h hroot hlinks hout hmem]
  exact List.mem_map_of_mem hmem

/-- A run that does not fail has found its output. -/
theorem outputRoot_eq
    (hrun : DirectoryRun transformer ignored root output site (.ok target after)) :
    ∃ ready, outputRoot root output site.store = .ok target ready := by
  cases hrun with
  | finished htarget => exact ⟨_, htarget⟩

/-- With the empty path as the output, nothing happens. -/
theorem quiet_of_empty
    (hrun : DirectoryRun transformer ignored root output site (.ok ⟨""⟩ after)) :
    site.live.Quiet after.live := by
  cases hrun with
  | @finished _ begun walked _ count htarget hwalk hquiet hlive =>
    obtain ⟨left, hleft, hempty⟩ := walkFrom_empty transformer ignored root begun
    obtain ⟨-, rfl⟩ := EStateM.Result.ok.inj (hwalk.symm.trans hempty)
    exact (hlive.trans hleft.live).trans hquiet.live

/-- With the empty path as the output, no file is written. -/
theorem grows_of_empty (h : site.store.WellFormed)
    (hroot : site.store.get? root = some .directory)
    (hlinks : OutputClear root output site.store)
    (hrun : DirectoryRun transformer ignored root output site (.ok ⟨""⟩ after)) :
    site.store.Grows (fun _ => False) (fun _ => output.isSome) after.store := by
  refine (hrun.grows h hroot hlinks).mono ?_ fun _ hmade => hmade
  rintro location ⟨base, begun, hout, -⟩
  obtain ⟨ready, hfound⟩ := hrun.outputRoot_eq
  obtain ⟨heq, -⟩ := EStateM.Result.ok.inj (hfound.symm.trans hout.found)
  exact absurd heq.symm (Location.toPath_ne_empty base)

end DirectoryRun

/-- A directory run that does not fail transforms the eligible files, each of them once, depth first
and in the order of the names, from the texts that they had before the run. The results are below
the output, which itself is left out if it is not the directory of the run, and no other file
changes. -/
theorem transformed_onDirectory (h : site.store.WellFormed) (hlinks : site.store.NoLinks)
    (hrun : transformer.onDirectory input output ignored site = .ok target after) :
    ∃ root out files place,
      site.store.locate input = .ok root ∧
      (∃ ready, outputDirectory root.toPath output site.world = .ok target ready) ∧
      (target.raw ≠ "" → target = out.toPath ∧ after.store.get? out = some .directory) ∧
      WalkOrder transformer.extensions
        (ignored.paths ++ if target = root.toPath then [] else [target]) site.store root files ∧
      place = (fun file => landing after.store (mirror root out file)) ∧
      (∀ file ∈ files, out <+: place file ∧ place file ≠ out) ∧
      Transformed transformer place site.store after.store files site.live after.live ∧
      site.store.Grows (· ∈ files.map place) (fun _ => output.isSome) after.store ∧
      (transformer.KeepsTrace → after.journal.traced = site.journal.traced ++
        files.map fun file => (file.toPath, (place file).toPath)) := by
  obtain ⟨root, hinput, hroot⟩ := exists_of_onDirectory hrun
  have hclear := hlinks.outputClear root output
  have hdirectory := directoryRun_onDirectory transformer ignored output h hinput hroot
  rw [hrun] at hdirectory
  obtain ⟨ready, hfound⟩ := hdirectory.outputRoot_eq
  obtain ⟨messages, hresolved⟩ := outputDirectory_eq h hroot output site.journal
  rw [hfound] at hresolved
  rcases outputRoot_cases h hroot hfound with rfl | ⟨out, rfl, hdir⟩
  · have htransformed : Transformed transformer
        (fun file => landing after.store (mirror root root file)) site.store after.store []
        site.live after.live := .done hdirectory.quiet_of_empty
    refine ⟨root, root, [], _, hinput, ⟨_, hresolved⟩, fun hne => absurd rfl hne,
      walkOrder_empty _ _ _ _, rfl, fun _ hmem => absurd hmem List.not_mem_nil, htransformed,
      ?_, fun hkeeps => htransformed.traced_eq hkeeps⟩
    exact (hdirectory.grows_of_empty h hroot hclear).mono (fun _ hnone => hnone.elim)
      fun _ hmade => hmade
  · have hout : OutputAt root output site.store out ready := ⟨hfound, hdir⟩
    have htransformed := hdirectory.transformed_after h hroot hclear hout
    have hwritten := hdirectory.grows_after h hroot hclear hout
    simp only [stateAfter] at hwritten
    refine ⟨root, out, _, _, hinput, ⟨_, hresolved⟩, fun _ => ⟨rfl, ?_⟩, hout.walkOrder h hroot,
      rfl, ?_, htransformed, hwritten, fun hkeeps => htransformed.traced_eq hkeeps⟩
    · exact (hdirectory.grows_ready h hroot hclear hout).2.directory hdir
    · intro file hmem
      have hplace := hdirectory.landing_eq h hroot hclear hout hmem
      rw [stateAfter] at hplace
      rw [hplace]
      exact WalkReady.base_prefix_landing out
        (lists_of_mem_itinerary ((hout.grows h).wellFormed h) hmem)

/-- A directory with an ignored directory, one whose name only begins like that, and an output. -/
def vendored : World :=
  bench
    [(["proj", "src", "out"], .directory),
     (["proj", "src", "out", "d.php"], .file singleQuoted.toUTF8),
     (["proj", "src", "vendor"], .directory),
     (["proj", "src", "vendor", "c.php"], .file singleQuoted.toUTF8),
     (["proj", "src", "vendor2"], .directory),
     (["proj", "src", "vendor2", "b.PHP"], .file singleQuoted.toUTF8)]

/-- A transformer without a codemod. -/
def copier : Transformer Unit where
  grammar := (echoRunner []).grammar

/-- An ignored directory next to one whose name begins the same, with the output inside. -/
theorem transformed_onDirectory_vendored :
    let site : Site Unit := ⟨(), .empty, {}, vendored.store⟩
    let run := copier.onDirectory ⟨"proj/src"⟩ (some ⟨"proj/src/out"⟩) ⟨[⟨"/proj/src/vendor"⟩]⟩ site
    ∃ files place,
      Transformed copier place site.store (stateAfter run).store files site.live
        (stateAfter run).live ∧
      ((stateAfter run).journal.traced =
        files.map fun file => (file.toPath, (place file).toPath)) ∧
      ["proj", "src", "vendor2", "b.PHP"] ∈ files ∧ ["proj", "src", "vendor", "c.php"] ∉ files ∧
      ["proj", "src", "out", "d.php"] ∉ files := by
  intro site run
  have hvalue : valueOf? run = some ⟨"/proj/src/out"⟩ := by decide +kernel
  have hinput : site.store.locate ⟨"proj/src"⟩ = .ok ["proj", "src"] := by decide +kernel
  have hlinks : site.store.NoLinks := noLinks_of_entries (by decide +kernel)
  have hrun := eq_ok_of_valueOf? hvalue
  obtain ⟨root, out, files, place, hroot, -, -, horder, -, -, htransformed, -, htraced⟩ :=
    transformed_onDirectory (by decide +kernel) hlinks hrun
  obtain rfl : ["proj", "src"] = root := Except.ok.inj (hinput.symm.trans hroot)
  refine ⟨files, place, htransformed, htraced (Transformer.keepsTrace_of_no_codemod rfl),
    (horder.complete _).mpr ?_, ?_, ?_⟩
  · exact ⟨by decide, ⟨_, rfl⟩, by decide +kernel, by decide +kernel⟩
  · intro hmem
    exact absurd ((horder.complete _).mp hmem).free (by decide +kernel)
  · intro hmem
    exact absurd ((horder.complete _).mp hmem).free (by decide +kernel)

end Retouch
