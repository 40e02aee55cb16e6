import Mathlib.Data.List.Forall2
import Retouch.Proofs.Codemod.Determined
import Retouch.Proofs.Run.Stage

/-!
# Chains of codemods

What a schedule makes of a directory is what its codemods make of the text of each file, one after
the other (`Loaded.chain?`). This holds for codemods that depend on the tree alone, when the run
does not fail.

* `Composes` says what a run comes to: which files it takes up, where each result goes, which
  codemods have a part in it, and that no other file changes. Two runs, the second in place on what
  the first wrote, come to one (`Composes.andThen`).
* The codemods that have a part in a run are those that its manifests give, each of them loaded when
  its turn comes (`forall₂_codemodsOf`).
* One stage takes up the files of its walk (`composes_stage`), and these are the ones that have an
  extension and are not ignored (`lists_iff_eligible`).
* In place, every file goes through all codemods (`composes_executeAll`).
-/

namespace Retouch

open FileStore

/-! ### Chains of codemods -/

namespace Loaded

variable {loaded : Loaded} {codemods more : List Loaded} {text result : String}

/-- What a codemod makes of a text. -/
def rewrite? (loaded : Loaded) (text : String) : Option String :=
  (loaded.onText text none {}).1.toOption

/-- What codemods make of a text, one after the other. -/
def chain? (codemods : List Loaded) (text : String) : Option String :=
  codemods.foldlM (fun text loaded => loaded.rewrite? text) text

/-- A chain of one codemod is that codemod. -/
theorem chain?_singleton (loaded : Loaded) (text : String) :
    chain? [loaded] text = loaded.rewrite? text := by
  simp [chain?]

/-- A longer chain goes on with what the shorter one made of the text. -/
theorem chain?_append (codemods more : List Loaded) (text : String) :
    chain? (codemods ++ more) text = (chain? codemods text).bind (chain? more) :=
  List.foldlM_append

/-- What the codemod makes of a text, and whether it fails, depends on the text alone. -/
def TextDetermined (loaded : Loaded) : Prop :=
  ∀ text context context' live live',
    valueOf? (loaded.transformer.onText text context live) =
      valueOf? (loaded.transformer.onText text context' live')

/-- What depends on the tree alone depends on the text alone, since the text gives the tree. -/
theorem TreeDetermined.textDetermined (h : loaded.TreeDetermined) : loaded.TextDetermined := by
  intro text context context' live live'
  rw [Transformer.onText, Transformer.onText]
  cases loaded.transformer.grammar.parse text with
  | error fault => rfl
  | ok parsed =>
    cases hcodemod : loaded.transformer.codemod with
    | none => rfl
    | some codemod =>
      have hsame := h codemod hcodemod parsed.tree (context.getD .empty) (context'.getD .empty)
        ⟨live.own, live.journal⟩ ⟨live'.own, live'.journal⟩
      simp only [bind_apply, Transformer.transformTree]
      cases hfirst : codemod.transform (context.getD .empty) parsed.tree
          ⟨live.own, live.journal⟩ with
      | ok tree hooks =>
        rw [hfirst] at hsame
        rw [eq_ok_of_valueOf? hsame.symm]
        rfl
      | error failure hooks =>
        rw [hfirst] at hsame
        cases hsecond : codemod.transform (context'.getD .empty) parsed.tree
            ⟨live'.own, live'.journal⟩ with
        | ok tree hooks' =>
          rw [hsecond] at hsame
          cases hsame
        | error failure' hooks' => rfl

/-- A codemod that depends on the text alone makes the same of it in every context. -/
theorem rewrite?_of_onText (h : loaded.TextDetermined) {context : Option Context}
    {live left : Live loaded.State}
    (hresult : loaded.transformer.onText text context live = .ok result left) :
    loaded.rewrite? text = some result := by
  have hvalue := h text none context
    ⟨loaded.own, loaded.context, {}⟩ live
  rw [hresult] at hvalue
  rw [rewrite?, onText, runWith, RunM.onText_apply, Site.live, eq_ok_of_valueOf? hvalue]
  rfl

end Loaded

/-! ### Runs -/

/-- What a run comes to. It takes up the eligible files, and the result for a file goes to its
place, made by the codemods for that place from the text of the file. No other file changes, appears
or goes. -/
structure Composes (eligible : Location → Prop) (place : Location → Location)
    (codemods : Location → List Loaded) (before after : FileStore) : Prop where
  rewritten : ∀ file, eligible file → ∃ text final,
    before.get? file = some (.file text.toUTF8) ∧
    Loaded.chain? (codemods (place file)) text = some final ∧
    after.get? (place file) = some (.file final.toUTF8)
  others : ∀ location, (∀ file, eligible file → place file ≠ location) → ∀ content,
    after.get? location = some (.file content) ↔ before.get? location = some (.file content)

/-- A run and another one, in place on what the first wrote. -/
theorem Composes.andThen {eligible later : Location → Prop} {place : Location → Location}
    {first next both : Location → List Loaded} {before between after : FileStore}
    (hfirst : Composes eligible place first before between)
    (hnext : Composes later id next between after)
    (hlater : ∀ location, later location → ∃ file, eligible file ∧ place file = location)
    (hboth : ∀ location, later location → both location = first location ++ next location)
    (honly : ∀ file, eligible file → ¬ later (place file) →
      both (place file) = first (place file)) :
    Composes eligible place both before after := by
  constructor
  · intro file hfile
    obtain ⟨text, middle, htext, hmiddle, hthere⟩ := hfirst.rewritten file hfile
    by_cases htaken : later (place file)
    · obtain ⟨text', final, htext', hfinal, hafter⟩ := hnext.rewritten _ htaken
      obtain rfl : text' = middle := by
        rw [hthere, Option.some.injEq, Entry.file.injEq] at htext'
        exact String.toByteArray_inj.mp htext'.symm
      refine ⟨text, final, htext, ?_, hafter⟩
      rw [hboth _ htaken, Loaded.chain?_append, hmiddle]
      exact hfinal
    · refine ⟨text, middle, htext, ?_, ?_⟩
      · rw [honly file hfile htaken]
        exact hmiddle
      · refine (hnext.others _ ?_ _).mpr hthere
        rintro other hother rfl
        exact htaken hother
  · intro location hnone content
    rw [← hfirst.others location hnone content]
    refine hnext.others location ?_ content
    rintro other hother rfl
    obtain ⟨file, hfile, hplace⟩ := hlater _ hother
    exact hnone file hfile hplace

/-- Other words for the files and for the places say the same about a run. -/
theorem Composes.congr {eligible eligible' : Location → Prop} {place place' : Location → Location}
    {codemods : Location → List Loaded} {before after : FileStore}
    (h : Composes eligible place codemods before after)
    (heligible : ∀ file, eligible' file ↔ eligible file)
    (hplace : ∀ file, eligible file → place file = place' file) :
    Composes eligible' place' codemods before after := by
  constructor
  · intro file hfile
    rw [heligible] at hfile
    rw [← hplace file hfile]
    exact h.rewritten file hfile
  · intro location hnone
    refine h.others location fun file hfile => ?_
    rw [hplace file hfile]
    exact hnone file ((heligible file).mpr hfile)

/-- A file below a directory that a run takes up: it has one of the extensions, and none of some
paths is above it. -/
structure Eligible (extensions : List String) (leftOut : List Path) (store : FileStore)
    (root file : Location) : Prop where
  below : root <+: file
  isFile : ∃ content, store.get? file = some (.file content)
  extension : file.toPath.hasExtension extensions = true
  free : leftOut.any file.toPath.beginsWith = false

section eligible

variable {extensions : List String} {leftOut : List Path} {store : FileStore}
  {root base file : Location}

/-- Only the files count. -/
theorem Eligible.of_get? {other : FileStore} (h : Eligible extensions leftOut store root file)
    (hfile : ∃ content, other.get? file = some (.file content)) :
    Eligible extensions leftOut other root file :=
  { h with isFile := hfile }

/-- It only counts whether some path that is left out is above the file. -/
theorem eligible_congr {leftOut' : List Path}
    (h : leftOut.any file.toPath.beginsWith = leftOut'.any file.toPath.beginsWith) :
    Eligible extensions leftOut store root file ↔ Eligible extensions leftOut' store root file :=
  ⟨fun hfile => { hfile with free := h ▸ hfile.free },
    fun hfile => { hfile with free := h ▸ hfile.free }⟩

/-- An eligible file is strictly below the directory, which is no file itself. -/
theorem Eligible.exists_append (hroot : store.get? root = some .directory)
    (h : Eligible extensions leftOut store root file) :
    ∃ rest, rest ≠ [] ∧ file = root ++ rest := by
  obtain ⟨rest, rfl⟩ := h.below
  refine ⟨rest, ?_, rfl⟩
  rintro rfl
  obtain ⟨content, hcontent⟩ := h.isFile
  rw [List.append_nil, hroot] at hcontent
  cases hcontent

/-- The files that a directory run takes up are the eligible ones. An output elsewhere is left out.
-/
theorem lists_iff_eligible {ignored : IgnoreSet} {output : Option Path} {ready : FileStore}
    (h : store.WellFormed) (hroot : store.get? root = some .directory)
    (hout : OutputAt root output store base ready) :
    WalkPlan.Lists (directoryPlan extensions ignored root base.toPath ready) ready root file ↔
      Eligible extensions (ignored.paths ++ if base = root then [] else [base.toPath]) store root
        file := by
  have hgrows := hout.grows h
  have hready := hgrows.wellFormed h
  -- preparing the output makes directories, which are no files
  have hsame : (∃ content, ready.get? file = some (.file content)) ↔
      ∃ content, store.get? file = some (.file content) :=
    exists_congr fun content => hgrows.file_iff id
  have hfree : ∀ content, ready.get? file = some (.file content) →
      ((ignored.paths ++ if base = root then [] else [base.toPath]).any file.toPath.beginsWith =
        false ↔ ignored.covers file = false ∧ ¬ (base ≠ root ∧ base <+: file)) := by
    intro content hcontent
    have hbegins := Location.beginsWith_toPath_iff (hready.proper_of_get? hcontent)
      (hready.proper_of_get? hout.directory)
    rw [List.any_append, Bool.or_eq_false_iff]
    refine and_congr Iff.rfl ?_
    by_cases heq : base = root
    · simp [heq]
    · simp [heq, ← hbegins]
  rw [lists_directoryPlan_iff hready (hgrows.directory hroot) hout.directory]
  constructor
  · rintro ⟨rest, hrest, rfl, ⟨content, hcontent⟩, hextension, hcovers⟩
    exact ⟨List.prefix_append _ _, hsame.mp ⟨content, hcontent⟩, hextension,
      (hfree content hcontent).mpr hcovers⟩
  · intro heligible
    obtain ⟨rest, hrest, rfl⟩ := heligible.exists_append hroot
    obtain ⟨content, hcontent⟩ := hsame.mpr heligible.isFile
    exact ⟨rest, hrest, rfl, ⟨content, hcontent⟩, heligible.extension,
      (hfree content hcontent).mp heligible.free⟩

end eligible

/-! ### Stages -/

namespace Runner

variable {runner : Runner} {ignored : IgnoreSet} {target result : Path} {output : Option Path}
  {world after : World}

/-- The codemods that are run for some manifests, up to the first failure. -/
def codemodsOf (runner : Runner) (ignored : IgnoreSet) :
    List Path → Path → Option Path → World → List Loaded
  | [], _, _, _ => []
  | manifest :: rest, target, output, world =>
    match runner.stage ignored manifest target output world with
    | (.error _, _) => []
    | (.ok (loaded, next), after) => loaded :: codemodsOf runner ignored rest next none after

/-- Without manifests there are no codemods. -/
theorem codemodsOf_nil (runner : Runner) (ignored : IgnoreSet) (target : Path)
    (output : Option Path) (world : World) :
    runner.codemodsOf ignored [] target output world = [] := by
  rfl

/-- The first codemod is that of the first stage, and the others are those that go on from there. -/
theorem codemodsOf_cons (runner : Runner) (ignored : IgnoreSet) (manifest target : Path)
    (rest : List Path) (output : Option Path) (world : World) :
    runner.codemodsOf ignored (manifest :: rest) target output world =
      match runner.stage ignored manifest target output world with
      | (.error _, _) => []
      | (.ok (loaded, next), after) =>
        loaded :: runner.codemodsOf ignored rest next none after := by
  rfl

/-- When manifests are run without a failure, the first one is, and then the others are in place. -/
theorem executeAll_cons_eq_ok {manifest : Path} {rest : List Path}
    (h : runner.executeAll ignored (manifest :: rest) target output world = (.ok result, after)) :
    ∃ loaded next between,
      runner.stage ignored manifest target output world = (.ok (loaded, next), between) ∧
      runner.executeAll ignored rest next none between = (.ok result, after) ∧
      runner.codemodsOf ignored (manifest :: rest) target output world =
        loaded :: runner.codemodsOf ignored rest next none between := by
  rw [executeAll_cons] at h
  rw [codemodsOf_cons]
  cases hstage : runner.stage ignored manifest target output world with
  | mk produced between =>
    rw [hstage] at h
    cases produced with
    | error error => cases h
    | ok produced => exact ⟨produced.1, produced.2, between, rfl, h, rfl⟩

/-- Among manifests that are run on a target, the codemod is the one that is loaded from the
manifest in the world that the manifests before it leave behind. -/
def LoadedInTurn (runner : Runner) (ignored : IgnoreSet) (manifests : List Path) (target : Path)
    (output : Option Path) (world : World) (manifest : Path) (loaded : Loaded) : Prop :=
  ∃ before rest next between ready, manifests = before ++ manifest :: rest ∧
    runner.executeAll ignored before target output world = (.ok next, between) ∧
    runner.loadCodemod manifest between = (.ok loaded, ready)

/-- Without a failure, the codemods that are run are those that are loaded from the manifests, one
for one and in order. -/
theorem forall₂_codemodsOf {manifests : List Path}
    (h : runner.executeAll ignored manifests target output world = (.ok result, after)) :
    List.Forall₂ (runner.LoadedInTurn ignored manifests target output world) manifests
      (runner.codemodsOf ignored manifests target output world) := by
  induction manifests generalizing target output world with
  | nil => exact .nil
  | cons manifest rest ih =>
    obtain ⟨loaded, next, between, hstage, hrest, hcodemods⟩ := executeAll_cons_eq_ok h
    obtain ⟨ready, _, _, _, hload, -, -⟩ := stage_eq_ok hstage
    rw [hcodemods]
    refine .cons ⟨[], rest, target, world, ready, rfl, rfl, hload⟩ ((ih hrest).imp ?_)
    -- what comes before a later manifest begins with the first one
    rintro other given ⟨before, later, last, middle, now, rfl, hbefore, hgiven⟩
    refine ⟨manifest :: before, later, last, middle, now, rfl, ?_, hgiven⟩
    rw [executeAll_cons, hstage]
    exact hbefore

/-- What holds of all codemods that can be loaded holds of those that are run. -/
theorem forall_mem_codemodsOf {holds : Loaded → Prop}
    (h : ∀ manifest world loaded after,
      runner.loadCodemod manifest world = (.ok loaded, after) → holds loaded)
    (ignored : IgnoreSet) (manifests : List Path) (target : Path) (output : Option Path)
    (world : World) :
    ∀ loaded ∈ runner.codemodsOf ignored manifests target output world, holds loaded := by
  induction manifests generalizing target output world with
  | nil =>
    intro loaded hloaded
    cases hloaded
  | cons manifest rest ih =>
    rw [codemodsOf_cons]
    split
    · simp
    · rename_i loaded next after hstage
      refine List.forall_mem_cons.mpr ⟨?_, ih next none after⟩
      obtain ⟨_, _, _, _, hload, -, -⟩ := stage_eq_ok hstage
      exact h _ _ _ _ hload

end Runner

/-- A stage takes up the files that its walk lists, and each result goes where it lands. -/
theorem composes_stage {runner : Runner} {ignored : IgnoreSet} {manifest target next : Path}
    {output : Option Path} {world after : World} {root base : Location} {ready : FileStore}
    {loaded : Loaded} (h : world.store.WellFormed)
    (hroot : world.store.get? root = some .directory) (htarget : Targets world.store target root)
    (hlinks : OutputClear root output world.store)
    (hout : OutputAt root output world.store base ready)
    (hdetermined : loaded.TreeDetermined)
    (hresult : runner.stage ignored manifest target output world = (.ok (loaded, next), after)) :
    Composes
      (WalkPlan.Lists (directoryPlan runner.grammar.extensions ignored root base.toPath ready) ready
        root)
      (fun file => landing ready (mirror root base file)) (fun _ => [loaded])
      world.store after.store := by
  have hstage := stageRun_stage runner ignored manifest output h hroot htarget
  have hgrows := hstage.grows h hroot hlinks
  rw [hresult] at hstage hgrows
  constructor
  · intro file hfile
    cases hstage with
    | passed hextensions hsite hrun =>
      have hready := (hout.grows h).wellFormed h
      rw [← hsite] at h hroot hlinks hout
      rw [← hextensions] at hfile
      have hmem := (mem_itinerary_iff hready (Nat.le_succ _)).mpr hfile
      obtain ⟨text, final, live, left, htext, hfinal, hafter⟩ :=
        (hrun.transformed h hroot hlinks hout).of_mem hmem
      rw [hsite] at htext
      refine ⟨text, final, htext, ?_, hafter⟩
      rw [Loaded.chain?_singleton]
      exact Loaded.rewrite?_of_onText hdetermined.textDetermined hfinal
  · intro location hnone content
    refine hgrows.file_iff ?_
    rintro ⟨other, now, hother, file, hfile, hlands⟩
    obtain ⟨rfl, rfl⟩ := hother.eq h hout
    exact hnone file hfile hlands.symm

/-! ### In place -/

section inPlace

variable {runner : Runner} {ignored : IgnoreSet} {manifest target result : Path} {rest : List Path}
  {world after : World} {root : Location}

/-- In place, a stage takes up the eligible files, and each result takes the place of its file. -/
theorem composes_stage_inPlace {loaded : Loaded} {next : Path} (h : world.store.WellFormed)
    (hroot : world.store.get? root = some .directory) (htarget : Targets world.store target root)
    (hdetermined : loaded.TreeDetermined)
    (hresult : runner.stage ignored manifest target none world = (.ok (loaded, next), after)) :
    Composes (Eligible runner.grammar.extensions ignored.paths world.store root) id
      (fun _ => [loaded]) world.store after.store := by
  have hlinks := outputClear_none h hroot
  have hout := outputAt_none hroot
  refine (composes_stage h hroot htarget hlinks hout hdetermined hresult).congr ?_ ?_
  · intro file
    rw [lists_iff_eligible h hroot hout, if_pos rfl, List.append_nil]
  · intro file hfile
    exact (hout.walkReady h hroot hlinks _ _).landing_of_eq hfile

/-- In place, every file goes through all codemods. -/
theorem composes_executeAll (h : world.store.WellFormed)
    (hroot : world.store.get? root = some .directory) (htarget : Targets world.store target root)
    (hdetermined : ∀ loaded ∈ runner.codemodsOf ignored (manifest :: rest) target none world,
      loaded.TreeDetermined)
    (hrun : runner.executeAll ignored (manifest :: rest) target none world = (.ok result, after)) :
    Composes (Eligible runner.grammar.extensions ignored.paths world.store root) id
      (fun _ => runner.codemodsOf ignored (manifest :: rest) target none world)
      world.store after.store := by
  induction rest generalizing manifest world with
  | nil =>
    obtain ⟨loaded, next, between, hstage, hrest, hcodemods⟩ := Runner.executeAll_cons_eq_ok hrun
    rw [hcodemods] at hdetermined ⊢
    cases hrest
    exact composes_stage_inPlace h hroot htarget (hdetermined loaded List.mem_cons_self) hstage
  | cons manifest' rest ih =>
    obtain ⟨loaded, next, between, hstage, hrest, hcodemods⟩ := Runner.executeAll_cons_eq_ok hrun
    rw [hcodemods] at hdetermined ⊢
    have hfirst := composes_stage_inPlace h hroot htarget (hdetermined loaded List.mem_cons_self)
      hstage
    obtain rfl := Runner.eq_target_of_stage hstage
    have hgrows := grows_stage_inPlace runner ignored manifest h hroot htarget
    rw [hstage] at hgrows
    have hlater := ih (hgrows.wellFormed h) (hgrows.directory hroot) (htarget.of_grows hgrows)
      (fun other hother => hdetermined other (List.mem_cons_of_mem _ hother)) hrest
    -- the first codemod leaves the same files to the others as it took up itself
    refine hfirst.andThen hlater (fun file hfile => ⟨file, ?_, rfl⟩) (fun _ _ => rfl) ?_
    · by_contra hnot
      obtain ⟨content, hcontent⟩ := hfile.isFile
      refine hnot (hfile.of_get? ⟨content, (hfirst.others file ?_ content).mp hcontent⟩)
      rintro other hother rfl
      exact hnot hother
    · intro file hfile hnot
      obtain ⟨_, final, -, -, hfinal⟩ := hfirst.rewritten file hfile
      exact absurd (hfile.of_get? ⟨_, hfinal⟩) hnot

end inPlace

end Retouch
