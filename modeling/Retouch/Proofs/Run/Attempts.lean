import Retouch.Proofs.Run.FileRun
import Retouch.Proofs.Run.Itinerary

/-!
# Attempts on files, one after the other

`Attempted` says that the files of a list were transformed one after the other, up to the first one
that failed. This file is about such a list when the files are those that a walk through the
directory `root` takes up and the results go to the directory `base`, which may be `root` itself.

* Where the result of a file goes is fixed from the start (`WalkReady.landing_eq`), because
  directories are made only where the input has one, and the input has a file there.
* No other file changes, and no other directory is made (`Attempted.underway`).
* Two files have their results in different places (`WalkReady.eq_of_landing`), and no file is where
  the result of another one goes (`WalkReady.ne_landing`).
-/

namespace Retouch

open FileStore Transformer

variable {σ : Type}

/-! ### Attempts -/

/-- Nothing happened but that diagnostics were reported. -/
def Site.Quiet (site after : Site σ) : Prop :=
  ∃ records : List Record,
    after = { site with journal := site.journal.append (records.map .diagnostic) }

namespace Site.Quiet

variable {a b c : Site σ}

/-- To report nothing is to be quiet. -/
theorem refl (site : Site σ) : site.Quiet site :=
  ⟨[], by simp [Journal.append]⟩

/-- Diagnostics after diagnostics are diagnostics. -/
theorem trans (hab : a.Quiet b) (hbc : b.Quiet c) : a.Quiet c := by
  obtain ⟨first, rfl⟩ := hab
  obtain ⟨second, rfl⟩ := hbc
  exact ⟨first ++ second, by simp [Journal.append]⟩

/-- Diagnostics touch no file. -/
theorem store_eq (h : a.Quiet b) : b.store = a.store := by
  obtain ⟨records, rfl⟩ := h
  rfl

end Site.Quiet

/-- The files of a list were transformed one after the other, up to the first one that failed. The
result of each goes to its place. -/
inductive Attempted (transformer : Transformer σ) (place : Location → Location) :
    List Location → (site : Site σ) → (failure : Option RunError) → (after : Site σ) → Prop
  | done {site after : Site σ} (hquiet : site.Quiet after) :
      Attempted transformer place [] site none after
  | next {file : Location} {rest : List Location} {site ready left after : Site σ} {target : Path}
      {failure : Option RunError} (hquiet : site.Quiet ready)
      (hfile : transformer.onFile file.toPath (some (place file).toPath) ready = .ok target left)
      (hrest : Attempted transformer place rest left failure after) :
      Attempted transformer place (file :: rest) site failure after
  | stop {file : Location} {rest : List Location} {site ready after : Site σ} {error : RunError}
      (hquiet : site.Quiet ready)
      (hfile : transformer.onFile file.toPath (some (place file).toPath) ready =
        .error error after) :
      Attempted transformer place (file :: rest) site (some error) after

namespace Attempted

variable {transformer : Transformer σ} {place : Location → Location} {files others : List Location}
  {site before middle after : Site σ} {failure : Option RunError} {error : RunError}

/-- Diagnostics may come before the first attempt. -/
theorem of_quiet (hquiet : before.Quiet site)
    (h : Attempted transformer place files site failure after) :
    Attempted transformer place files before failure after := by
  cases h with
  | done hdone => exact .done (hquiet.trans hdone)
  | next hready hfile hrest => exact .next (hquiet.trans hready) hfile hrest
  | stop hready hfile => exact .stop (hquiet.trans hready) hfile

/-- Attempts without a failure go on with more attempts. -/
theorem append (h : Attempted transformer place files site none middle)
    (hmore : Attempted transformer place others middle failure after) :
    Attempted transformer place (files ++ others) site failure after := by
  generalize hnone : none = first at h
  induction h with
  | done hquiet => exact hmore.of_quiet hquiet
  | next hquiet hfile _ ih => exact .next hquiet hfile (ih hmore hnone)
  | stop => cases hnone

/-- After a failure, further files are not attempted. -/
theorem append_of_stopped (h : Attempted transformer place files site (some error) after)
    (others : List Location) :
    Attempted transformer place (files ++ others) site (some error) after := by
  generalize hsome : some error = first at h
  induction h with
  | done => cases hsome
  | next hquiet hfile _ ih => exact .next hquiet hfile (ih hsome)
  | stop hquiet hfile => exact .stop hquiet hfile

end Attempted

/-! ### What a walk may touch -/

/-- The location below `base` that a location below `root` corresponds to. -/
def mirror (root base file : Location) : Location :=
  base ++ file.drop root.length

/-- A location below the one directory corresponds to the same names below the other. -/
theorem mirror_append (root base rest : Location) :
    mirror root base (root ++ rest) = base ++ rest := by
  rw [mirror, List.drop_left]

/-- A walk through the directory `root` can start whose results go to the directory `base`. If these
are not the same, `base` is ignored, and there are no links in it. -/
structure WalkReady (plan : WalkPlan) (start : FileStore) (root base : Location) : Prop where
  wellFormed : start.WellFormed
  rootThere : start.get? root = some .directory
  baseThere : start.get? base = some .directory
  output : plan.output = base.toPath
  ignored : base ≠ root → plan.ignored.covers base = true
  noLinks : base ≠ root → ∀ location target, base <+: location →
    start.get? location ≠ some (.link target)

/-- Where the results of a walk go. -/
def WalkPlan.Lands (plan : WalkPlan) (start : FileStore) (root base location : Location) : Prop :=
  ∃ file, WalkPlan.Lists plan start root file ∧ location = landing start (mirror root base file)

/-- Where a walk makes directories: at locations that correspond to directories. -/
def MirrorsDirectory (start : FileStore) (root base location : Location) : Prop :=
  base ≠ root ∧ ∃ rest, rest ≠ [] ∧ location = base ++ rest ∧
    start.get? (root ++ rest) = some .directory

/-- A store in the course of a walk. -/
def Underway (plan : WalkPlan) (start : FileStore) (root base : Location) (now : FileStore) :
    Prop :=
  start.Grows (WalkPlan.Lands plan start root base) (MirrorsDirectory start root base) now

namespace WalkReady

variable {plan : WalkPlan} {start now : FileStore} {root base file directory rest : Location}
  {transformer : Transformer σ} {site after : Site σ} {files : List Location}
  {failure : Option RunError}

/-- Below an output that is not the directory of the walk, there is no link on any way. -/
theorem clear_of_base (h : WalkReady plan start root base) (hne : base ≠ root) {location : Location}
    (hbelow : base <+: location) : start.Clear location := by
  intro place hplace target
  rcases List.prefix_or_prefix_of_prefix hplace hbelow with habove | hinside
  · exact clear_of_get? h.wellFormed h.baseThere (by simp [Entry.kind]) place habove target
  · exact h.noLinks hne place target hinside

/-- In place, the result of a file goes to the file. -/
theorem landing_of_eq (h : WalkReady plan start root root)
    (hfile : WalkPlan.Lists plan start root file) :
    landing start (mirror root root file) = file := by
  obtain ⟨rest, -, rfl, htakes⟩ := hfile
  obtain ⟨content, hcontent⟩ := htakes.isFile
  rw [mirror_append]
  refine landing_of_not_directory h.wellFormed (h.wellFormed.proper_of_get? hcontent)
    (clear_of_get? h.wellFormed hcontent (by simp [Entry.kind])) ?_
  rw [hcontent]
  simp

/-- No link is on the way to where a file corresponds to. -/
theorem clear_mirror (h : WalkReady plan start root base)
    (hfile : WalkPlan.Lists plan start root file) : start.Clear (mirror root base file) := by
  obtain ⟨rest, -, rfl, htakes⟩ := hfile
  obtain ⟨content, hcontent⟩ := htakes.isFile
  rw [mirror_append]
  by_cases hne : base = root
  · subst hne
    exact clear_of_get? h.wellFormed hcontent (by simp [Entry.kind])
  · exact h.clear_of_base hne (List.prefix_append _ _)

/-- The names that a file corresponds to are names as a file system has them. -/
theorem proper_mirror (h : WalkReady plan start root base)
    (hfile : WalkPlan.Lists plan start root file) : (mirror root base file).Proper := by
  obtain ⟨rest, -, rfl, htakes⟩ := hfile
  obtain ⟨content, hcontent⟩ := htakes.isFile
  have hproper := h.wellFormed.proper_of_get? hcontent
  rw [mirror_append]
  exact Location.proper_append.mpr
    ⟨h.wellFormed.proper_of_get? h.baseThere, (Location.proper_append.mp hproper).2⟩

/-- No directory is made where the result of a file goes. -/
theorem not_mirrorsDirectory (hfile : WalkPlan.Lists plan start root file) :
    ¬ MirrorsDirectory start root base (mirror root base file) := by
  obtain ⟨rest, -, rfl, htakes⟩ := hfile
  obtain ⟨content, hcontent⟩ := htakes.isFile
  rintro ⟨-, other, -, heq, hdirectory⟩
  rw [mirror_append, List.append_cancel_left_eq] at heq
  rw [← heq, hcontent] at hdirectory
  cases hdirectory

/-- Where the result of a file goes does not change in the course of a walk. -/
theorem landing_eq (h : WalkReady plan start root base) (hnow : Underway plan start root base now)
    (hfile : WalkPlan.Lists plan start root file) :
    landing now (mirror root base file) = landing start (mirror root base file) := by
  have hproper := h.proper_mirror hfile
  have hclear := h.clear_mirror hfile
  have hsame : now.get? (mirror root base file) = some .directory ↔
      start.get? (mirror root base file) = some .directory := by
    refine ⟨fun hdirectory => ?_, hnow.directory⟩
    have hchange := hnow.change (mirror root base file)
    rw [hdirectory] at hchange
    generalize start.get? (mirror root base file) = before at hchange
    cases hchange with
    | same => rfl
    | directory hmade => exact absurd hmade (not_mirrorsDirectory hfile)
  have hiff : now.isDirectory (mirror root base file).toPath = true ↔
      start.isDirectory (mirror root base file).toPath = true := by
    rw [isDirectory_toPath_iff (hnow.wellFormed h.wellFormed) hproper (hnow.clear hclear),
      isDirectory_toPath_iff h.wellFormed hproper hclear, hsame]
  rw [landing, landing]
  simp only [hiff]

/-- Each result goes to the output, strictly below its directory. -/
theorem base_prefix_landing (base : Location) (hfile : WalkPlan.Lists plan start root file) :
    base <+: landing start (mirror root base file) ∧
      landing start (mirror root base file) ≠ base := by
  obtain ⟨rest, hrest, rfl, -⟩ := hfile
  have hpre := prefix_landing start (base ++ rest)
  rw [mirror_append]
  refine ⟨(List.prefix_append _ _).trans hpre, fun heq => hrest ?_⟩
  rw [heq] at hpre
  exact List.append_right_eq_self.mp (hpre.eq_of_length_le (by simp))

/-- No link is on the way to where a result goes. -/
theorem clear_landing (h : WalkReady plan start root base)
    (hfile : WalkPlan.Lists plan start root file) :
    start.Clear (landing start (mirror root base file)) := by
  by_cases hne : base = root
  · subst hne
    rw [h.landing_of_eq hfile]
    obtain ⟨rest, -, -, htakes⟩ := hfile
    obtain ⟨content, hcontent⟩ := htakes.isFile
    exact clear_of_get? h.wellFormed hcontent (by simp [Entry.kind])
  · exact h.clear_of_base hne (base_prefix_landing base hfile).1

/-- A file and its result are in corresponding directories, under one name. -/
theorem exists_name (base : Location) (hfile : WalkPlan.Lists plan start root file) :
    ∃ front name, file = (root ++ front) ++ [name] ∧
      mirror root base file = (base ++ front) ++ [name] := by
  obtain ⟨rest, hrest, rfl, -⟩ := hfile
  refine ⟨rest.dropLast, rest.getLast hrest, ?_, ?_⟩
  · rw [List.append_assoc, List.dropLast_append_getLast hrest]
  · rw [mirror_append, List.append_assoc, List.dropLast_append_getLast hrest]

/-- To make room for the result of a file, directories are made only where the input has one. -/
theorem grows_mirrorsDirectory (h : WalkReady plan start root base)
    (hnow : Underway plan start root base now) {front : Location} {name : String}
    {written : Location → Prop} {next : FileStore} {content : ByteArray}
    (hfile : start.get? ((root ++ front) ++ [name]) = some (.file content))
    (hgrows : now.Grows written (· <+: base ++ front) next) :
    now.Grows written (MirrorsDirectory start root base) next := by
  refine hgrows.restrict fun location hlocation hnone => ?_
  have hformed := hnow.wellFormed h.wellFormed
  by_cases hne : base = root
  · -- in place, all directories above the file are there
    subst hne
    obtain ⟨content', hnowFile⟩ := hnow.file hfile
    rw [hformed.get?_above hlocation hnowFile] at hnone
    cases hnone
  · rcases List.prefix_or_prefix_of_prefix hlocation (List.prefix_append base front) with
      habove | ⟨inner, rfl⟩
    · have hbase := hnow.directory h.baseThere
      by_cases heq : location = base
      · rw [heq, hbase] at hnone
        cases hnone
      · rw [hformed.get?_of_isPrefix habove heq hbase] at hnone
        cases hnone
    · have hinner : inner <+: front := (List.prefix_append_right_inj base).mp hlocation
      refine ⟨hne, inner, ?_, rfl, ?_⟩
      · rintro rfl
        rw [List.append_nil, hnow.directory h.baseThere] at hnone
        cases hnone
      · exact h.wellFormed.get?_above ((List.prefix_append_right_inj root).mpr hinner) hfile

/-- One file of a walk, at its turn. -/
theorem fileOutcome_onFile_underway (h : WalkReady plan start root base)
    (transformer : Transformer σ) (hsite : Underway plan start root base site.store)
    (hfile : WalkPlan.Lists plan start root file) :
    FileOutcome transformer file (landing start (mirror root base file))
      (MirrorsDirectory start root base) site
      (transformer.onFile file.toPath (some (mirror root base file).toPath) site) := by
  have hformed := hsite.wellFormed h.wellFormed
  have hproper := h.proper_mirror hfile
  have hclear := hsite.clear (h.clear_landing hfile)
  rw [← h.landing_eq hsite hfile] at hclear ⊢
  obtain ⟨content, hcontent⟩ : ∃ content, start.get? file = some (.file content) := by
    obtain ⟨_, -, -, htakes⟩ := hfile
    exact htakes.isFile
  have hextension : file.toPath.extension?.isSome := by
    obtain ⟨_, -, -, htakes⟩ := hfile
    have hhas := htakes.extension
    rw [Path.hasExtension] at hhas
    split at hhas
    · cases hhas
    · rename_i hsome
      rw [hsome, Option.isSome_some]
  obtain ⟨front, name, rfl, hmirror⟩ := exists_name base hfile
  rw [hmirror] at hproper hclear ⊢
  have hmirrored : Mirrored site.store (root ++ front) (base ++ front) name :=
    ⟨hsite.file hcontent, hextension, hproper, hclear⟩
  exact (fileOutcome_onFile transformer hformed hmirrored).mono fun written after hgrows =>
    h.grows_mirrorsDirectory hsite hcontent hgrows

/-- The result of a file goes nowhere where another file of the walk is. -/
theorem ne_landing (h : WalkReady plan start root base) {other : Location}
    (hfile : WalkPlan.Lists plan start root file) (hother : WalkPlan.Lists plan start root other)
    (hne : other ≠ file) : other ≠ landing start (mirror root base file) := by
  rintro heq
  by_cases hbase : base = root
  · subst hbase
    exact hne (heq.trans (h.landing_of_eq hfile))
  · -- what is below `base` is ignored
    obtain ⟨_, -, -, htakes⟩ := hother
    obtain ⟨content, hcontent⟩ := htakes.isFile
    have hcovered := IgnoreSet.covers_of_isPrefix (h.wellFormed.proper_of_get? hcontent)
      (heq ▸ (base_prefix_landing base hfile).1) (h.ignored hbase)
    rw [htakes.free] at hcovered
    cases hcovered

/-- No file corresponds to a place right below the place of another one. -/
theorem not_append_name (h : start.WellFormed) (hfile : WalkPlan.Lists plan start root file)
    {other : Location} (hother : WalkPlan.Lists plan start root other) (name : String) :
    mirror root base other ≠ mirror root base file ++ [name] := by
  obtain ⟨rest, -, rfl, htakes⟩ := hfile
  obtain ⟨rest', -, rfl, htakes'⟩ := hother
  obtain ⟨content, hcontent⟩ := htakes.isFile
  obtain ⟨content', hcontent'⟩ := htakes'.isFile
  rw [mirror_append, mirror_append, List.append_assoc, ne_eq, List.append_cancel_left_eq]
  rintro rfl
  rw [← List.append_assoc] at hcontent'
  rw [h.get?_parent hcontent'] at hcontent
  cases hcontent

/-- The results of two files go to different places. -/
theorem eq_of_landing (h : WalkReady plan start root base) {other : Location}
    (hfile : WalkPlan.Lists plan start root file) (hother : WalkPlan.Lists plan start root other)
    (heq : landing start (mirror root base file) = landing start (mirror root base other)) :
    file = other := by
  have hmirror : mirror root base file = mirror root base other := by
    rcases landing_cases start (mirror root base file) with hland | ⟨name, hland⟩
    · rcases landing_cases start (mirror root base other) with hland' | ⟨name', hland'⟩
      · rwa [hland, hland'] at heq
      · rw [hland, hland'] at heq
        exact absurd heq (not_append_name h.wellFormed hother hfile name')
    · rcases landing_cases start (mirror root base other) with hland' | ⟨name', hland'⟩
      · rw [hland, hland'] at heq
        exact absurd heq.symm (not_append_name h.wellFormed hfile hother name)
      · rw [hland, hland'] at heq
        exact (List.append_inj' heq rfl).1
  obtain ⟨rest, -, rfl, -⟩ := hfile
  obtain ⟨rest', -, rfl, -⟩ := hother
  rw [mirror_append, mirror_append, List.append_cancel_left_eq] at hmirror
  rw [hmirror]

end WalkReady

namespace Attempted

variable {plan : WalkPlan} {start : FileStore} {root base file : Location}
  {transformer : Transformer σ} {site after : Site σ} {files : List Location}
  {failure : Option RunError}

/-- A list of attempts changes no file but where the results go, and makes directories only where
the input has one. -/
theorem grows (h : WalkReady plan start root base)
    (hfiles : ∀ file ∈ files, WalkPlan.Lists plan start root file)
    (hattempted : Attempted transformer (mirror root base) files site failure after)
    (hsite : Underway plan start root base site.store) :
    site.store.Grows
      (fun location => ∃ file ∈ files, location = landing start (mirror root base file))
      (MirrorsDirectory start root base) after.store := by
  induction hattempted with
  | done hquiet =>
    rw [hquiet.store_eq]
    exact .refl _ _ _
  | @next file rest site ready left after target failure hquiet hresult _ ih =>
    have hfile := hfiles file List.mem_cons_self
    have hrest := fun other hother => hfiles other (List.mem_cons_of_mem _ hother)
    rw [← hquiet.store_eq] at hsite ⊢
    have houtcome := h.fileOutcome_onFile_underway transformer hsite hfile
    rw [hresult] at houtcome
    cases houtcome with
    | passed _ _ _ hgrows _ =>
      have hleft : Underway plan start root base left.store :=
        hsite.trans (hgrows.mono (fun location heq => ⟨file, hfile, heq⟩) fun _ h => h)
      refine (hgrows.mono ?_ fun _ h => h).trans ((ih hrest hleft).mono ?_ fun _ h => h)
      · exact fun location heq => ⟨file, List.mem_cons_self, heq⟩
      · exact fun location ⟨other, hother, heq⟩ => ⟨other, List.mem_cons_of_mem _ hother, heq⟩
  | @stop file rest site ready after error hquiet hresult =>
    have hfile := hfiles file List.mem_cons_self
    rw [← hquiet.store_eq] at hsite ⊢
    have houtcome := h.fileOutcome_onFile_underway transformer hsite hfile
    rw [hresult] at houtcome
    cases houtcome with
    | blocked _ hgrows => exact hgrows.mono (fun _ h => h.elim) fun _ h => h
    | refused _ _ hgrows => exact hgrows.mono (fun _ h => h.elim) fun _ h => h

/-- A walk goes on being underway through its attempts. -/
theorem underway (h : WalkReady plan start root base)
    (hfiles : ∀ file ∈ files, WalkPlan.Lists plan start root file)
    (hattempted : Attempted transformer (mirror root base) files site failure after)
    (hsite : Underway plan start root base site.store) :
    Underway plan start root base after.store :=
  hsite.trans ((hattempted.grows h hfiles hsite).mono
    (fun _ ⟨file, hfile, heq⟩ => ⟨file, hfiles file hfile, heq⟩) fun _ h => h)

end Attempted

end Retouch
