import Retouch.Proofs.Files.Effects
import Retouch.Run.Transformer

/-!
# What transforming a file does

Transforming a file can go in six ways, which `FileRun` lists; `fileRun_onFile` is the one place
where the steps of `Transformer.onFile` are gone through.

In a directory run the file and the output are given by locations with the same name at the end.
Then the result goes to the output itself, or into it under that name if it is a directory
(`landing`). A file that fails changes no file, and one that does not fail changes no file but the
one where its result goes (`FileOutcome`, `fileOutcome_onFile`).
-/

namespace Retouch

variable {σ α : Type}

namespace RunM

/-- Looking at the files changes nothing. -/
theorem files_apply (site : Site σ) : files site = .ok site.store site :=
  rfl

/-- An action on files changes only the files, and its error is about the path. -/
theorem onFiles_apply (path : Path) (action : FileM α) (site : Site σ) :
    onFiles path action site =
      match action site.store with
      | .ok value store => .ok value { site with store }
      | .error error store => .error (.fileFailed path error) { site with store } := by
  simp only [onFiles, onWorld, World.onFiles, focus, Site.world]
  cases action site.store <;> rfl

/-- An action on texts does not change the files. -/
theorem onText_apply (action : EStateM RunError (Live σ) α) (site : Site σ) :
    onText action site =
      match action site.live with
      | .ok value live => .ok value (site.withLive live)
      | .error error live => .error error (site.withLive live) := by
  rw [onText, focus]
  cases action site.live <;> rfl

end RunM

namespace Site

/-- The files are not in use on texts. -/
theorem live_withStore (site : Site σ) (store : FileStore) : live { site with store } = site.live :=
  rfl

/-- What is in use on texts is not among the files. -/
theorem store_withLive (live : Live σ) (site : Site σ) : (withLive live site).store = site.store :=
  rfl

end Site

/-- A journal after the two reports on a file that was transformed. -/
def Journal.reported (journal : Journal) (input target : Path) (changed : Bool) : Journal :=
  (journal.add (.diagnostic
    ⟨.debug, "transformed file",
      [("input", input.raw), ("output", target.raw), ("changed", toString changed)]⟩)).add
    (.transformed input target changed)

/-- A codemod in use on texts after the reports on a file. -/
def Live.reported (input target : Path) (changed : Bool) (live : Live σ) : Live σ :=
  { live with journal := live.journal.reported input target changed }

/-- The site after the reports on a file. -/
def Site.reported (input target : Path) (changed : Bool) (site : Site σ) : Site σ :=
  { site with journal := site.journal.reported input target changed }

/-- The ways in which transforming a file can go. -/
inductive FileRun (transformer : Transformer σ) (input : Path) (output : Option Path)
    (site : Site σ) : EStateM.Result RunError (Site σ) Path → Prop
  | noTarget {error : FileError} {store : FileStore}
      (htarget : outputFile input output site.store = .error error store) :
      FileRun transformer input output site (.error (.fileFailed input error) { site with store })
  | unread {target : Path} {store : FileStore} {error : FileError}
      (htarget : outputFile input output site.store = .ok target store)
      (hread : store.readText input = .error error) :
      FileRun transformer input output site (.error (.fileFailed input error) { site with store })
  | failed {target : Path} {store : FileStore} {text : String} {error : RunError} {live : Live σ}
      (htarget : outputFile input output site.store = .ok target store)
      (hread : store.readText input = .ok text)
      (hresult : transformer.onText text (some (.forFile input target)) site.live =
        .error error live) :
      FileRun transformer input output site
        (.error error (Site.withLive live { site with store }))
  | unwritten {target : Path} {store after : FileStore} {text result : String} {live : Live σ}
      {error : FileError}
      (htarget : outputFile input output site.store = .ok target store)
      (hread : store.readText input = .ok text)
      (hresult : transformer.onText text (some (.forFile input target)) site.live =
        .ok result live)
      (hwrite : FileM.writeText target result store = .error error after) :
      FileRun transformer input output site
        (.error (.fileFailed target error) (Site.withLive live { site with store := after }))
  | written {target : Path} {store after : FileStore} {text result : String} {live : Live σ}
      (htarget : outputFile input output site.store = .ok target store)
      (hread : store.readText input = .ok text)
      (hresult : transformer.onText text (some (.forFile input target)) site.live =
        .ok result live)
      (hwrite : FileM.writeText target result store = .ok () after) :
      FileRun transformer input output site
        (.ok target (Site.reported input target (result != text)
          (Site.withLive live { site with store := after })))
  | kept {target : Path} {store : FileStore} {text : String} {live : Live σ}
      (htarget : outputFile input output site.store = .ok target store)
      (hread : store.readText input = .ok text)
      (hresult : transformer.onText text (some (.forFile input target)) site.live =
        .ok text live)
      (hsame : target.same input = true) :
      FileRun transformer input output site
        (.ok target (Site.reported input target false (Site.withLive live { site with store })))

/-- Transforming a file goes in one of the ways of a file run. -/
theorem fileRun_onFile (transformer : Transformer σ) {input : Path} (output : Option Path)
    {site : Site σ} (hfile : site.store.isFile input = true) :
    FileRun transformer (site.store.normalize input) output site
      (transformer.onFile input output site) := by
  unfold Transformer.onFile
  rw [bind_apply, RunM.files_apply]
  simp only [hfile, Bool.not_true, Bool.false_eq_true, if_false]
  generalize site.store.normalize input = path
  rw [bind_apply, RunM.onFiles_apply]
  cases htarget : outputFile path output site.store with
  | error error store => exact .noTarget htarget
  | ok target store =>
    simp only
    rw [bind_apply, RunM.onFiles_apply, FileM.readText]
    cases hread : store.readText path with
    | error error => exact .unread htarget hread
    | ok text =>
      simp only
      rw [bind_apply, RunM.onText_apply]
      rw [Site.live_withStore]
      cases hresult : transformer.onText text (some (.forFile path target)) site.live with
      | error error live => exact .failed htarget hread hresult
      | ok result live =>
        simp only
        by_cases hchanged : (result != text || !target.same path) = true
        · rw [if_pos hchanged, bind_apply, RunM.onFiles_apply]
          rw [Site.store_withLive]
          cases hwrite : FileM.writeText target result store with
          | error error after => exact .unwritten htarget hread hresult hwrite
          | ok _ after => exact .written htarget hread hresult hwrite
        · rw [if_neg hchanged]
          simp only [Bool.or_eq_true, bne_iff_ne, Bool.not_eq_true', not_or, not_not,
            Bool.not_eq_false] at hchanged
          obtain ⟨rfl, hsame⟩ := hchanged
          rw [bne_self_eq_false]
          exact .kept htarget hread hresult hsame

/-! ### Where the result goes -/

/-- Where the result for a file goes whose output is at a location: there, or under the same name
into the directory that is there. -/
def landing (store : FileStore) (place : Location) : Location :=
  if store.isDirectory place.toPath then place ++ place.getLast?.toList else place

section landing

open FileStore

variable {store : FileStore} {source directory : Location} {name : String}

/-- A result goes to its place or below it. -/
theorem prefix_landing (store : FileStore) (place : Location) :
    place <+: landing store place := by
  rw [landing]
  split
  · exact List.prefix_append _ _
  · exact List.prefix_rfl

/-- Where no directory is, nothing is in the way. -/
theorem landing_of_not_directory {place : Location} (h : store.WellFormed) (hplace : place.Proper)
    (hclear : store.Clear place) (hfree : store.get? place ≠ some .directory) :
    landing store place = place := by
  rw [landing, if_neg]
  intro hdirectory
  exact hfree ((isDirectory_toPath_iff h hplace hclear).mp hdirectory).2

/-- A result goes to its place, or one name further down. -/
theorem landing_cases (store : FileStore) (place : Location) :
    landing store place = place ∨ ∃ name, landing store place = place ++ [name] := by
  rw [landing]
  split
  · cases place.getLast? with
    | none => exact .inl (List.append_nil place)
    | some name => exact .inr ⟨name, rfl⟩
  · exact .inl rfl

/-- The names of the location to which a result goes are those of its place. -/
theorem proper_landing (store : FileStore) (hplace : (directory ++ [name]).Proper) :
    (landing store (directory ++ [name])).Proper := by
  rw [landing]
  split
  · rw [List.getLast?_concat, Option.toList_some]
    exact Location.proper_append.mpr ⟨hplace, (Location.proper_append.mp hplace).2⟩
  · exact hplace

/-- Whatever the directory is, the same name has the same extension. -/
theorem extension?_toPath_concat (hsource : (source ++ [name]).Proper)
    (hplace : (directory ++ [name]).Proper) :
    (Location.toPath (directory ++ [name])).extension? =
      (Location.toPath (source ++ [name])).extension? := by
  rw [Path.extension?, Path.extension?, Location.fileName?_toPath_concat hsource,
    Location.fileName?_toPath_concat hplace]

/-- The result of a file goes to its place, for which the directories are made. -/
theorem outputFile_toPath_eq (hsource : (source ++ [name]).Proper)
    (hplace : (directory ++ [name]).Proper)
    (hextension : (Location.toPath (source ++ [name])).extension?.isSome) :
    outputFile (Location.toPath (source ++ [name]))
        (some (Location.toPath (directory ++ [name]))) store =
      (do
        FileM.createDirectories
          (if store.isDirectory (Location.toPath (directory ++ [name]))
            then Location.toPath (directory ++ [name]) else Location.toPath directory)
        pure ((← get).normalize (landing store (directory ++ [name])).toPath) :
          FileM Path) store := by
  have hname := Location.proper_singleton.mp (Location.proper_append.mp hplace).2
  rw [← extension?_toPath_concat hsource hplace, Option.isSome_iff_ne_none] at hextension
  rw [outputFile, bind_apply, get_apply]
  simp only [landing]
  by_cases hdirectory : store.isDirectory (Location.toPath (directory ++ [name])) = true
  · simp only [hdirectory, Bool.true_or, if_true, Location.fileName?_toPath_concat hsource,
      Location.join_toPath_name hplace hname, List.getLast?_concat, Option.toList_some]
  · simp only [hdirectory, Bool.false_or, Option.isNone_iff_eq_none, hextension, if_false,
      Location.parent?_toPath_concat hplace, ne_eq, Location.raw_toPath_ne_empty, not_false_eq_true,
      if_true, Bool.false_eq_true]

/-- The result of a file goes to its landing place, and to get there only directories above are
made. -/
theorem outputFile_toPath (h : store.WellFormed) (hsource : (source ++ [name]).Proper)
    (hplace : (directory ++ [name]).Proper)
    (hclear : store.Clear (landing store (directory ++ [name])))
    (hextension : (Location.toPath (source ++ [name])).extension?.isSome) :
    store.Grows (fun _ => False) (· <+: directory)
      (stateAfter (outputFile (Location.toPath (source ++ [name]))
        (some (Location.toPath (directory ++ [name]))) store)) ∧
    ∀ target after,
      outputFile (Location.toPath (source ++ [name]))
        (some (Location.toPath (directory ++ [name]))) store = .ok target after →
      target = (landing store (directory ++ [name])).toPath := by
  have hclear' : store.Clear (directory ++ [name]) := hclear.of_isPrefix (prefix_landing ..)
  have hgrows : store.Grows (fun _ => False) (· <+: directory)
      (stateAfter (FileM.createDirectories
        (if store.isDirectory (Location.toPath (directory ++ [name]))
          then Location.toPath (directory ++ [name]) else Location.toPath directory) store)) := by
    split
    · rename_i hdirectory
      have hthere := ((isDirectory_toPath_iff h hplace hclear').mp hdirectory).2
      refine (FileM.grows_createDirectories_toPath h hplace hclear').restrict ?_
      intro location hlocation hnone
      rcases List.prefix_concat_iff.mp hlocation with rfl | habove
      · rw [hthere] at hnone
        cases hnone
      · exact habove
    · exact FileM.grows_createDirectories_toPath h (Location.proper_append.mp hplace).1
        (hclear'.of_isPrefix (List.prefix_append _ _))
  rw [outputFile_toPath_eq hsource hplace hextension, FileM.createDirectories_normalize]
  cases hmade : FileM.createDirectories
      (if store.isDirectory (Location.toPath (directory ++ [name]))
        then Location.toPath (directory ++ [name]) else Location.toPath directory) store with
  | error error after =>
    rw [hmade] at hgrows
    exact ⟨hgrows, fun target last hok => by cases hok⟩
  | ok _ after =>
    rw [hmade] at hgrows
    refine ⟨hgrows, fun target last hok => ?_⟩
    cases hok
    exact normalize_toPath (hgrows.wellFormed h) (proper_landing store hplace) (hgrows.clear hclear)

/-- A file of a directory run with the directory that its result goes to. No link is on the way of
the result. -/
structure Mirrored (store : FileStore) (source directory : Location) (name : String) : Prop where
  file : ∃ content, store.get? (source ++ [name]) = some (.file content)
  extension : (Location.toPath (source ++ [name])).extension?.isSome
  proper : (directory ++ [name]).Proper
  clear : store.Clear (landing store (directory ++ [name]))

/-- What is no file is not found. -/
theorem onFile_of_not_isFile (transformer : Transformer σ) {input : Path} (output : Option Path)
    {site : Site σ} (h : site.store.isFile input = false) :
    transformer.onFile input output site = .error (.fileNotFound input) site := by
  rw [Transformer.onFile, bind_apply, RunM.files_apply]
  simp only [h, Bool.not_false, if_true]
  rfl

/-- The text of a file was refused: it does not fit the grammar, or the codemod failed on it. -/
def RunError.isRefusal : RunError → Bool
  | .syntaxFault _ _ => true
  | .codemodFailed _ _ => true
  | _ => false

/-- What can become of a file whose result goes to a place, if directories are made only where
`made` allows it. A file that fails changes no file, and one that does not fail has its result in
the place for it and changes no other file. -/
inductive FileOutcome (transformer : Transformer σ) (source place : Location)
    (made : Location → Prop) (site : Site σ) : EStateM.Result RunError (Site σ) Path → Prop
  | blocked {error : RunError} {after : Site σ} (hcause : error.isRefusal = false)
      (hgrows : site.store.Grows (fun _ => False) made after.store) :
      FileOutcome transformer source place made site (.error error after)
  | refused {text : String} {error : RunError} {after : Site σ}
      (htext : site.store.get? source = some (.file text.toUTF8))
      (hresult : transformer.onText text (some (.forFile source.toPath place.toPath)) site.live =
        .error error after.live)
      (hgrows : site.store.Grows (fun _ => False) made after.store) :
      FileOutcome transformer source place made site (.error error after)
  | passed {text result : String} {live : Live σ} {after : Site σ}
      (htext : site.store.get? source = some (.file text.toUTF8))
      (hresult : transformer.onText text (some (.forFile source.toPath place.toPath)) site.live =
        .ok result live)
      (hlive : after.live = live.reported source.toPath place.toPath (result != text))
      (hgrows : site.store.Grows (· = place) made after.store)
      (hnew : after.store.get? place = some (.file result.toUTF8)) :
      FileOutcome transformer source place made site (.ok place.toPath after)

/-- More directories may be allowed than are made. -/
theorem FileOutcome.mono {transformer : Transformer σ} {source place : Location}
    {made made' : Location → Prop} {site : Site σ} {outcome : EStateM.Result RunError (Site σ) Path}
    (h : FileOutcome transformer source place made site outcome)
    (hmade : ∀ written after, site.store.Grows written made after →
      site.store.Grows written made' after) :
    FileOutcome transformer source place made' site outcome := by
  cases h with
  | blocked hcause hgrows => exact .blocked hcause (hmade _ _ hgrows)
  | refused htext hresult hgrows => exact .refused htext hresult (hmade _ _ hgrows)
  | passed htext hresult hlive hgrows hnew =>
    exact .passed htext hresult hlive (hmade _ _ hgrows) hnew

/-- A file that is mirrored has one of the outcomes, with directories only above its place. -/
theorem fileOutcome_onFile (transformer : Transformer σ) {site : Site σ} (h : site.store.WellFormed)
    (hfile : Mirrored site.store source directory name) :
    FileOutcome transformer (source ++ [name]) (landing site.store (directory ++ [name]))
      (· <+: directory) site
      (transformer.onFile (Location.toPath (source ++ [name]))
        (some (Location.toPath (directory ++ [name]))) site) := by
  obtain ⟨content, hcontent⟩ := hfile.file
  have hsource := h.proper_of_get? hcontent
  have hclear : site.store.Clear (source ++ [name]) :=
    clear_of_get? h hcontent (by simp [Entry.kind])
  by_cases hthere : site.store.isFile (Location.toPath (source ++ [name])) = true
  case neg =>
    rw [onFile_of_not_isFile _ _ (by simpa using hthere)]
    exact .blocked rfl (.refl _ _ _)
  obtain ⟨hgrows, htarget⟩ :=
    outputFile_toPath h hsource hfile.proper hfile.clear hfile.extension
  have hrun := fileRun_onFile transformer (some (Location.toPath (directory ++ [name]))) hthere
  rw [normalize_toPath h hsource hclear] at hrun
  -- how the run of the file ends is all that is needed from here on
  generalize transformer.onFile (Location.toPath (source ++ [name]))
    (some (Location.toPath (directory ++ [name]))) site = outcome at hrun ⊢
  have hplace := proper_landing site.store hfile.proper
  cases hrun with
  | noTarget hready =>
    rw [hready, stateAfter] at hgrows
    exact .blocked rfl hgrows
  | unread hready hread =>
    rw [hready, stateAfter] at hgrows
    exact .blocked rfl hgrows
  | failed hready hread hfailed =>
    rw [hready, stateAfter] at hgrows
    obtain rfl := htarget _ _ hready
    have hold := (hgrows.file_iff not_false).mp
      (readText_toPath hsource (hgrows.clear hclear) hread)
    exact .refused hold hfailed hgrows
  | unwritten hready hread htext hwrite =>
    rw [hready, stateAfter] at hgrows
    obtain rfl := FileM.eq_of_writeText_error hwrite
    exact .blocked rfl hgrows
  | written hready hread htext hwrite =>
    rw [hready, stateAfter] at hgrows
    obtain rfl := htarget _ _ hready
    obtain ⟨hchange, hnew⟩ := FileM.grows_writeText_toPath (hgrows.wellFormed h) hplace
      (hgrows.clear hfile.clear) hwrite
    have hold := (hgrows.file_iff not_false).mp
      (readText_toPath hsource (hgrows.clear hclear) hread)
    refine .passed hold htext rfl ?_ hnew
    exact (hgrows.mono (fun _ h => h.elim) fun _ h => h).trans
      (hchange.mono (fun _ h => h) fun _ h => h.elim)
  | @kept target store text live hready hread htext hsame =>
    rw [hready, stateAfter] at hgrows
    obtain rfl := htarget _ _ hready
    have hnow := readText_toPath hsource (hgrows.clear hclear) hread
    -- nothing was written, but the file has the result as its text already
    rw [Location.same_toPath_iff hplace hsource] at hsame
    refine .passed ((hgrows.file_iff not_false).mp hnow) htext ?_ ?_ ?_
    · rw [bne_self_eq_false]
      rfl
    · exact hgrows.mono (fun _ h => h.elim) fun _ h => h
    · rw [hsame]
      exact hnow

end landing

end Retouch
