import Retouch.Proofs.Actions
import Retouch.Proofs.Files.Leads

/-!
# What file operations do to a store

A run uses two operations that change a store: it makes directories, and it writes a file. Making
directories, however far it gets, adds directories and nothing else (`grows_createAlong`), and when
it succeeds the directory is there (`isDirectory_of_createDirectories`). If the directory around it
is there, then at most this directory is made (`createDirectories_of_leads`). Writing changes one
file or makes one (`grows_writeText_toPath`), and does nothing when it fails.
-/

namespace Retouch

namespace FileM

open FileStore

variable {store after : FileStore} {path : Path} {paths : List Path}
  {directory place : Location} {name : String}

/-! ### One directory -/

/-- A directory is made where there was nothing, or else nothing happens. -/
theorem createDirectory_cases (path : Path) (store : FileStore) :
    (∃ directory name, store.parentOf path = .ok (directory, some name) ∧
      store.get? (directory ++ [name]) = none ∧
      createDirectory path store = .ok () (store.put (directory ++ [name]) .directory)) ∨
    ∃ error, createDirectory path store = .error error store := by
  rw [createDirectory, create]
  split
  · exact .inr ⟨_, rfl⟩
  · exact .inr ⟨_, rfl⟩
  · rename_i directory name hparent
    split
    · exact .inr ⟨_, rfl⟩
    · rename_i hnone
      exact .inl ⟨directory, name, hparent, hnone, rfl⟩

/-- Where there was nothing, a directory may be made. -/
theorem grows_put_directory (made : Location → Prop) (h : store.WellFormed)
    (hparent : store.parentOf path = .ok (directory, some name))
    (hnone : store.get? (directory ++ [name]) = none) (hmade : made (directory ++ [name])) :
    store.Grows (fun _ => False) made (store.put (directory ++ [name]) .directory) := by
  obtain ⟨_, -, -, -, hdirectory, hname⟩ := parentOf_eq_ok hparent
  refine grows_put ?_ hdirectory ?_
  · exact Location.proper_append.mpr
      ⟨h.proper_of_get? hdirectory, Location.proper_singleton.mpr hname⟩
  · rw [hnone]
    exact .directory hmade

/-- The path of a directory that was just made leads to it. -/
theorem locate_put_directory (h : store.WellFormed)
    (hparent : store.parentOf path = .ok (directory, some name))
    (hnone : store.get? (directory ++ [name]) = none) :
    (store.put (directory ++ [name]) .directory).locate path = .ok (directory ++ [name]) := by
  have hgrows := grows_put_directory (fun _ => True) h hparent hnone trivial
  obtain ⟨front, hsteps, husable, hleads, hdirectory, hname⟩ := parentOf_eq_ok hparent
  have hentry : (store.put (directory ++ [name]) .directory).get? (directory ++ [name]) =
      some .directory := get?_put_self _ (by simp) _
  refine locate_eq_ok_iff.mpr ⟨husable, ?_⟩
  rw [startOf_of_grows hgrows]
  have hlast : ∀ fewer more, (more = [] ∨ more = [PathStep.slash]) →
      (store.put (directory ++ [name]) .directory).Leads fewer directory (.name name :: more)
        (directory ++ [name]) := by
    rintro fewer more (rfl | rfl)
    · exact .name (hgrows.directory hdirectory) hname.short hentry (by simp [Entry.kind])
        (.done _ _)
    · exact .name (hgrows.directory hdirectory) hname.short hentry (by simp [Entry.kind])
        (.stay (.inr rfl) hentry (.done _ _))
  rw [Path.steps, hsteps]
  split
  · rw [List.append_assoc]
    exact (hleads.of_grows hgrows).append fun fewer => hlast fewer _ (.inr rfl)
  · exact (hleads.of_grows hgrows).append fun fewer => hlast fewer _ (.inl rfl)

/-! ### Directories along a path -/

/-- What making directories along a path comes to: after making those above, or without that, the
directory is there, or it cannot be made, or it is made. -/
theorem createAlong_cons_cases (path : Path) (above : List Path) (store : FileStore) :
    ∃ ready, (ready = store ∨ ready = stateAfter (createAlong above store)) ∧
      ((createAlong (path :: above) store = .ok () ready ∧
          (path.raw = "" ∨ ready.isDirectory path = true)) ∨
        (∃ error, createAlong (path :: above) store = .error error ready) ∨
        ∃ after, createDirectory path ready = .ok () after ∧
          createAlong (path :: above) store = .ok () after) := by
  by_cases hraw : path.raw = ""
  · exact ⟨store, .inl rfl, .inl ⟨by simp only [createAlong, if_pos hraw], .inl hraw⟩⟩
  · simp only [createAlong, if_neg hraw]
    rcases createDirectory_cases path store with ⟨_, _, -, -, hcreate⟩ | ⟨error, hcreate⟩
    · exact ⟨store, .inl rfl, .inr (.inr ⟨_, hcreate, by rw [hcreate]⟩)⟩
    · simp only [hcreate]
      by_cases hnone : error = .system .noEntry
      · rw [if_pos hnone]
        refine ⟨stateAfter (createAlong above store), .inr rfl, ?_⟩
        cases createAlong above store with
        | error error ready => exact .inr (.inl ⟨error, rfl⟩)
        | ok _ ready =>
          simp only [stateAfter]
          rcases createDirectory_cases path ready with ⟨_, _, -, -, hagain⟩ | ⟨error, hagain⟩
          · exact .inr (.inr ⟨_, hagain, by rw [hagain]⟩)
          · simp only [hagain]
            by_cases hdirectory : ready.isDirectory path = true
            · exact .inl ⟨if_pos hdirectory, .inr hdirectory⟩
            · exact .inr (.inl ⟨error, if_neg hdirectory⟩)
      · rw [if_neg hnone]
        refine ⟨store, .inl rfl, ?_⟩
        by_cases hdirectory : store.isDirectory path = true
        · exact .inl ⟨if_pos hdirectory, .inr hdirectory⟩
        · exact .inr (.inl ⟨error, if_neg hdirectory⟩)

/-- Making directories adds directories and nothing else, also when it fails on the way. -/
theorem grows_createAlong (made : Location → Prop) (h : store.WellFormed)
    (hmade : ∀ path ∈ paths, ∀ now, store.Grows (fun _ => False) made now → ∀ directory name,
      now.parentOf path = .ok (directory, some name) → made (directory ++ [name])) :
    store.Grows (fun _ => False) made (stateAfter (createAlong paths store)) := by
  induction paths with
  | nil => exact .refl _ _ _
  | cons path above ih =>
    have habove := ih fun other hother => hmade other (List.mem_cons_of_mem _ hother)
    obtain ⟨ready, hready, hcases⟩ := createAlong_cons_cases path above store
    have hgrows : store.Grows (fun _ => False) made ready := by
      rcases hready with rfl | rfl
      · exact .refl _ _ _
      · exact habove
    rcases hcases with ⟨hresult, -⟩ | ⟨error, hresult⟩ | ⟨after, hcreate, hresult⟩
    · rw [hresult]
      exact hgrows
    · rw [hresult]
      exact hgrows
    · rw [hresult]
      rcases createDirectory_cases path ready with ⟨directory, name, hparent, hnone, hput⟩ |
        ⟨error, hput⟩
      · rw [hput] at hcreate
        cases hcreate
        exact hgrows.trans (grows_put_directory made (hgrows.wellFormed h) hparent hnone
          (hmade path List.mem_cons_self ready hgrows _ _ hparent))
      · rw [hput] at hcreate
        cases hcreate

/-- Once it was made with all directories above it, a directory is there. -/
theorem isDirectory_of_createAlong (h : store.WellFormed)
    (hcreate : createAlong (path :: paths) store = .ok () after) :
    path.raw = "" ∨ after.isDirectory path = true := by
  obtain ⟨ready, hready, ⟨hresult, hdone⟩ | ⟨error, hresult⟩ | ⟨last, hlast, hresult⟩⟩ :=
    createAlong_cons_cases path paths store
  · rw [hresult] at hcreate
    cases hcreate
    exact hdone
  · rw [hresult] at hcreate
    cases hcreate
  · rw [hresult] at hcreate
    cases hcreate
    have hformed : ready.WellFormed := by
      rcases hready with rfl | rfl
      · exact h
      · exact (grows_createAlong (fun _ => True) h fun _ _ _ _ _ _ _ => trivial).wellFormed h
    rcases createDirectory_cases path ready with ⟨directory, name, hparent, hnone, hput⟩ |
      ⟨error, hput⟩
    · rw [hput] at hlast
      cases hlast
      exact .inr (isDirectory_iff_locate.mpr
        ⟨_, locate_put_directory hformed hparent hnone, get?_put_self _ (by simp) _⟩)
    · rw [hput] at hlast
      cases hlast

/-- The path itself is the first of the paths from it upwards. -/
theorem exists_ancestors_eq (path : Path) : ∃ above, path.ancestors = path :: above := by
  rw [Path.ancestors]
  cases path.segments.length with
  | zero => exact ⟨[], rfl⟩
  | succ limit =>
    rw [Path.ancestorsUpTo]
    split
    · exact ⟨_, rfl⟩
    · exact ⟨[], rfl⟩

/-- Making a directory in one that is there: it is made if there is nothing at its place and the
path and the name are short enough, it is left alone if it is a directory, and else nothing is done.
-/
theorem createDirectories_of_leads {front : List PathStep}
    (hsteps : path.segments.filterMap Path.stepOf? = front ++ [.name name])
    (hnul : path.holdsNul = false) (hraw : path.raw ≠ "")
    (hleads : store.Leads linkLimit (store.startOf path) front directory)
    (hdirectory : store.get? directory = some .directory) :
    (store.parentOf path = .ok (directory, some name) ∧
        store.get? (directory ++ [name]) = none ∧
        createDirectories path store = .ok () (store.put (directory ++ [name]) .directory)) ∨
      ((store.parentOf path = .ok (directory, some name) →
          (store.get? (directory ++ [name])).isSome) ∧
        ∃ error, createDirectories path store =
          if store.isDirectory path then .ok () store else .error error store) := by
  obtain ⟨above, habove⟩ := exists_ancestors_eq path
  have hparent := parentOf_of_leads hsteps hnul hraw hleads hdirectory
  -- only a missing directory would make it go further up
  have hstuck : ∀ error, error ≠ .system .noEntry →
      createDirectory path store = .error error store →
      createDirectories path store =
        if store.isDirectory path then .ok () store else .error error store := by
    intro error herror hcreate
    simp only [createDirectories, habove, createAlong, if_neg hraw, hcreate, if_neg herror]
  by_cases hfits : path.raw.utf8ByteSize < pathLimit ∧ name.utf8ByteSize ≤ nameLimit
  · rw [if_pos hfits] at hparent
    cases hentry : store.get? (directory ++ [name]) with
    | none =>
      refine .inl ⟨hparent, rfl, ?_⟩
      have hcreate : createDirectory path store =
          .ok () (store.put (directory ++ [name]) .directory) := by
        simp only [createDirectory, create, hparent, hentry]
      simp only [createDirectories, habove, createAlong, if_neg hraw, hcreate]
    | some entry =>
      refine .inr ⟨fun _ => rfl, .system .alreadyExists, hstuck _ (by decide) ?_⟩
      simp only [createDirectory, create, hparent, hentry]
  · rw [if_neg hfits] at hparent
    refine .inr ⟨fun hsome => ?_, .system .nameTooLong, hstuck _ (by decide) ?_⟩
    · rw [hparent] at hsome
      cases hsome
    · simp only [createDirectory, create, hparent]

/-- A directory that was asked for is there when making it succeeds; the empty path asks for none.
-/
theorem isDirectory_of_createDirectories (h : store.WellFormed)
    (hcreate : createDirectories path store = .ok () after) :
    path.raw = "" ∨ after.isDirectory path = true := by
  obtain ⟨above, habove⟩ := exists_ancestors_eq path
  rw [createDirectories, habove] at hcreate
  exact isDirectory_of_createAlong h hcreate

/-- To make directories writes no file. -/
theorem grows_createDirectories (h : store.WellFormed) (path : Path) :
    store.Grows (fun _ => False) (fun _ => True) (stateAfter (createDirectories path store)) :=
  grows_createAlong _ h fun _ _ _ _ _ _ _ => trivial

/-- The paths above the path of a location are those of the locations above it. -/
theorem mem_ancestorsUpTo_toPath (hproper : place.Proper) {limit : Nat}
    (hpath : path ∈ Path.ancestorsUpTo limit place.toPath) :
    ∃ above : Location, above <+: place ∧ path = above.toPath := by
  induction limit generalizing place with
  | zero =>
    rw [Path.ancestorsUpTo, List.mem_singleton] at hpath
    exact ⟨place, List.prefix_rfl, hpath⟩
  | succ limit ih =>
    rcases List.eq_nil_or_concat place with rfl | ⟨front, name, rfl⟩
    · rw [Path.ancestorsUpTo, Location.parent?_toPath_root, List.mem_singleton] at hpath
      exact ⟨[], List.prefix_rfl, hpath⟩
    · rw [List.concat_eq_append] at *
      rw [Path.ancestorsUpTo, Location.parent?_toPath_concat hproper, List.mem_cons] at hpath
      rcases hpath with rfl | hpath
      · exact ⟨_, List.prefix_rfl, rfl⟩
      · obtain ⟨above, habove, rfl⟩ := ih (Location.proper_append.mp hproper).1 hpath
        exact ⟨above, habove.trans (List.prefix_append _ _), rfl⟩

/-- Making the directory of a location makes only directories on the way there. -/
theorem grows_createDirectories_toPath (h : store.WellFormed) (hproper : place.Proper)
    (hclear : store.Clear place) :
    store.Grows (fun _ => False) (· <+: place)
      (stateAfter (createDirectories place.toPath store)) := by
  refine grows_createAlong _ h fun path hpath now hnow directory name hparent => ?_
  obtain ⟨above, habove, rfl⟩ := mem_ancestorsUpTo_toPath hproper hpath
  have hfree := hnow.clear (hclear.of_isPrefix habove)
  rw [← parentOf_toPath (hproper.of_isPrefix habove) hfree hparent]
  exact habove

/-- Making the directories of a path and giving another path in normal form. -/
theorem createDirectories_normalize (path result : Path) (store : FileStore) :
    (do createDirectories path; pure ((← get).normalize result) : FileM Path) store =
      match createDirectories path store with
      | .ok _ after => .ok (after.normalize result) after
      | .error error after => .error error after := by
  rw [bind_apply]
  cases createDirectories path store <;> rfl

/-! ### One file -/

/-- Writing to the path of a location puts the text there and changes nothing else. -/
theorem grows_writeText_toPath (h : store.WellFormed) (hproper : place.Proper)
    (hclear : store.Clear place) {text : String}
    (hwrite : writeText place.toPath text store = .ok () after) :
    store.Grows (· = place) (fun _ => False) after ∧
      after.get? place = some (.file text.toUTF8) := by
  rw [writeText, writeBytes] at hwrite
  split at hwrite
  · rename_i location hlocation
    obtain ⟨rfl, -, front, last, rfl, hfront, hold⟩ := writePlace_toPath h hproper hclear hlocation
    cases hwrite
    refine ⟨grows_put hproper hfront ?_, get?_put_self _ (by simp) _⟩
    rcases hold with hnone | ⟨content, hfile⟩
    · rw [hnone]
      exact .newFile rfl _
    · rw [hfile]
      exact .newContent rfl _ _
  · cases hwrite

/-- A text that cannot be written changes nothing. -/
theorem eq_of_writeText_error {text : String} {error : FileError}
    (hwrite : writeText path text store = .error error after) : after = store := by
  rw [writeText, writeBytes] at hwrite
  split at hwrite
  · cases hwrite
  · cases hwrite
    rfl

end FileM

end Retouch
