import Retouch.Proofs.Files.WellFormed

/-!
# How a store grows

A run makes directories and writes files. It removes nothing, it never puts a file in the place of a
directory or the other way round, and it leaves links alone. `EntryChange` says this of one
location, and `FileStore.Grows` of a whole store, with the locations where files may be written and
those where directories may be made. Growing is transitive (`Grows.trans`), so it is shown for
single operations and then holds of whole runs.

Everything that later files need to know about an earlier state of the store follows from it:
directories and links stay, files stay files (`Grows.directory`, `Grows.link_iff`, `Grows.file`),
and outside of the two regions nothing changes (`Grows.get?_eq`, `Grows.file_iff`).
-/

namespace Retouch

/-- What may happen to an entry where files may be `written` and directories may be `made`. -/
inductive EntryChange (written made : Prop) : (before after : Option Entry) → Prop
  | same (entry : Option Entry) : EntryChange written made entry entry
  | directory (h : made) : EntryChange written made none (some .directory)
  | newFile (h : written) (content : ByteArray) :
      EntryChange written made none (some (.file content))
  | newContent (h : written) (old content : ByteArray) :
      EntryChange written made (some (.file old)) (some (.file content))

namespace EntryChange

variable {written made written' made' : Prop} {a b c : Option Entry}

/-- What may happen where less is allowed may happen where more is. -/
theorem mono (h : EntryChange written made a b) (hwritten : written → written')
    (hmade : made → made') : EntryChange written' made' a b := by
  cases h with
  | same => exact .same _
  | directory h => exact .directory (hmade h)
  | newFile h content => exact .newFile (hwritten h) content
  | newContent h old content => exact .newContent (hwritten h) old content

/-- Two changes of an entry come to one. -/
theorem trans (hab : EntryChange written made a b) (hbc : EntryChange written made b c) :
    EntryChange written made a c := by
  cases hab with
  | same => exact hbc
  | directory h =>
    cases hbc with
    | same => exact .directory h
  | newFile h content =>
    cases hbc with
    | same => exact .newFile h content
    | newContent h old content => exact .newFile h content
  | newContent h old content =>
    cases hbc with
    | same => exact .newContent h old content
    | newContent h _ content => exact .newContent h old content

end EntryChange

namespace FileStore

/-- The store grew: files were written only where `written` allows it, and directories made only
where `made` does. A file system stays one. -/
structure Grows (written made : Location → Prop) (before after : FileStore) : Prop where
  workingDirectory : after.workingDirectory = before.workingDirectory
  change : ∀ location, EntryChange (written location) (made location) (before.get? location)
    (after.get? location)
  wellFormed : before.WellFormed → after.WellFormed

namespace Grows

variable {written made written' made' : Location → Prop} {a b c : FileStore} {location : Location}
  {entry : Entry} {content : ByteArray} {target : Path}

/-- A store that stays as it is has grown. -/
theorem refl (written made : Location → Prop) (store : FileStore) :
    Grows written made store store :=
  ⟨rfl, fun _ => .same _, id⟩

/-- A store that has grown twice has grown. -/
theorem trans (hab : Grows written made a b) (hbc : Grows written made b c) :
    Grows written made a c :=
  ⟨hbc.workingDirectory.trans hab.workingDirectory,
    fun location => (hab.change location).trans (hbc.change location),
    fun h => hbc.wellFormed (hab.wellFormed h)⟩

/-- What is written and made where less is allowed may be where more is. -/
theorem mono (h : Grows written made a b)
    (hwritten : ∀ location, written location → written' location)
    (hmade : ∀ location, made location → made' location) : Grows written' made' a b :=
  ⟨h.workingDirectory,
    fun location => (h.change location).mono (hwritten location) (hmade location), h.wellFormed⟩

/-- Directories are made where there is nothing. -/
theorem restrict (h : Grows written made a b)
    (hmade : ∀ location, made location → a.get? location = none → made' location) :
    Grows written made' a b := by
  refine ⟨h.workingDirectory, fun location => ?_, h.wellFormed⟩
  have hchange := h.change location
  have hnone := hmade location
  generalize a.get? location = before, b.get? location = after at hchange hnone
  cases hchange with
  | same => exact .same _
  | directory h => exact .directory (hnone h rfl)
  | newFile h content => exact .newFile h content
  | newContent h old content => exact .newContent h old content

/-- Directories stay. -/
theorem directory (h : Grows written made a b) (ha : a.get? location = some .directory) :
    b.get? location = some .directory := by
  have hchange := h.change location
  rw [ha] at hchange
  generalize hb : b.get? location = after at hchange
  cases hchange
  rfl

/-- Links stay. -/
theorem link (h : Grows written made a b) (ha : a.get? location = some (.link target)) :
    b.get? location = some (.link target) := by
  have hchange := h.change location
  rw [ha] at hchange
  generalize hb : b.get? location = after at hchange
  cases hchange
  rfl

/-- Links stay, and no new ones are made. -/
theorem link_iff (h : Grows written made a b) :
    b.get? location = some (.link target) ↔ a.get? location = some (.link target) := by
  refine ⟨fun hb => ?_, h.link⟩
  have hchange := h.change location
  rw [hb] at hchange
  generalize ha : a.get? location = before at hchange
  cases hchange
  rfl

/-- Files stay, though their content may not. -/
theorem file (h : Grows written made a b) (ha : a.get? location = some (.file content)) :
    ∃ content', b.get? location = some (.file content') := by
  have hchange := h.change location
  rw [ha] at hchange
  generalize hb : b.get? location = after at hchange
  cases hchange with
  | same => exact ⟨content, rfl⟩
  | newContent _ _ content' => exact ⟨content', rfl⟩

/-- Outside of the two regions nothing changes. -/
theorem get?_eq (h : Grows written made a b) (hwritten : ¬ written location)
    (hmade : ¬ made location) : b.get? location = a.get? location := by
  have hchange := h.change location
  generalize a.get? location = before, b.get? location = after at hchange
  cases hchange with
  | same => rfl
  | directory h => exact absurd h hmade
  | newFile h => exact absurd h hwritten
  | newContent h => exact absurd h hwritten

/-- No file changes where none may be written. -/
theorem file_iff (h : Grows written made a b) (hwritten : ¬ written location) :
    b.get? location = some (.file content) ↔ a.get? location = some (.file content) := by
  have hchange := h.change location
  generalize a.get? location = before, b.get? location = after at hchange
  cases hchange with
  | same => rfl
  | directory => simp
  | newFile h => exact absurd h hwritten
  | newContent h => exact absurd h hwritten

/-- A kind of entry that is there stays, and nothing new appears where files are only overwritten
and no directory is made. -/
theorem kind_eq (h : Grows written made a b)
    (hwritten : written location → ∃ content, a.get? location = some (.file content))
    (hmade : ¬ made location) :
    (b.get? location).map Entry.kind = (a.get? location).map Entry.kind := by
  have hchange := h.change location
  generalize a.get? location = before, b.get? location = after at hchange hwritten
  cases hchange with
  | same => rfl
  | directory h => exact absurd h hmade
  | newFile h =>
    obtain ⟨content, hcontent⟩ := hwritten h
    cases hcontent
  | newContent => rfl

end Grows

/-! ### Single entries -/

section put

variable {store : FileStore} {directory : Location} {name : String} {content : ByteArray}

/-- A store grows by an entry in a directory, if the entry may change like this. -/
theorem grows_put {written made : Location → Prop} {entry : Entry}
    (hproper : (directory ++ [name]).Proper) (hparent : store.get? directory = some .directory)
    (hchange : EntryChange (written (directory ++ [name])) (made (directory ++ [name]))
      (store.get? (directory ++ [name])) (some entry)) :
    store.Grows written made (store.put (directory ++ [name]) entry) := by
  refine ⟨rfl, ?_, fun h => h.put hproper hparent ?_⟩
  · intro location
    by_cases heq : location = directory ++ [name]
    · subst heq
      rw [get?_put_self _ (by simp)]
      exact hchange
    · rw [get?_put_of_ne _ heq]
      exact .same _
  · intro hdirectory
    rw [hdirectory] at hchange
    generalize hentry : some entry = after at hchange
    cases hchange
    exact Option.some.inj hentry

end put

/-! ### Links -/

/-- There are no symbolic links. -/
def NoLinks (store : FileStore) : Prop :=
  ∀ location target, store.get? location ≠ some (.link target)

/-- There is no link on the way down to a location, itself included. -/
def Clear (store : FileStore) (location : Location) : Prop :=
  ∀ place, place <+: location → ∀ target, store.get? place ≠ some (.link target)

section links

variable {store after : FileStore} {written made : Location → Prop} {location place : Location}
  {entry : Entry}

/-- Whether there are links can be seen from the entries. -/
theorem noLinks_of_entries (h : store.entries.all fun item => item.2.kind ≠ .link) :
    store.NoLinks := by
  intro location target hlink
  by_cases hnil : location = []
  · subst hnil
    cases hlink
  · have hkind := List.all_eq_true.mp h _ (mem_entries_of_get? hnil hlink)
    simp [Entry.kind] at hkind

/-- Without any links, there are none on the way to a location. -/
theorem NoLinks.clear (h : store.NoLinks) (location : Location) : store.Clear location :=
  fun place _ target => h place target

/-- A store that grows gets no links. -/
theorem Grows.noLinks (hgrows : store.Grows written made after) (h : store.NoLinks) :
    after.NoLinks :=
  fun location target hlink => h location target (hgrows.link_iff.mp hlink)

/-- No link gets in the way while a store grows. -/
theorem Grows.clear (hgrows : store.Grows written made after) (h : store.Clear location) :
    after.Clear location :=
  fun place hplace target hlink => h place hplace target (hgrows.link_iff.mp hlink)

/-- The way to a location leads past the locations above it. -/
theorem Clear.of_isPrefix (h : store.Clear location) (hpre : place <+: location) :
    store.Clear place :=
  fun other hother => h other (hother.trans hpre)

/-- The way to a file or a directory leads through directories, so there is no link on it. -/
theorem clear_of_get? (h : store.WellFormed) (hentry : store.get? location = some entry)
    (hkind : entry.kind ≠ .link) : store.Clear location := by
  intro place hplace target hlink
  by_cases heq : place = location
  · subst heq
    rw [hentry] at hlink
    cases hlink
    exact hkind rfl
  · rw [h.get?_of_isPrefix hplace heq hentry] at hlink
    cases hlink

end links

end FileStore

end Retouch
