import Retouch.Proofs.Files.Following
import Retouch.Run.Transformer

/-!
# The files that a walk takes up

A walk through a directory prunes: what is ignored is left out with everything below it. `itinerary`
lists the files that it comes to in a store that stays as it is. Pruning on the way is the same as
asking for every file whether it is ignored (`mem_itinerary_iff`), because an ignored directory
covers all that is below it (`IgnoreSet.covers_of_isPrefix`).

The walk goes depth first and takes the entries of a directory by name, so it comes to the files in
the order of their locations as lists of names (`pairwise_itinerary`). In particular no file is
listed twice (`nodup_itinerary`).
-/

namespace Retouch

variable {store : FileStore} {file location place directory : Location} {name : String}

namespace IgnoreSet

variable {ignored : IgnoreSet}

/-- Whether the set holds a location, or one above it. -/
def covers (ignored : IgnoreSet) (location : Location) : Bool :=
  ignored.paths.any location.toPath.beginsWith

/-- For the path of a location, to be ignored is to be covered. -/
theorem contains_toPath (h : store.WellFormed) (hproper : location.Proper)
    (hclear : store.Clear location) :
    ignored.contains store location.toPath = ignored.covers location := by
  rw [contains, FileStore.normalize_toPath h hproper hclear, covers]

/-- What is below an ignored location is ignored. -/
theorem covers_of_isPrefix (hproper : location.Proper) (hpre : place <+: location)
    (h : ignored.covers place = true) : ignored.covers location = true := by
  rw [covers, List.any_eq_true] at h ⊢
  obtain ⟨path, hpath, hbegins⟩ := h
  refine ⟨path, hpath, ?_⟩
  rw [Path.beginsWith, List.isPrefixOf_iff_prefix, Location.components_toPath hproper]
  rw [Path.beginsWith, List.isPrefixOf_iff_prefix,
    Location.components_toPath (hproper.of_isPrefix hpre)] at hbegins
  exact hbegins.trans (List.prefix_cons_inj _ |>.mpr (hpre.map _))

end IgnoreSet

open Transformer (WalkPlan)

/-- The files that a walk comes to at an entry, given those that it comes to in a directory. -/
def WalkPlan.stops (plan : WalkPlan) (below : Location → List Location) (place : Location) :
    EntryKind → List Location
  | .directory => below place
  | .file =>
    if plan.ignored.covers place then []
    else if place.toPath.hasExtension plan.extensions then [place]
    else []
  | .link => []

/-- The files that a walk comes to, at most `levels` levels down. -/
def itinerary (store : FileStore) (plan : WalkPlan) : (levels : Nat) → Location → List Location
  | 0, _ => []
  | levels + 1, directory =>
    if plan.ignored.covers directory then []
    else
      (store.shape directory).flatMap fun item =>
        WalkPlan.stops plan (itinerary store plan levels) (directory ++ [item.1]) item.2

/-- A walk takes up a file: it has one of the extensions and is not ignored. -/
structure WalkPlan.Takes (plan : WalkPlan) (store : FileStore) (file : Location) : Prop where
  isFile : ∃ content, store.get? file = some (.file content)
  extension : file.toPath.hasExtension plan.extensions = true
  free : plan.ignored.covers file = false

/-- A walk through a directory takes up a file that is somewhere in it. -/
def WalkPlan.Lists (plan : WalkPlan) (store : FileStore) (directory file : Location) : Prop :=
  ∃ rest, rest ≠ [] ∧ file = directory ++ rest ∧ WalkPlan.Takes plan store file

variable {plan : WalkPlan} {levels : Nat}

/-- What is taken up in a directory is taken up in the directories above. -/
theorem WalkPlan.Lists.of_append {relative : Location}
    (h : WalkPlan.Lists plan store (directory ++ relative) file) :
    WalkPlan.Lists plan store directory file := by
  obtain ⟨rest, hrest, rfl, htakes⟩ := h
  exact ⟨relative ++ rest, by simp [hrest], by simp, htakes⟩

/-- At a file, the walk stops if the file is neither ignored nor of another extension. -/
theorem WalkPlan.mem_stops_file {below : Location → List Location} :
    file ∈ WalkPlan.stops plan below place .file ↔
      file = place ∧ plan.ignored.covers place = false ∧
        place.toPath.hasExtension plan.extensions = true := by
  rw [stops]
  split
  · rename_i hcovered
    simp [hcovered]
  · rename_i hfree
    split
    · rename_i hextension
      simp [hfree, hextension]
    · rename_i hextension
      simp [hextension]

/-- The walk comes only to files that it takes up. -/
theorem lists_of_mem_itinerary (h : store.WellFormed)
    (hmem : file ∈ itinerary store plan levels directory) :
    WalkPlan.Lists plan store directory file := by
  induction levels generalizing directory with
  | zero => cases hmem
  | succ levels ih =>
    rw [itinerary] at hmem
    split at hmem
    case isTrue => cases hmem
    case isFalse =>
      obtain ⟨⟨name, kind⟩, hshape, hfile⟩ := List.mem_flatMap.mp hmem
      rw [FileStore.mem_shape_iff h, Option.map_eq_some_iff] at hshape
      obtain ⟨entry, hentry, rfl⟩ := hshape
      cases entry with
      | directory =>
        obtain ⟨rest, -, rfl, htakes⟩ := ih hfile
        exact ⟨name :: rest, List.cons_ne_nil _ _, by simp, htakes⟩
      | link target => cases hfile
      | file content =>
        obtain ⟨rfl, hfree, hextension⟩ := WalkPlan.mem_stops_file.mp hfile
        exact ⟨[name], List.cons_ne_nil _ _, rfl, ⟨content, hentry⟩, hextension, hfree⟩

/-- The walk comes to every file that it takes up, if it goes down far enough. -/
theorem mem_itinerary (h : store.WellFormed) {rest : Location} (hrest : rest ≠ [])
    (hlevels : rest.length ≤ levels) (htakes : WalkPlan.Takes plan store (directory ++ rest)) :
    directory ++ rest ∈ itinerary store plan levels directory := by
  induction levels generalizing directory rest with
  | zero => exact absurd (List.length_eq_zero_iff.mp (Nat.le_zero.mp hlevels)) hrest
  | succ levels ih =>
    obtain ⟨content, hcontent⟩ := htakes.isFile
    have hfree : ¬ plan.ignored.covers directory = true := by
      intro hcovered
      have hfile := IgnoreSet.covers_of_isPrefix (h.proper_of_get? hcontent)
        (List.prefix_append _ _) hcovered
      rw [htakes.free] at hfile
      cases hfile
    rw [itinerary, if_neg hfree]
    obtain ⟨name, others, rfl⟩ := List.exists_cons_of_ne_nil hrest
    rw [List.append_cons] at htakes hcontent ⊢
    by_cases hothers : others = []
    · subst hothers
      rw [List.append_nil] at *
      refine List.mem_flatMap.mpr ⟨(name, .file), (FileStore.mem_shape_iff h).mpr ?_, ?_⟩
      · rw [hcontent]
        rfl
      · exact WalkPlan.mem_stops_file.mpr ⟨rfl, htakes.free, htakes.extension⟩
    · refine List.mem_flatMap.mpr ⟨(name, .directory), (FileStore.mem_shape_iff h).mpr ?_, ?_⟩
      · rw [h.get?_of_append hothers hcontent]
        rfl
      · exact ih hothers (Nat.le_of_succ_le_succ hlevels) htakes

/-- In a walk that goes deep enough, pruning leaves out exactly the files that are ignored. -/
theorem mem_itinerary_iff (h : store.WellFormed) (hlevels : store.entries.length ≤ levels) :
    file ∈ itinerary store plan levels directory ↔ WalkPlan.Lists plan store directory file := by
  refine ⟨lists_of_mem_itinerary h, ?_⟩
  rintro ⟨rest, hrest, rfl, htakes⟩
  obtain ⟨content, hcontent⟩ := htakes.isFile
  have hlength := h.length_le_of_get? hcontent
  rw [List.length_append] at hlength
  exact mem_itinerary h hrest (by omega) htakes

/-! ### The order of a walk -/

/-- The files that a walk comes to at an entry are that entry or below it. -/
theorem WalkPlan.isPrefix_of_mem_stops (h : store.WellFormed) {kind : EntryKind}
    (hfile : file ∈ WalkPlan.stops plan (itinerary store plan levels) place kind) :
    place <+: file := by
  cases kind with
  | directory =>
    obtain ⟨rest, -, rfl, -⟩ := lists_of_mem_itinerary h hfile
    exact List.prefix_append _ _
  | link => cases hfile
  | file =>
    obtain ⟨rfl, -⟩ := WalkPlan.mem_stops_file.mp hfile
    exact List.prefix_rfl

/-- What is at or below one entry of a directory comes before what is at or below a later one. -/
theorem Location.lt_of_isPrefix {first second : String} {other : Location} (hlt : first < second)
    (hfile : directory ++ [first] <+: file) (hother : directory ++ [second] <+: other) :
    file < other := by
  obtain ⟨rest, rfl⟩ := hfile
  obtain ⟨rest', rfl⟩ := hother
  rw [List.append_assoc, List.append_assoc]
  apply List.append_left_lt
  exact List.cons_lt_cons_iff.mpr (.inl hlt)

/-- A walk comes to the files in the order of their names, the names of directories included. -/
theorem pairwise_itinerary (h : store.WellFormed) (plan : WalkPlan) (levels : Nat)
    (directory : Location) : (itinerary store plan levels directory).Pairwise (· < ·) := by
  induction levels generalizing directory with
  | zero => exact .nil
  | succ levels ih =>
    rw [itinerary]
    split
    · exact .nil
    · apply List.pairwise_flatMap.mpr
      constructor
      · rintro ⟨name, kind⟩ -
        cases kind with
        | directory => exact ih _
        | link => exact .nil
        | file =>
          simp only [WalkPlan.stops]
          split
          · exact .nil
          · split
            · exact List.pairwise_singleton _ _
            · exact .nil
      · -- the entries are in order, and no name is there twice
        have hordered := (FileStore.pairwise_shape store directory).and
          (FileStore.pairwise_ne_shape h directory)
        refine hordered.imp ?_
        intro a b hab file hfile other hother
        exact Location.lt_of_isPrefix (Std.lt_of_le_of_ne hab.1 hab.2)
          (WalkPlan.isPrefix_of_mem_stops h hfile) (WalkPlan.isPrefix_of_mem_stops h hother)

/-- The walk comes to each file at most once. -/
theorem nodup_itinerary (h : store.WellFormed) (plan : WalkPlan) (levels : Nat)
    (directory : Location) : (itinerary store plan levels directory).Nodup := by
  refine (pairwise_itinerary h plan levels directory).imp ?_
  rintro file _ hlt rfl
  exact List.lt_irrefl file hlt

end Retouch
