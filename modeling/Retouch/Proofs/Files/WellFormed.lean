import Mathlib.Data.List.Nodup
import Mathlib.Data.List.Perm.Subperm
import Retouch.Proofs.Files.Spelling

/-!
# Stores that are file systems

A store is a list of entries by location, and not every such list is a file system. It is one
(`FileStore.WellFormed`) when no location has two entries, all names are proper, every entry stands
in a directory, and the working directory is one.

What follows from that, and is all that later files use:

* an entry stands below directories only (`get?_of_append`), and its names are proper;
* the listing of a directory has exactly the entries in it, each name once (`mem_list_iff`,
  `nodup_map_fst_list`), and which names and kinds it shows depends on nothing else
  (`shape_eq_of_get?`);
* no way down is longer than the store has entries (`length_le_of_get?`);
* putting an entry into a directory makes no mess, as long as no directory is replaced (`put`).
-/

namespace Retouch

/-- What kind of entry stands at a location. -/
inductive EntryKind where
  | file
  | directory
  | link
deriving DecidableEq

/-- The kind of an entry. -/
def Entry.kind : Entry → EntryKind
  | .file _ => .file
  | .directory => .directory
  | .link _ => .link

namespace FileStore

variable {store : FileStore} {location place directory : Location} {entry : Entry} {name : String}

/-- The store is a file system. -/
structure WellFormed (store : FileStore) : Prop where
  distinct : store.locations.Nodup
  proper : ∀ location ∈ store.locations, location.Proper
  housed : ∀ location ∈ store.locations,
    location ≠ [] ∧ store.get? location.dropLast = some .directory
  working : store.get? store.workingDirectory = some .directory

instance (store : FileStore) : Decidable store.WellFormed :=
  decidable_of_iff
    (store.locations.Nodup ∧ (∀ location ∈ store.locations, location.Proper) ∧
      (∀ location ∈ store.locations,
        location ≠ [] ∧ store.get? location.dropLast = some .directory) ∧
      store.get? store.workingDirectory = some .directory)
    ⟨fun ⟨a, b, c, d⟩ => ⟨a, b, c, d⟩, fun ⟨a, b, c, d⟩ => ⟨a, b, c, d⟩⟩

/-! ### Entries -/

/-- The root is a directory that is always there. -/
@[simp] theorem get?_root (store : FileStore) : store.get? [] = some .directory := rfl

/-- Everything but the root is among the entries. -/
theorem get?_of_ne (hne : location ≠ []) : store.get? location = store.entries.lookup location := by
  rw [get?, if_neg hne]

/-- What is found is among the entries. -/
theorem mem_entries_of_get? (hne : location ≠ []) (h : store.get? location = some entry) :
    (location, entry) ∈ store.entries := by
  rw [get?_of_ne hne] at h
  obtain ⟨before, after, hentries, -⟩ := List.lookup_eq_some_iff.mp h
  rw [hentries]
  exact List.mem_append_right _ List.mem_cons_self

/-- Where something is found, there is an entry. -/
theorem mem_locations_of_get? (hne : location ≠ []) (h : store.get? location = some entry) :
    location ∈ store.locations :=
  List.mem_map_of_mem (mem_entries_of_get? hne h)

namespace WellFormed

/-- The root is not among the entries. -/
theorem ne_nil_of_mem (h : store.WellFormed) (hmem : (location, entry) ∈ store.entries) :
    location ≠ [] :=
  (h.housed location (List.mem_map_of_mem hmem)).1

/-- What a store has at a location is what its list of entries has there. -/
theorem get?_of_mem (h : store.WellFormed) (hmem : (location, entry) ∈ store.entries) :
    store.get? location = some entry := by
  rw [get?_of_ne (h.ne_nil_of_mem hmem), List.lookup_eq_some_iff]
  obtain ⟨before, after, hentries⟩ := List.append_of_mem hmem
  refine ⟨before, after, hentries, ?_⟩
  intro other hother
  have hdistinct := h.distinct
  rw [locations, hentries, List.map_append, List.map_cons, List.nodup_append] at hdistinct
  have hne := hdistinct.2.2 other.1 (List.mem_map_of_mem hother) location List.mem_cons_self
  simpa using Ne.symm hne

/-- In a file system, what is found is what is among the entries. -/
theorem get?_eq_some_iff (h : store.WellFormed) (hne : location ≠ []) :
    store.get? location = some entry ↔ (location, entry) ∈ store.entries :=
  ⟨mem_entries_of_get? hne, h.get?_of_mem⟩

/-- In a file system, there are entries at proper locations only. -/
theorem proper_of_get? (h : store.WellFormed) (hentry : store.get? location = some entry) :
    location.Proper := by
  by_cases hnil : location = []
  · exact hnil ▸ Location.Proper.nil
  · exact h.proper location (mem_locations_of_get? hnil hentry)

/-- In a file system, entries have proper names. -/
theorem properName_of_get? (h : store.WellFormed)
    (hentry : store.get? (directory ++ [name]) = some entry) : ProperName name :=
  Location.proper_singleton.mp (Location.proper_append.mp (h.proper_of_get? hentry)).2

/-- In a file system, every entry is in a directory. -/
theorem get?_parent (h : store.WellFormed)
    (hentry : store.get? (directory ++ [name]) = some entry) :
    store.get? directory = some .directory := by
  have hmem := mem_locations_of_get? (by simp) hentry
  simpa using (h.housed _ hmem).2

/-- Above a directory there is a directory; the root stands for its own. -/
theorem get?_dropLast (h : store.WellFormed) (hentry : store.get? location = some .directory) :
    store.get? location.dropLast = some .directory := by
  rcases List.eq_nil_or_concat location with rfl | ⟨front, name, rfl⟩
  · rfl
  · rw [List.concat_eq_append] at hentry ⊢
    rw [List.dropLast_concat]
    exact h.get?_parent hentry

/-- Above an entry there are directories only. -/
theorem get?_of_append (h : store.WellFormed) {rest : Location} (hne : rest ≠ [])
    (hentry : store.get? (location ++ rest) = some entry) :
    store.get? location = some .directory := by
  induction rest generalizing location with
  | nil => exact absurd rfl hne
  | cons name others ih =>
    by_cases hothers : others = []
    · subst hothers
      exact h.get?_parent hentry
    · have hinside : store.get? (location ++ [name]) = some .directory := by
        refine ih hothers ?_
        rwa [List.append_assoc, List.singleton_append]
      exact h.get?_parent hinside

/-- In a file system, there are directories all the way down to an entry. -/
theorem get?_of_isPrefix (h : store.WellFormed) (hpre : place <+: location) (hne : place ≠ location)
    (hentry : store.get? location = some entry) : store.get? place = some .directory := by
  obtain ⟨rest, rfl⟩ := hpre
  refine h.get?_of_append ?_ hentry
  rintro rfl
  exact hne (List.append_nil place).symm

/-- The directory that an entry stands in and all above it are directories. -/
theorem get?_above (h : store.WellFormed) (hpre : place <+: directory)
    (hentry : store.get? (directory ++ [name]) = some entry) :
    store.get? place = some .directory := by
  by_cases heq : place = directory
  · rw [heq, h.get?_parent hentry]
  · exact h.get?_of_isPrefix hpre heq (h.get?_parent hentry)

/-- The locations on a way down from the root are entries, and all different. -/
theorem length_le_of_get? (h : store.WellFormed) (hentry : store.get? location = some entry) :
    location.length ≤ store.entries.length := by
  let above := (List.range location.length).map fun count => location.take (count + 1)
  have hlength : above.length = location.length := by simp [above]
  have hdistinct : above.Nodup := by
    refine List.Nodup.map_on ?_ List.nodup_range
    intro a ha b hb heq
    have hlengths := congrArg List.length heq
    rw [List.mem_range] at ha hb
    rw [List.length_take, List.length_take] at hlengths
    omega
  have hsubset : above ⊆ store.locations := by
    intro place hplace
    obtain ⟨count, hcount, rfl⟩ := List.mem_map.mp hplace
    rw [List.mem_range] at hcount
    have hne : location.take (count + 1) ≠ [] := by
      intro hnil
      have := congrArg List.length hnil
      rw [List.length_take, List.length_nil] at this
      omega
    by_cases hwhole : location.take (count + 1) = location
    · rw [hwhole] at hne ⊢
      exact mem_locations_of_get? hne hentry
    · exact mem_locations_of_get? hne
        (h.get?_of_isPrefix (List.take_prefix _ _) hwhole hentry)
  calc location.length = above.length := hlength.symm
    _ ≤ store.locations.length := (hdistinct.subperm hsubset).length_le
    _ = store.entries.length := List.length_map _

end WellFormed

/-! ### Listings -/

/-- The name that a location has in a directory, if it is in there. -/
def nameIn (directory place : Location) : Option String :=
  if place.dropLast = directory then place.getLast? else none

/-- A location is in a directory under a name if the name leads to it from there. -/
theorem nameIn_eq_some_iff : nameIn directory place = some name ↔ place = directory ++ [name] := by
  rw [nameIn]
  constructor
  · intro h
    split at h
    · rename_i hparent
      rw [← hparent]
      exact (List.dropLast_append_getLast? name h).symm
    · cases h
  · rintro rfl
    simp

/-- An entry is listed under the name that it has in the directory. -/
theorem listed_eq_map_nameIn (directory : Location) (item : Location × Entry) :
    (match item.1.getLast? with
      | some name => if item.1.dropLast = directory then some (name, item.2) else none
      | none => none) = (nameIn directory item.1).map fun name => (name, item.2) := by
  rw [nameIn]
  by_cases hparent : item.1.dropLast = directory
  · cases item.1.getLast? <;> simp [hparent]
  · cases item.1.getLast? <;> simp [hparent]

/-- To put an item in its place adds that item. -/
theorem insertByName_perm (item : String × Entry) (items : List (String × Entry)) :
    (insertByName item items).Perm (item :: items) := by
  induction items with
  | nil => exact .refl _
  | cons other rest ih =>
    unfold insertByName
    split
    · exact .refl _
    · exact (ih.cons other).trans (.swap item other rest)

/-- The entries of a directory before they are ordered. -/
theorem list_perm (store : FileStore) (directory : Location) :
    (store.list directory).Perm (store.entries.filterMap fun item =>
      (nameIn directory item.1).map fun name => (name, item.2)) := by
  have hperm : ∀ items : List (String × Entry), (items.foldr insertByName []).Perm items := by
    intro items
    induction items with
    | nil => exact .nil
    | cons item rest ih => exact (insertByName_perm item _).trans (ih.cons item)
  unfold list
  refine (hperm _).trans (.of_eq ?_)
  exact List.filterMap_congr fun item _ => listed_eq_map_nameIn directory item

/-- A directory lists the entries in it. -/
theorem mem_list_iff (h : store.WellFormed) :
    (name, entry) ∈ store.list directory ↔ store.get? (directory ++ [name]) = some entry := by
  rw [(store.list_perm directory).mem_iff, List.mem_filterMap, h.get?_eq_some_iff (by simp)]
  constructor
  · rintro ⟨⟨place, other⟩, hmem, hname⟩
    obtain ⟨name', hname', heq⟩ := Option.map_eq_some_iff.mp hname
    obtain ⟨rfl, rfl⟩ := Prod.mk.inj heq
    rwa [← nameIn_eq_some_iff.mp hname']
  · intro hmem
    refine ⟨(directory ++ [name], entry), hmem, ?_⟩
    dsimp only
    rw [nameIn_eq_some_iff.mpr rfl, Option.map_some]

/-- A listing shows each name once. -/
theorem nodup_map_fst_list (h : store.WellFormed) (directory : Location) :
    ((store.list directory).map Prod.fst).Nodup := by
  have hnames : (store.entries.filterMap fun item =>
      (nameIn directory item.1).map fun name => (name, item.2)).map Prod.fst =
      store.locations.filterMap (nameIn directory) := by
    rw [locations, List.filterMap_map, List.map_filterMap]
    refine List.filterMap_congr fun item _ => ?_
    rw [Option.map_map]
    exact Option.map_id'
  rw [((store.list_perm directory).map Prod.fst).nodup_iff, hnames]
  refine h.distinct.filterMap ?_
  intro a b name ha hb
  rw [nameIn_eq_some_iff.mp ha, nameIn_eq_some_iff.mp hb]

/-- To put an item in its place keeps the order of names. -/
theorem pairwise_insertByName (item : String × Entry) {items : List (String × Entry)}
    (h : items.Pairwise fun a b => a.1 ≤ b.1) :
    (insertByName item items).Pairwise fun a b => a.1 ≤ b.1 := by
  induction h with
  | nil => exact List.pairwise_singleton _ _
  | @cons other rest hother hrest ih =>
    unfold insertByName
    split
    · rename_i hle
      refine .cons ?_ (.cons hother hrest)
      intro later hlater
      rcases List.mem_cons.mp hlater with rfl | hlater
      · exact hle
      · exact String.le_trans hle (hother later hlater)
    · rename_i hnle
      refine .cons ?_ ih
      intro later hlater
      rcases List.mem_cons.mp ((insertByName_perm item rest).mem_iff.mp hlater) with rfl | hlater
      · exact (String.le_total _ _).resolve_left hnle
      · exact hother later hlater

/-- A directory is listed in the order of names. -/
theorem pairwise_list (store : FileStore) (directory : Location) :
    (store.list directory).Pairwise fun a b => a.1 ≤ b.1 := by
  have hsorted : ∀ items : List (String × Entry),
      (items.foldr insertByName []).Pairwise fun a b => a.1 ≤ b.1 := by
    intro items
    induction items with
    | nil => exact .nil
    | cons item rest ih => exact pairwise_insertByName item ih
  exact hsorted _

/-- What a directory looks like from outside: the names in it, in order, and their kinds. -/
def shape (store : FileStore) (directory : Location) : List (String × EntryKind) :=
  (store.list directory).map fun item => (item.1, item.2.kind)

/-- The shape of a directory has the names in it with the kinds of their entries. -/
theorem mem_shape_iff (h : store.WellFormed) {kind : EntryKind} :
    (name, kind) ∈ store.shape directory ↔
      (store.get? (directory ++ [name])).map Entry.kind = some kind := by
  rw [shape, List.mem_map, Option.map_eq_some_iff]
  constructor
  · rintro ⟨⟨other, entry⟩, hmem, heq⟩
    obtain ⟨rfl, rfl⟩ := Prod.mk.inj heq
    exact ⟨entry, (mem_list_iff h).mp hmem, rfl⟩
  · rintro ⟨entry, hentry, rfl⟩
    exact ⟨(name, entry), (mem_list_iff h).mpr hentry, rfl⟩

/-- No two entries of a directory have the same name. -/
theorem pairwise_ne_shape (h : store.WellFormed) (directory : Location) :
    (store.shape directory).Pairwise fun a b => a.1 ≠ b.1 := by
  rw [shape, List.pairwise_map]
  exact List.pairwise_map.mp (nodup_map_fst_list h directory)

/-- Each entry of a directory is listed once. -/
theorem nodup_shape (h : store.WellFormed) (directory : Location) :
    (store.shape directory).Nodup :=
  (pairwise_ne_shape h directory).imp fun hne heq => hne (congrArg Prod.fst heq)

/-- The shape of a directory is in the order of names. -/
theorem pairwise_shape (store : FileStore) (directory : Location) :
    (store.shape directory).Pairwise fun a b => a.1 ≤ b.1 := by
  rw [shape, List.pairwise_map]
  exact pairwise_list store directory

/-- Two directories that hold entries of the same kinds under the same names look the same. -/
theorem shape_eq_of_get? {other : FileStore} (h : store.WellFormed) (hother : other.WellFormed)
    (hkinds : ∀ name, (store.get? (directory ++ [name])).map Entry.kind =
      (other.get? (directory ++ [name])).map Entry.kind) :
    store.shape directory = other.shape directory := by
  have hperm : (store.shape directory).Perm (other.shape directory) := by
    rw [List.perm_ext_iff_of_nodup (nodup_shape h directory) (nodup_shape hother directory)]
    rintro ⟨name, kind⟩
    rw [mem_shape_iff h, mem_shape_iff hother, hkinds]
  refine hperm.eq_of_pairwise ?_ (pairwise_shape store directory) (pairwise_shape other directory)
  rintro ⟨name, kind⟩ ⟨name', kind'⟩ hmem hmem' hle hge
  obtain rfl : name = name' := String.le_antisymm hle hge
  rw [mem_shape_iff h, hkinds] at hmem
  rw [mem_shape_iff hother, hmem] at hmem'
  rw [Option.some.inj hmem']

/-! ### Putting an entry -/

/-- To put an entry adds its location at the end, unless there is an entry at it. -/
theorem locations_putIn (location : Location) (entry : Entry) (entries : List (Location × Entry)) :
    (putIn location entry entries).map Prod.fst =
      if location ∈ entries.map Prod.fst then entries.map Prod.fst
      else entries.map Prod.fst ++ [location] := by
  induction entries with
  | nil => simp [putIn]
  | cons head rest ih =>
    obtain ⟨place, old⟩ := head
    by_cases hplace : place = location
    · simp [putIn, hplace]
    · have hne : ¬ location = place := fun heq => hplace heq.symm
      rw [putIn, if_neg hplace, List.map_cons, ih, List.map_cons]
      simp only [List.mem_cons, hne, false_or]
      split <;> rfl

/-- After an entry was put, there are entries where there were, and at its location. -/
theorem mem_locations_put : place ∈ (store.put location entry).locations ↔
    place ∈ store.locations ∨ place = location := by
  rw [locations, put, locations_putIn, locations]
  split
  · rename_i hmem
    exact ⟨.inl, fun h => h.elim id fun heq => heq ▸ hmem⟩
  · rw [List.mem_append, List.mem_singleton]

/-- An entry may be put into a directory, if it does not take the place of a directory. -/
theorem WellFormed.put (h : store.WellFormed) (hproper : (directory ++ [name]).Proper)
    (hparent : store.get? directory = some .directory)
    (hkept : store.get? (directory ++ [name]) = some .directory → entry = .directory) :
    (store.put (directory ++ [name]) entry).WellFormed := by
  -- directories stay directories, so all that was housed still is
  have hdirectory : ∀ place, store.get? place = some .directory →
      (store.put (directory ++ [name]) entry).get? place = some .directory := by
    intro place hplace
    by_cases heq : place = directory ++ [name]
    · subst heq
      rw [get?_put_self _ (by simp), hkept hplace]
    · rw [get?_put_of_ne _ heq, hplace]
  refine ⟨?_, ?_, ?_, hdirectory _ h.working⟩
  · rw [locations, FileStore.put, locations_putIn]
    split
    · exact h.distinct
    · rename_i hfresh
      exact List.nodup_append.mpr ⟨h.distinct, List.nodup_singleton _, by
        intro a ha b hb
        rw [List.mem_singleton] at hb
        rintro rfl
        exact hfresh (hb ▸ ha)⟩
  · intro place hplace
    rcases mem_locations_put.mp hplace with hplace | rfl
    · exact h.proper place hplace
    · exact hproper
  · intro place hplace
    rcases mem_locations_put.mp hplace with hplace | rfl
    · exact ⟨(h.housed place hplace).1, hdirectory _ (h.housed place hplace).2⟩
    · refine ⟨by simp, hdirectory _ ?_⟩
      rw [List.dropLast_concat]
      exact hparent

end FileStore

end Retouch
