import Retouch.Files.Access
import Retouch.Proofs.Files.Growth

/-!
# Paths of locations

A run makes up paths from locations, and it looks them up again. Such a path leads to its own
location, as long as no link is on the way there: an entry that the path leads to is the one at the
location (`entryAt?_toPath`), the path is in normal form (`normalize_toPath`), and what is written
to it goes there (`writePlace_toPath`). The only thing that can go wrong is that the path as a whole
is too long (`Reachable`).
-/

namespace Retouch.FileStore

variable {store : FileStore} {writing : Bool}
  {expand : Location → List PathStep → Except OsError Destination}
  {base location place names : Location} {name : String} {destination : Destination}

/-! ### Along names -/

/-- Without a step one stays where one is. -/
theorem followWith_nil : store.followWith writing expand location [] = .ok (.present location) := by
  rw [followWith]

/-- Names are not a slash at the end. -/
theorem map_name_ne_slash (names : Location) : names.map PathStep.name ≠ [.slash] := by
  cases names with
  | nil => exact List.cons_ne_nil _ _ |>.symm
  | cons name rest =>
    intro heq
    cases (List.cons.inj heq).1

/-- One name on the way to a location that no link blocks. -/
theorem followWith_name (hbase : store.get? base = some .directory)
    (hshort : name.utf8ByteSize ≤ nameLimit)
    (hclear : ∀ target, store.get? (base ++ [name]) ≠ some (.link target)) (names : Location) :
    store.followWith writing expand base (.name name :: names.map .name) =
      if (store.get? (base ++ [name])).isSome then
        store.followWith writing expand (base ++ [name]) (names.map .name)
      else if names = [] then .ok (.absent base name) else .error .noEntry := by
  rw [followWith, if_pos (by simp [isDirectoryAt, hbase])]
  simp only [map_name_ne_slash, decide_false, Bool.and_false, Bool.false_eq_true, if_false,
    Nat.not_lt.mpr hshort]
  cases hentry : store.get? (base ++ [name]) with
  | none => simp
  | some entry =>
    cases entry with
    | file content => rfl
    | directory => rfl
    | link target => exact absurd hentry (hclear target)

/-- Names lead straight down to an entry, if no link is on the way. -/
theorem followWith_of_isSome (h : store.WellFormed) (base : Location)
    (hclear : store.Clear (base ++ names)) (hproper : names.Proper)
    (hentry : (store.get? (base ++ names)).isSome) :
    store.followWith writing expand base (names.map .name) = .ok (.present (base ++ names)) := by
  induction names generalizing base with
  | nil => rw [List.append_nil, List.map_nil, followWith_nil]
  | cons name rest ih =>
    have hsplit : base ++ name :: rest = (base ++ [name]) ++ rest := by simp
    rw [hsplit] at hclear hentry ⊢
    obtain ⟨entry, hentry'⟩ := Option.isSome_iff_exists.mp hentry
    have hbase : store.get? base = some .directory :=
      h.get?_of_append (List.cons_ne_nil name rest) (by rw [hsplit]; exact hentry')
    have hfirst : (store.get? (base ++ [name])).isSome := by
      by_cases hrest : rest = []
      · subst hrest
        simpa using hentry
      · rw [h.get?_of_append hrest hentry', Option.isSome_some]
    rw [List.map_cons, followWith_name hbase (hproper name List.mem_cons_self).short
      (hclear _ (List.prefix_append _ _)), if_pos hfirst]
    exact ih _ hclear (fun other hother => hproper other (List.mem_cons_of_mem _ hother)) hentry

/-- Where names lead that no link blocks: to the location that they make up, or to a place for it in
a directory. -/
theorem followWith_cases (base : Location) (hclear : store.Clear (base ++ names))
    (hproper : names.Proper)
    (h : store.followWith writing expand base (names.map .name) = .ok destination) :
    (destination = .present (base ++ names) ∧
      (names ≠ [] → (store.get? (base ++ names)).isSome)) ∨
    ∃ front last, names = front ++ [last] ∧ destination = .absent (base ++ front) last ∧
      store.get? (base ++ front) = some .directory ∧ store.get? (base ++ names) = none := by
  induction names generalizing base with
  | nil =>
    rw [List.map_nil, followWith_nil] at h
    refine .inl ⟨?_, fun hne => absurd rfl hne⟩
    rw [List.append_nil]
    exact (Except.ok.inj h).symm
  | cons name rest ih =>
    have hsplit : base ++ name :: rest = (base ++ [name]) ++ rest := by simp
    have hbase : store.get? base = some .directory := by
      by_contra hnone
      rw [List.map_cons, followWith, if_neg (by simpa [isDirectoryAt] using hnone)] at h
      cases h
    rw [hsplit] at hclear ⊢
    rw [List.map_cons, followWith_name hbase (hproper name List.mem_cons_self).short
      (hclear _ (List.prefix_append _ _))] at h
    split at h
    · rename_i hfirst
      rcases ih _ hclear (fun other hother => hproper other (List.mem_cons_of_mem _ hother)) h with
        ⟨hpresent, hsome⟩ | ⟨front, last, rfl, habsent, hparent, hnone⟩
      · refine .inl ⟨hpresent, fun _ => ?_⟩
        by_cases hrest : rest = []
        · subst hrest
          simpa using hfirst
        · exact hsome hrest
      · exact .inr ⟨name :: front, last, rfl, by simpa using habsent, by simpa using hparent, hnone⟩
    -- only the last name may be missing
    · rename_i hfirst
      split at h
      · rename_i hrest
        subst hrest
        refine .inr ⟨[], name, rfl, ?_, ?_, ?_⟩
        · rw [List.append_nil]
          exact (Except.ok.inj h).symm
        · rw [List.append_nil, hbase]
        · simpa using hfirst
      · cases h

/-- Whatever the number of links, steps are followed in the same way up to the first link. -/
theorem exists_followSteps_eq (store : FileStore) (writing : Bool) (links : Nat) :
    ∃ expand, store.followSteps writing links = store.followWith writing expand := by
  cases links with
  | zero => exact ⟨_, rfl⟩
  | succ links => exact ⟨_, rfl⟩

/-! ### Paths of locations -/

/-- The path of the location is short enough to be used. -/
def Reachable (location : Location) : Prop :=
  location.toPath.raw.utf8ByteSize < pathLimit

instance (location : Location) : Decidable (Reachable location) :=
  inferInstanceAs (Decidable (_ < _))

/-- The path of a location starts at the root, and it can be followed if it is short enough. -/
theorem follow_toPath (hproper : location.Proper) (steps : List PathStep) :
    store.follow writing location.toPath steps =
      if Reachable location then (store.followSteps writing linkLimit [] steps).mapError .system
      else .error (.system .nameTooLong) := by
  rw [follow, Location.holdsNul_toPath hproper, if_neg Bool.false_ne_true, startOf,
    if_pos (Location.isAbsolute_toPath location)]
  by_cases hlong : pathLimit ≤ location.toPath.raw.utf8ByteSize
  · rw [if_pos hlong, if_neg (show ¬ Reachable location from Nat.not_lt.mpr hlong)]
  · rw [if_neg hlong, if_neg (Location.raw_toPath_ne_empty location),
      if_pos (show Reachable location from Nat.lt_of_not_le hlong)]

/-- Where the path of a location leads, if no link is on the way. -/
theorem follow_toPath_cases (hproper : location.Proper) (hclear : store.Clear location)
    (h : store.follow writing location.toPath location.toPath.steps = .ok destination) :
    Reachable location ∧
      ((destination = .present location ∧ (store.get? location).isSome) ∨
        ∃ front last, location = front ++ [last] ∧ destination = .absent front last ∧
          store.get? front = some .directory ∧ store.get? location = none) := by
  rw [follow_toPath hproper, Location.steps_toPath hproper] at h
  by_cases hreach : Reachable location
  · refine ⟨hreach, ?_⟩
    obtain ⟨expand, hexpand⟩ := exists_followSteps_eq store writing linkLimit
    rw [if_pos hreach, hexpand] at h
    cases hfollow : store.followWith writing expand [] (location.map .name) with
    | error error =>
      rw [hfollow] at h
      cases h
    | ok reached =>
      rw [hfollow] at h
      cases h
      rcases followWith_cases [] hclear hproper hfollow with ⟨hpresent, hsome⟩ | habsent
      · refine .inl ⟨hpresent, ?_⟩
        by_cases hnil : location = []
        · rw [hnil, get?_root, Option.isSome_some]
        · exact hsome hnil
      · exact .inr habsent
  · rw [if_neg hreach] at h
    cases h

/-- Names lead to the location that they make up if it holds an entry. -/
theorem followSteps_of_isSome (h : store.WellFormed) (hclear : store.Clear location)
    (hentry : (store.get? location).isSome) (links : Nat) :
    store.followSteps writing links [] (location.map .name) = .ok (.present location) := by
  obtain ⟨entry, hentry'⟩ := Option.isSome_iff_exists.mp hentry
  obtain ⟨expand, hexpand⟩ := exists_followSteps_eq store writing links
  rw [hexpand]
  exact followWith_of_isSome h [] hclear (h.proper_of_get? hentry') hentry

/-- The path of a location leads to its entry, if no link is on the way. -/
theorem locate_toPath (h : store.WellFormed) (hproper : location.Proper)
    (hclear : store.Clear location) (hreach : Reachable location)
    (hentry : (store.get? location).isSome) : store.locate location.toPath = .ok location := by
  rw [locate, Location.steps_toPath hproper, follow_toPath hproper, if_pos hreach,
    followSteps_of_isSome h hclear hentry]
  rfl

/-- The path of a location leads nowhere else, if no link is on the way. -/
theorem eq_of_locate_toPath (hproper : location.Proper) (hclear : store.Clear location)
    (h : store.locate location.toPath = .ok place) :
    place = location ∧ Reachable location ∧ (store.get? location).isSome := by
  cases hfollow : store.follow false location.toPath location.toPath.steps with
  | error error =>
    rw [locate, hfollow] at h
    cases h
  | ok destination =>
    rw [locate, hfollow] at h
    obtain ⟨hreach, ⟨rfl, hsome⟩ | ⟨front, last, -, rfl, -⟩⟩ :=
      follow_toPath_cases hproper hclear hfollow
    · cases h
      exact ⟨rfl, hreach, hsome⟩
    · cases h

/-- Looking up the path of a location is looking up the location. -/
theorem entryAt?_toPath (h : store.WellFormed) (hproper : location.Proper)
    (hclear : store.Clear location) :
    store.entryAt? location.toPath = if Reachable location then store.get? location else none := by
  cases hlocate : store.locate location.toPath with
  | ok place =>
    obtain ⟨rfl, hreach, -⟩ := eq_of_locate_toPath hproper hclear hlocate
    rw [entryAt?, hlocate, if_pos hreach]
  | error error =>
    rw [entryAt?, hlocate]
    by_cases hreach : Reachable location
    · rw [if_pos hreach]
      cases hentry : store.get? location with
      | none => rfl
      | some entry =>
        rw [locate_toPath h hproper hclear hreach (by rw [hentry, Option.isSome_some])] at hlocate
        cases hlocate
    · rw [if_neg hreach]

/-- A path is that of a directory if it leads to one. -/
theorem isDirectory_iff {path : Path} :
    store.isDirectory path = true ↔ store.entryAt? path = some .directory := by
  rw [isDirectory]
  split
  · rename_i hentry
    simp [hentry]
  · rename_i hentry
    exact ⟨fun h => (Bool.false_ne_true h).elim, fun h => (hentry h).elim⟩

/-- A path is that of a file if it leads to one. -/
theorem isFile_iff {path : Path} :
    store.isFile path = true ↔ ∃ content, store.entryAt? path = some (.file content) := by
  rw [isFile]
  split
  · rename_i content hentry
    simp [hentry]
  · rename_i hentry
    exact ⟨fun h => (Bool.false_ne_true h).elim, fun ⟨content, h⟩ => (hentry content h).elim⟩

/-- The path of a location is that of a directory if there is one at the location. -/
theorem isDirectory_toPath_iff (h : store.WellFormed) (hproper : location.Proper)
    (hclear : store.Clear location) :
    store.isDirectory location.toPath = true ↔
      Reachable location ∧ store.get? location = some .directory := by
  rw [isDirectory_iff, entryAt?_toPath h hproper hclear]
  by_cases hreach : Reachable location <;> simp [hreach]

/-- A text that was read from bytes is written as these bytes. -/
theorem toUTF8_of_fromUTF8? {bytes : ByteArray} {text : String}
    (h : String.fromUTF8? bytes = some text) : text.toUTF8 = bytes := by
  rw [String.fromUTF8?] at h
  split at h
  · cases h
    rfl
  · cases h

/-- The text that is read by the path of a location is that of the file at the location. -/
theorem readText_toPath (hproper : location.Proper) (hclear : store.Clear location) {text : String}
    (h : store.readText location.toPath = .ok text) :
    store.get? location = some (.file text.toUTF8) := by
  cases hlocate : store.locate location.toPath with
  | error error =>
    rw [readText, readBytes, hlocate] at h
    cases h
  | ok place =>
    obtain ⟨rfl, -, -⟩ := eq_of_locate_toPath hproper hclear hlocate
    rw [readText, readBytes, hlocate] at h
    simp only [bind, Except.bind] at h
    cases hentry : store.get? place with
    | none =>
      rw [hentry] at h
      cases h
    | some entry =>
      rw [hentry] at h
      cases entry with
      | directory => cases h
      | link target => cases h
      | file content =>
        simp only at h
        split at h
        · rename_i hread
          cases h
          rw [toUTF8_of_fromUTF8? hread]
        · cases h

/-- What is written to the path of a location goes there: into a directory, and in the place of a
file or of nothing. -/
theorem writePlace_toPath (h : store.WellFormed) (hproper : location.Proper)
    (hclear : store.Clear location) (hwrite : store.writePlace location.toPath = .ok place) :
    place = location ∧ Reachable location ∧ ∃ front last, location = front ++ [last] ∧
      store.get? front = some .directory ∧
      (store.get? location = none ∨ ∃ content, store.get? location = some (.file content)) := by
  cases hfollow : store.follow true location.toPath location.toPath.steps with
  | error error =>
    rw [writePlace, hfollow] at hwrite
    cases hwrite
  | ok destination =>
    rw [writePlace, hfollow] at hwrite
    obtain ⟨hreach, ⟨rfl, hsome⟩ | ⟨front, last, hlocation, rfl, hfront, hnone⟩⟩ :=
      follow_toPath_cases hproper hclear hfollow
    · simp only [bind, Except.bind] at hwrite
      split at hwrite
      · cases hwrite
      · rename_i hdirectory
        cases hwrite
        obtain ⟨entry, hentry⟩ := Option.isSome_iff_exists.mp hsome
        rcases List.eq_nil_or_concat location with rfl | ⟨front, last, rfl⟩
        · exact absurd rfl hdirectory
        · rw [List.concat_eq_append] at *
          refine ⟨rfl, hreach, front, last, rfl, h.get?_parent hentry, .inr ?_⟩
          cases entry with
          | file content => exact ⟨content, hentry⟩
          | directory => exact absurd (by simp [isDirectoryAt, hentry]) hdirectory
          | link target => exact absurd hentry (hclear _ List.prefix_rfl target)
    · cases hwrite
      exact ⟨hlocation.symm, hreach, front, last, hlocation, hfront, .inl hnone⟩

/-- The canonical location is where the steps of the path lead. -/
theorem canonical?_eq_follow {path : Path} (hraw : path.raw ≠ "") (hnul : path.holdsNul = false) :
    store.canonical? path =
      match store.followSteps false linkLimit (store.startOf path) path.steps with
      | .ok (.present location) => some location
      | _ => none := by
  unfold canonical?
  exact if_neg (by simp [hraw, hnul])

/-- The path of a location has that location as its canonical one, if there is an entry. -/
theorem canonical?_toPath (h : store.WellFormed) (hproper : location.Proper)
    (hclear : store.Clear location) :
    store.canonical? location.toPath =
      if (store.get? location).isSome then some location else none := by
  rw [canonical?_eq_follow (Location.raw_toPath_ne_empty location)
    (Location.holdsNul_toPath hproper), startOf, if_pos (Location.isAbsolute_toPath location),
    Location.steps_toPath hproper]
  by_cases hentry : (store.get? location).isSome
  · rw [followSteps_of_isSome h hclear hentry, if_pos hentry]
  · rw [if_neg hentry]
    split
    · rename_i place hfollow
      obtain ⟨expand, hexpand⟩ := exists_followSteps_eq store false linkLimit
      rw [hexpand] at hfollow
      rcases followWith_cases [] hclear hproper hfollow with ⟨-, hsome⟩ | ⟨_, _, -, habsent, -⟩
      · by_cases hnil : location = []
        · rw [hnil, get?_root] at hentry
          exact absurd rfl hentry
        · exact absurd (hsome hnil) hentry
      · cases habsent
    · rfl

/-- The path of a location is in normal form. -/
theorem normalize_toPath (h : store.WellFormed) (hproper : location.Proper)
    (hclear : store.Clear location) : store.normalize location.toPath = location.toPath := by
  rw [normalize, canonical?_toPath h hproper hclear]
  by_cases hentry : (store.get? location).isSome
  · rw [if_pos hentry]
  · rw [if_neg hentry, Location.absolute?_toPath hproper, Option.getD_some]

end Retouch.FileStore
