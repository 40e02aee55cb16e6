import Retouch.Proofs.Files.Following

/-!
# Where paths lead

A path of the user's may go through links and `..`, and a run changes the store while it goes along.
`FileStore.Leads` says how steps lead to an entry, without the order in which they are tried and the
errors on the way; it is what looking up a path comes to (`locate_eq_ok_iff`).

* **A path that leads somewhere keeps leading there** while the store grows (`locate_of_grows`): all
  that it met on the way stays.
* **Steps are followed one after the other** (`Leads.append`, `Leads.of_append`), with however many
  links are left, and they lead to one place only (`Leads.unique`).
* **Without links and `..` steps go straight down** (`Leads.eq_append`), so a path that leads to a
  directory led there as soon as the directory was there (`leads_of_directory`). Where there are no
  links at all, this says when such steps lead somewhere (`leads_straight_iff`).
-/

namespace Retouch.FileStore

variable {store after : FileStore} {written made : Location → Prop}
  {expand : Location → List PathStep → Except OsError Destination}
  {name : String} {steps : List PathStep} {links : Nat} {start reached : Location} {path : Path}

/-- Steps lead from a location to an entry, through at most so many links. -/
inductive Leads (store : FileStore) : (links : Nat) → (start : Location) → List PathStep →
    (reached : Location) → Prop
  | done (links : Nat) (location : Location) : Leads store links location [] location
  | stay {links : Nat} {location reached : Location} {step : PathStep} {rest : List PathStep}
      (hstep : step = .here ∨ step = .slash) (hlocation : store.get? location = some .directory)
      (hrest : Leads store links location rest reached) :
      Leads store links location (step :: rest) reached
  | up {links : Nat} {location reached : Location} {rest : List PathStep}
      (hlocation : store.get? location = some .directory)
      (hrest : Leads store links location.dropLast rest reached) :
      Leads store links location (.up :: rest) reached
  | name {links : Nat} {location reached : Location} {name : String} {rest : List PathStep}
      {entry : Entry} (hlocation : store.get? location = some .directory)
      (hshort : name.utf8ByteSize ≤ nameLimit)
      (hentry : store.get? (location ++ [name]) = some entry) (hkind : entry.kind ≠ .link)
      (hrest : Leads store links (location ++ [name]) rest reached) :
      Leads store links location (.name name :: rest) reached
  | link {links : Nat} {location reached : Location} {name : String} {rest : List PathStep}
      {target : Path} (hlocation : store.get? location = some .directory)
      (hshort : name.utf8ByteSize ≤ nameLimit)
      (hentry : store.get? (location ++ [name]) = some (.link target)) (hraw : target.raw ≠ "")
      (hrest : Leads store links (if target.isAbsolute then [] else location)
        (target.steps ++ rest) reached) :
      Leads store (links + 1) location (.name name :: rest) reached

/-- Steps that lead to an entry are followed to it. -/
theorem followSteps_of_leads (h : store.Leads links start steps reached) :
    store.followSteps false links start steps = .ok (.present reached) := by
  induction h with
  | done links location =>
    obtain ⟨expand, hexpand⟩ := exists_followSteps_eq store false links
    rw [hexpand, followWith_nil]
  | @stay links location reached step rest hstep hlocation hrest ih =>
    obtain ⟨expand, hexpand⟩ := exists_followSteps_eq store false links
    rw [hexpand] at ih ⊢
    rcases hstep with rfl | rfl
    · rw [followWith, if_pos (by simp [isDirectoryAt, hlocation])]
      exact ih
    · rw [followWith, if_pos (by simp [isDirectoryAt, hlocation])]
      exact ih
  | @up links location reached rest hlocation hrest ih =>
    obtain ⟨expand, hexpand⟩ := exists_followSteps_eq store false links
    rw [hexpand] at ih ⊢
    rw [followWith, if_pos (by simp [isDirectoryAt, hlocation])]
    exact ih
  | @name links location reached name rest entry hlocation hshort hentry hkind hrest ih =>
    obtain ⟨expand, hexpand⟩ := exists_followSteps_eq store false links
    rw [hexpand] at ih ⊢
    rw [followWith, if_pos (by simp [isDirectoryAt, hlocation])]
    simp only [Bool.false_and, Bool.false_eq_true, if_false, Nat.not_lt.mpr hshort, hentry]
    cases entry with
    | file content => exact ih
    | directory => exact ih
    | link target => exact absurd rfl hkind
  | @link links location reached name rest target hlocation hshort hentry hraw hrest ih =>
    rw [followSteps, followWith, if_pos (by simp [isDirectoryAt, hlocation])]
    simp only [Bool.false_and, Bool.false_eq_true, if_false, Nat.not_lt.mpr hshort, hentry, hraw]
    exact ih

/-- Following steps one level of links down. `expand` is what the links of the path lead to. -/
theorem leads_of_followWith {links : Nat}
    (hexpand : ∀ location steps reached, expand location steps = .ok (.present reached) →
      ∃ fewer, links = fewer + 1 ∧ store.Leads fewer location steps reached)
    (h : store.followWith false expand start steps = .ok (.present reached)) :
    store.Leads links start steps reached := by
  induction steps generalizing start with
  | nil =>
    rw [followWith_nil] at h
    cases h
    exact .done links reached
  | cons step rest ih =>
    -- no step leads on from anything but a directory
    have hlocation : store.get? start = some .directory := by
      by_contra hnone
      rw [followWith.eq_def] at h
      simp only [isDirectoryAt, hnone, decide_false, Bool.false_eq_true, if_false] at h
      cases h
    have hdirectory : store.isDirectoryAt start = true := by simp [isDirectoryAt, hlocation]
    cases step with
    | here =>
      rw [followWith, if_pos hdirectory] at h
      exact .stay (.inl rfl) hlocation (ih h)
    | slash =>
      rw [followWith, if_pos hdirectory] at h
      exact .stay (.inr rfl) hlocation (ih h)
    | up =>
      rw [followWith, if_pos hdirectory] at h
      exact .up hlocation (ih h)
    | name name =>
      rw [followWith, if_pos hdirectory, Bool.false_and, if_neg Bool.false_ne_true] at h
      split at h
      case isTrue => cases h
      case isFalse hlong =>
        have hshort := Nat.le_of_not_lt hlong
        cases hentry : store.get? (start ++ [name]) with
        | none =>
          simp only [hentry] at h
          split at h
          · cases h
          · cases h
        | some entry =>
          simp only [hentry] at h
          cases entry with
          | file content => exact .name hlocation hshort hentry (by simp [Entry.kind]) (ih h)
          | directory => exact .name hlocation hshort hentry (by simp [Entry.kind]) (ih h)
          | link target =>
            simp only at h
            split at h
            case isTrue => cases h
            case isFalse hraw =>
              -- the rest of the way is that of `expand`, with one link less
              obtain ⟨fewer, rfl, hrest⟩ := hexpand _ _ _ h
              exact .link hlocation hshort hentry hraw hrest

/-- Steps that are followed to an entry lead to it. -/
theorem leads_of_followSteps
    (h : store.followSteps false links start steps = .ok (.present reached)) :
    store.Leads links start steps reached := by
  induction links generalizing start steps reached with
  | zero => exact leads_of_followWith (fun _ _ _ hnone => by cases hnone) h
  | succ links ih => exact leads_of_followWith (fun _ _ _ hrest => ⟨links, rfl, ih hrest⟩) h

/-- All that was met on the way stays where it is. -/
theorem Leads.of_grows (hgrows : store.Grows written made after)
    (h : store.Leads links start steps reached) : after.Leads links start steps reached := by
  induction h with
  | done links location => exact .done links location
  | stay hstep hlocation _ ih => exact .stay hstep (hgrows.directory hlocation) ih
  | up hlocation _ ih => exact .up (hgrows.directory hlocation) ih
  | @name links location reached name rest entry hlocation hshort hentry hkind _ ih =>
    cases entry with
    | file content =>
      obtain ⟨content', hentry'⟩ := hgrows.file hentry
      exact .name (hgrows.directory hlocation) hshort hentry' (by simp [Entry.kind]) ih
    | directory =>
      exact .name (hgrows.directory hlocation) hshort (hgrows.directory hentry) hkind ih
    | link target => exact absurd rfl hkind
  | link hlocation hshort hentry hraw _ ih =>
    exact .link (hgrows.directory hlocation) hshort (hgrows.link hentry) hraw ih

/-- Steps are followed one after the other, with however many links are left. -/
theorem Leads.append {more : List PathStep} {last : Location}
    (h : store.Leads links start steps reached)
    (hmore : ∀ fewer, store.Leads fewer reached more last) :
    store.Leads links start (steps ++ more) last := by
  induction h with
  | done links location => exact hmore links
  | stay hstep hlocation _ ih => exact .stay hstep hlocation (ih hmore)
  | up hlocation _ ih => exact .up hlocation (ih hmore)
  | name hlocation hshort hentry hkind _ ih => exact .name hlocation hshort hentry hkind (ih hmore)
  | link hlocation hshort hentry hraw _ ih =>
    have hrest := ih hmore
    rw [List.append_assoc] at hrest
    exact .link hlocation hshort hentry hraw hrest

/-- Steps that lead somewhere lead to a place on the way first. -/
theorem Leads.of_append {more : List PathStep} {last : Location}
    (h : store.Leads links start (steps ++ more) last) :
    ∃ fewer reached, store.Leads links start steps reached ∧
      store.Leads fewer reached more last := by
  generalize hall : steps ++ more = all at h
  induction h generalizing steps with
  | done links location =>
    obtain ⟨rfl, rfl⟩ := List.append_eq_nil_iff.mp hall
    exact ⟨links, location, .done _ _, .done _ _⟩
  | @stay links location reached step rest hstep hlocation hrest ih =>
    rcases List.append_eq_cons_iff.mp hall with ⟨rfl, rfl⟩ | ⟨before, rfl, rfl⟩
    · exact ⟨links, location, .done _ _, .stay hstep hlocation hrest⟩
    · obtain ⟨fewer, middle, hfirst, hmore⟩ := ih rfl
      exact ⟨fewer, middle, .stay hstep hlocation hfirst, hmore⟩
  | @up links location reached rest hlocation hrest ih =>
    rcases List.append_eq_cons_iff.mp hall with ⟨rfl, rfl⟩ | ⟨before, rfl, rfl⟩
    · exact ⟨links, location, .done _ _, .up hlocation hrest⟩
    · obtain ⟨fewer, middle, hfirst, hmore⟩ := ih rfl
      exact ⟨fewer, middle, .up hlocation hfirst, hmore⟩
  | @name links location reached name rest entry hlocation hshort hentry hkind hrest ih =>
    rcases List.append_eq_cons_iff.mp hall with ⟨rfl, rfl⟩ | ⟨before, rfl, rfl⟩
    · exact ⟨links, location, .done _ _, .name hlocation hshort hentry hkind hrest⟩
    · obtain ⟨fewer, middle, hfirst, hmore⟩ := ih rfl
      exact ⟨fewer, middle, .name hlocation hshort hentry hkind hfirst, hmore⟩
  | @link links location reached name rest target hlocation hshort hentry hraw hrest ih =>
    rcases List.append_eq_cons_iff.mp hall with ⟨rfl, rfl⟩ | ⟨before, rfl, rfl⟩
    · exact ⟨links + 1, location, .done _ _, .link hlocation hshort hentry hraw hrest⟩
    · obtain ⟨fewer, middle, hfirst, hmore⟩ := ih (List.append_assoc _ _ _)
      exact ⟨fewer, middle, .link hlocation hshort hentry hraw hfirst, hmore⟩

/-- Steps lead to one place only. -/
theorem Leads.unique {other : Location} (h : store.Leads links start steps reached)
    (hother : store.Leads links start steps other) : reached = other := by
  have hsame := (followSteps_of_leads h).symm.trans (followSteps_of_leads hother)
  cases hsame
  rfl

/-- Steps that stay in place lead nowhere else. -/
theorem Leads.eq_of_stay (hstay : ∀ step ∈ steps, step = .here ∨ step = .slash)
    (h : store.Leads links start steps reached) : reached = start := by
  induction h with
  | done => rfl
  | stay _ _ _ ih => exact ih fun step hstep => hstay step (List.mem_cons_of_mem _ hstep)
  | up => simpa using hstay _ List.mem_cons_self
  | name => simpa using hstay _ List.mem_cons_self
  | link => simpa using hstay _ List.mem_cons_self

/-- One name leads somewhere if a directory holds it. -/
theorem Leads.of_name (h : store.Leads links start [.name name] reached) :
    store.get? start = some .directory ∧ name.utf8ByteSize ≤ nameLimit ∧
      (store.get? (start ++ [name])).isSome := by
  cases h with
  | stay hstep => simp at hstep
  | name hlocation hshort hentry => exact ⟨hlocation, hshort, by rw [hentry, Option.isSome_some]⟩
  | link hlocation hshort hentry => exact ⟨hlocation, hshort, by rw [hentry, Option.isSome_some]⟩

/-- A file is reached by a name that the last directory on the way holds. -/
theorem Leads.exists_name_of_file (h : store.WellFormed) {content : ByteArray}
    (hstart : store.get? start = some .directory) (hleads : store.Leads links start steps reached)
    (hfile : store.get? reached = some (.file content)) :
    ∃ front name, steps = front ++ [.name name] := by
  rcases List.eq_nil_or_concat steps with rfl | ⟨front, last, rfl⟩
  · cases hleads
    rw [hstart] at hfile
    cases hfile
  rw [List.concat_eq_append] at hleads ⊢
  obtain ⟨fewer, middle, -, hlast⟩ := hleads.of_append
  -- any other last step ends at a directory
  cases hlast with
  | stay _ hmiddle hrest =>
    cases hrest
    rw [hmiddle] at hfile
    cases hfile
  | up hmiddle hrest =>
    cases hrest
    rw [h.get?_dropLast hmiddle] at hfile
    cases hfile
  | name => exact ⟨_, _, rfl⟩
  | link => exact ⟨_, _, rfl⟩

/-- The names among steps. -/
def namesOf (steps : List PathStep) : Location :=
  steps.filterMap fun step =>
    match step with
    | .name name => some name
    | _ => none

/-- A name in front is the first of the names. -/
theorem namesOf_name (name : String) (steps : List PathStep) :
    namesOf (.name name :: steps) = name :: namesOf steps :=
  rfl

/-- The names among steps that are all names are these names. -/
theorem namesOf_map_name (names : Location) : namesOf (names.map .name) = names := by
  induction names with
  | nil => rfl
  | cons name rest ih => rw [List.map_cons, namesOf_name, ih]

/-- Where no link is on the way, steps without `..` go straight down. -/
theorem Leads.eq_append (hclear : store.Clear (start ++ namesOf steps)) (hup : .up ∉ steps)
    (h : store.Leads links start steps reached) : reached = start ++ namesOf steps := by
  induction h with
  | done links location => simp [namesOf]
  | @stay links location reached step rest hstep hlocation hrest ih =>
    have hnames : namesOf (step :: rest) = namesOf rest := by
      rcases hstep with rfl | rfl <;> rfl
    rw [hnames] at hclear ⊢
    exact ih hclear fun hmem => hup (List.mem_cons_of_mem _ hmem)
  | up => exact absurd List.mem_cons_self hup
  | @name links location reached name rest entry hlocation hshort hentry hkind hrest ih =>
    rw [namesOf_name, List.append_cons] at hclear ⊢
    exact ih hclear fun hmem => hup (List.mem_cons_of_mem _ hmem)
  | @link links location reached name rest target hlocation hshort hentry hraw hrest ih =>
    refine absurd hentry (hclear _ ?_ target)
    exact ⟨namesOf rest, by rw [namesOf_name, List.append_assoc, List.singleton_append]⟩

/-- Steps without `..` lead to a directory that is straight down from where they start. -/
theorem leads_of_directory (h : store.WellFormed) (hup : .up ∉ steps)
    (hreached : store.get? (start ++ namesOf steps) = some .directory) :
    store.Leads links start steps (start ++ namesOf steps) := by
  induction steps generalizing start with
  | nil => simpa [namesOf] using Leads.done links start
  | cons step rest ih =>
    have hstart : store.get? start = some .directory := by
      by_cases hnames : namesOf (step :: rest) = []
      · rwa [hnames, List.append_nil] at hreached
      · exact h.get?_of_append hnames hreached
    have hrest : .up ∉ rest := fun hmem => hup (List.mem_cons_of_mem _ hmem)
    cases step with
    | here => exact .stay (.inl rfl) hstart (ih hrest hreached)
    | slash => exact .stay (.inr rfl) hstart (ih hrest hreached)
    | up => exact absurd List.mem_cons_self hup
    | name name =>
      rw [namesOf_name, List.append_cons] at hreached ⊢
      have hfirst : store.get? (start ++ [name]) = some .directory := by
        by_cases hnames : namesOf rest = []
        · rwa [hnames, List.append_nil] at hreached
        · exact h.get?_of_append hnames hreached
      exact .name hstart (h.properName_of_get? hfirst).short hfirst (by simp [Entry.kind])
        (ih hrest hreached)

/-- Where steps lead there is something. -/
theorem Leads.isSome (h : store.WellFormed) (hstart : (store.get? start).isSome)
    (hleads : store.Leads links start steps reached) : (store.get? reached).isSome := by
  induction hleads with
  | done => exact hstart
  | stay _ _ _ ih => exact ih hstart
  | up hlocation _ ih => exact ih (by rw [h.get?_dropLast hlocation, Option.isSome_some])
  | name _ _ hentry _ _ ih => exact ih (by rw [hentry, Option.isSome_some])
  | link hlocation _ _ _ _ ih =>
    refine ih ?_
    split
    · rfl
    · exact hstart

/-- Where there are no links it does not matter how many may be followed. -/
theorem Leads.of_noLinks (hlinks : store.NoLinks) (h : store.Leads links start steps reached)
    (others : Nat) : store.Leads others start steps reached := by
  induction h with
  | done => exact .done _ _
  | stay hstep hlocation _ ih => exact .stay hstep hlocation ih
  | up hlocation _ ih => exact .up hlocation ih
  | name hlocation hshort hentry hkind _ ih => exact .name hlocation hshort hentry hkind ih
  | link _ _ hentry => exact absurd hentry (hlinks _ _)

/-- Where there are no links, steps without `..` lead straight down if there is something, which has
to be a directory if the last step asks for one. -/
theorem leads_straight_iff (h : store.WellFormed) (hlinks : store.NoLinks) (hup : .up ∉ steps)
    (hstart : store.get? start = some .directory) :
    store.Leads links start steps (start ++ namesOf steps) ↔
      (store.get? (start ++ namesOf steps)).isSome ∧
        (steps.getLast? = some .here ∨ steps.getLast? = some .slash →
          store.get? (start ++ namesOf steps) = some .directory) := by
  constructor
  · intro hleads
    refine ⟨hleads.isSome h (by rw [hstart, Option.isSome_some]), fun hlast => ?_⟩
    obtain ⟨last, hlast, hidle⟩ : ∃ last, steps.getLast? = some last ∧
        (last = .here ∨ last = .slash) := by
      rcases hlast with hhere | hslash
      · exact ⟨_, hhere, .inl rfl⟩
      · exact ⟨_, hslash, .inr rfl⟩
    obtain ⟨front, hsteps⟩ := List.getLast?_eq_some_iff.mp hlast
    generalize start ++ namesOf steps = reached at hleads ⊢
    rw [hsteps] at hleads
    obtain ⟨fewer, middle, -, hend⟩ := hleads.of_append
    cases hend with
    | stay _ hmiddle hrest =>
      cases hrest
      exact hmiddle
    | up => simp at hidle
    | name => simp at hidle
    | link => simp at hidle
  · rintro ⟨hsome, hidle⟩
    by_cases hdirectory : store.get? (start ++ namesOf steps) = some .directory
    · exact leads_of_directory h hup hdirectory
    -- a file, which only a name can lead to
    rcases List.eq_nil_or_concat steps with rfl | ⟨front, last, rfl⟩
    · exact absurd (by rwa [namesOf, List.filterMap_nil, List.append_nil]) hdirectory
    rw [List.concat_eq_append] at *
    obtain ⟨name, rfl⟩ : ∃ name, last = .name name := by
      cases last with
      | here => exact absurd (hidle (.inl (by simp))) hdirectory
      | slash => exact absurd (hidle (.inr (by simp))) hdirectory
      | up => simp at hup
      | name name => exact ⟨name, rfl⟩
    have hnames : namesOf (front ++ [.name name]) = namesOf front ++ [name] := List.filterMap_append
    rw [hnames, ← List.append_assoc] at hsome ⊢
    obtain ⟨entry, hentry⟩ := Option.isSome_iff_exists.mp hsome
    have hkind : entry.kind ≠ .link := by
      cases entry with
      | link target => exact absurd hentry (hlinks _ _)
      | file content => simp [Entry.kind]
      | directory => simp [Entry.kind]
    refine (leads_of_directory h (fun hmem => hup (List.mem_append_left _ hmem))
      (h.get?_parent hentry)).append fun fewer => ?_
    exact .name (h.get?_parent hentry) (h.properName_of_get? hentry).short hentry hkind (.done _ _)

/-! ### Paths -/

/-- Every path starts at a directory. -/
theorem WellFormed.get?_startOf (h : store.WellFormed) (path : Path) :
    store.get? (store.startOf path) = some .directory := by
  rw [startOf]
  split
  · rfl
  · exact h.working

/-- A path that is not refused before anything is looked up. -/
structure Usable (path : Path) : Prop where
  noNul : path.holdsNul = false
  short : path.raw.utf8ByteSize < pathLimit
  ne_empty : path.raw ≠ ""

/-- A path is followed to an entry if it can be used and its steps lead there. -/
theorem follow_eq_present_iff :
    store.follow false path steps = .ok (.present reached) ↔
      Usable path ∧ store.Leads linkLimit (store.startOf path) steps reached := by
  constructor
  · intro h
    rw [follow] at h
    split at h
    case isTrue => cases h
    case isFalse hnul =>
      split at h
      case isTrue => cases h
      case isFalse hshort =>
        split at h
        case isTrue => cases h
        case isFalse hraw =>
          refine ⟨⟨by simpa using hnul, Nat.lt_of_not_le hshort, hraw⟩, leads_of_followSteps ?_⟩
          cases hfollow : store.followSteps false linkLimit (store.startOf path) steps with
          | error error =>
            rw [hfollow] at h
            cases h
          | ok destination =>
            rw [hfollow] at h
            cases h
            rfl
  · rintro ⟨husable, hleads⟩
    rw [follow, husable.noNul, if_neg Bool.false_ne_true, if_neg (Nat.not_le.mpr husable.short),
      if_neg husable.ne_empty, followSteps_of_leads hleads]
    rfl

/-- A path leads to an entry if it can be used and its steps lead there. -/
theorem locate_eq_ok_iff :
    store.locate path = .ok reached ↔
      Usable path ∧ store.Leads linkLimit (store.startOf path) path.steps reached := by
  rw [← follow_eq_present_iff, locate]
  cases store.follow false path path.steps with
  | error error => simp [bind, Except.bind]
  | ok destination => cases destination <;> simp [bind, Except.bind]

/-- Paths go on starting where they did while the store grows. -/
theorem startOf_of_grows (hgrows : store.Grows written made after) (path : Path) :
    after.startOf path = store.startOf path := by
  rw [startOf, startOf, hgrows.workingDirectory]

/-- A path that leads somewhere keeps leading there. -/
theorem locate_of_grows (hgrows : store.Grows written made after)
    (h : store.locate path = .ok reached) : after.locate path = .ok reached := by
  obtain ⟨husable, hleads⟩ := locate_eq_ok_iff.mp h
  refine locate_eq_ok_iff.mpr ⟨husable, ?_⟩
  rw [startOf_of_grows hgrows]
  exact hleads.of_grows hgrows

/-- The normal form of a path that leads to an entry is the path of that entry. -/
theorem normalize_of_locate (h : store.locate path = .ok reached) :
    store.normalize path = reached.toPath := by
  obtain ⟨husable, hleads⟩ := locate_eq_ok_iff.mp h
  have hcanonical : store.canonical? path = some reached := by
    rw [canonical?_eq_follow husable.ne_empty husable.noNul, followSteps_of_leads hleads]
  rw [normalize, hcanonical]

/-- A path is that of a directory if it leads to the location of one. -/
theorem isDirectory_iff_locate :
    store.isDirectory path = true ↔
      ∃ location, store.locate path = .ok location ∧ store.get? location = some .directory := by
  rw [isDirectory_iff, entryAt?]
  cases store.locate path with
  | error error => simp
  | ok location => simp

/-- A path is that of a file if it leads to the location of one. -/
theorem isFile_iff_locate :
    store.isFile path = true ↔ ∃ location content, store.locate path = .ok location ∧
      store.get? location = some (.file content) := by
  rw [isFile_iff, entryAt?]
  cases store.locate path with
  | error error => simp
  | ok location => simp

/-- Where a path would have to be made. -/
theorem parentOf_eq_ok {directory : Location}
    (h : store.parentOf path = .ok (directory, some name)) :
    ∃ front, path.segments.filterMap Path.stepOf? = front ++ [.name name] ∧ Usable path ∧
      store.Leads linkLimit (store.startOf path) front directory ∧
      store.get? directory = some .directory ∧ ProperName name := by
  cases hfollow : store.follow false path (path.segments.filterMap Path.stepOf?).dropLast with
  | error error =>
    rw [parentOf, hfollow] at h
    cases h
  | ok destination =>
    rw [parentOf, hfollow] at h
    cases destination with
    | absent directory name => cases h
    | present location =>
      obtain ⟨husable, hleads⟩ := follow_eq_present_iff.mp hfollow
      simp only [bind, Except.bind] at h
      split at h
      case isFalse => cases h
      case isTrue hdirectory =>
        split at h
        · rename_i last hlast
          split at h
          case isTrue => cases h
          case isFalse hlong =>
            cases h
            have hsplit := List.dropLast_append_getLast? _ hlast
            have hmem := List.mem_of_getLast? hlast
            exact ⟨_, hsplit.symm, husable, hleads, by simpa [isDirectoryAt] using hdirectory,
              Path.properName_of_mem_stepNames hmem husable.noNul (Nat.le_of_not_lt hlong)⟩
        · cases h

/-- A path that leads up to its last name would have to be made there, unless the path or the name
is too long. -/
theorem parentOf_of_leads {front : List PathStep} {directory : Location}
    (hsteps : path.segments.filterMap Path.stepOf? = front ++ [.name name])
    (hnul : path.holdsNul = false) (hraw : path.raw ≠ "")
    (hleads : store.Leads linkLimit (store.startOf path) front directory)
    (hdirectory : store.get? directory = some .directory) :
    store.parentOf path =
      if path.raw.utf8ByteSize < pathLimit ∧ name.utf8ByteSize ≤ nameLimit then
        .ok (directory, some name)
      else .error (.system .nameTooLong) := by
  by_cases hshort : path.raw.utf8ByteSize < pathLimit
  · have hfollow := follow_eq_present_iff.mpr ⟨⟨hnul, hshort, hraw⟩, hleads⟩
    have hthere : store.isDirectoryAt directory = true := by simp [isDirectoryAt, hdirectory]
    simp only [parentOf, hsteps, List.dropLast_concat, List.getLast?_concat, hfollow, bind,
      Except.bind, hthere, if_true]
    by_cases hname : name.utf8ByteSize ≤ nameLimit
    · rw [if_neg (Nat.not_lt.mpr hname), if_pos ⟨hshort, hname⟩]
    · rw [if_pos (Nat.lt_of_not_le hname), if_neg fun hfits => hname hfits.2]
  · have hfollow : store.follow false path front = .error (.system .nameTooLong) := by
      rw [follow, hnul, if_neg Bool.false_ne_true, if_pos (Nat.le_of_not_lt hshort)]
    rw [if_neg fun hfits => hshort hfits.1]
    simp only [parentOf, hsteps, List.dropLast_concat, hfollow, bind, Except.bind]

/-- The path of a location, if no link is on the way, would have to be made right there. -/
theorem parentOf_toPath {location directory : Location} (hproper : location.Proper)
    (hclear : store.Clear location)
    (h : store.parentOf location.toPath = .ok (directory, some name)) :
    location = directory ++ [name] := by
  obtain ⟨front, hsteps, -, hleads, -, -⟩ := parentOf_eq_ok h
  rw [Location.stepNames_toPath hproper] at hsteps
  obtain ⟨names, last, rfl, rfl, hlast⟩ := List.map_eq_append_iff.mp hsteps
  obtain ⟨rfl⟩ : last = [name] := by
    obtain ⟨_, rest, rfl, hname, hrest⟩ := List.map_eq_cons_iff.mp hlast
    rw [List.map_eq_nil_iff] at hrest
    cases hname
    rw [hrest]
  rw [startOf, if_pos (Location.isAbsolute_toPath _)] at hleads
  have hreached := hleads.eq_append
    (by rw [namesOf_map_name]; exact hclear.of_isPrefix (List.prefix_append _ _)) (by simp)
  rw [hreached, namesOf_map_name, List.nil_append]

end Retouch.FileStore
