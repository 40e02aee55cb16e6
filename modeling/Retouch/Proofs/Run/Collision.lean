import Mathlib.Data.Finset.Card
import Mathlib.Order.Bounds.Defs
import Retouch.Proofs.Files.Joining
import Retouch.Proofs.Run.DirectoryRun

/-!
# An output whose name is taken

When a file has the name of the output directory, its siblings `name-1`, `name-2` and so on are
tried until one is no file.

* **The siblings stand in one directory** (`Siblings`), which is where the file stands, however the
  path is spelled and whatever links it goes through. They differ from the file and from each other,
  so the siblings that are files take up as many entries of the store (`Siblings.number_le`).
* **The search finds the first free one** (`Siblings.isLeast_foundNumber`): there are not more taken
  ones than the store has entries.
* **Making it makes at most this one directory**, because the directory around it is there.
-/

namespace Retouch

open FileStore

variable {store : FileStore} {output : Path} {directory : Location} {name : String} {number : Nat}

/-! ### Names with numbers -/

/-- A name with a number added. -/
def numberedName (name : String) (number : Nat) : String :=
  s!"{name}-{number}"

/-- A numbered name is the name, a dash and the digits of the number. -/
theorem toList_numberedName (name : String) (number : Nat) :
    (numberedName name number).toList = name.toList ++ '-' :: Nat.toDigits 10 number := by
  have hname : numberedName name number = name ++ "-" ++ number.repr := rfl
  simp [hname]

/-- Different numbers give different names. -/
theorem numberedName_injective (name : String) : Function.Injective (numberedName name) := by
  intro a b hsame
  have hlist := congrArg String.toList hsame
  rw [toList_numberedName, toList_numberedName, List.append_right_inj, List.cons_inj_right] at hlist
  calc
    a = Nat.ofDigitChars 10 (Nat.toDigits 10 a) 0 := Nat.ofDigitChars_ten_toDigits.symm
    _ = Nat.ofDigitChars 10 (Nat.toDigits 10 b) 0 := by rw [hlist]
    _ = b := Nat.ofDigitChars_ten_toDigits

/-- A numbered name is never the name itself. -/
theorem numberedName_ne (name : String) (number : Nat) : numberedName name number ≠ name := by
  intro hsame
  have hlist := congrArg String.toList hsame
  rw [toList_numberedName] at hlist
  simp at hlist

/-- The name itself, and then the names with numbers. -/
def siblingName (name : String) : Nat → String
  | 0 => name
  | number + 1 => numberedName name (number + 1)

/-- All siblings have different names. -/
theorem siblingName_injective (name : String) : Function.Injective (siblingName name) := by
  intro a b hsame
  cases a with
  | zero =>
    cases b with
    | zero => rfl
    | succ b => exact absurd hsame.symm (numberedName_ne name (b + 1))
  | succ a =>
    cases b with
    | zero => exact absurd hsame (numberedName_ne name (a + 1))
    | succ b => exact numberedName_injective name hsame

/-- A number brings only digits and a dash into the name. -/
theorem not_mem_numberedName {c : Char} (hc : c ≠ '-') (hdigit : c.isDigit = false)
    (hname : c ∉ name.toList) : c ∉ (numberedName name number).toList := by
  rw [toList_numberedName, List.mem_append, List.mem_cons]
  rintro (hmem | hmem | hmem)
  · exact hname hmem
  · exact hc hmem
  · rw [Nat.isDigit_of_mem_toDigits (by decide) (by decide) hmem] at hdigit
    cases hdigit

/-- A numbered name is a step down, and not one of the special names. -/
theorem stepOf?_numberedName (name : String) (number : Nat) :
    Path.stepOf? (numberedName name number) = some (.name (numberedName name number)) := by
  have hdash : '-' ∈ (numberedName name number).toList := by simp [toList_numberedName]
  have hne : ∀ text : String, '-' ∉ text.toList → numberedName name number ≠ text :=
    fun text hnone hsame => hnone (hsame ▸ hdash)
  rw [Path.stepOf?, if_neg (hne "" (by decide)), if_neg (hne "." (by decide)),
    if_neg (hne ".." (by decide))]

/-! ### Siblings -/

/-- The output and its numbered siblings are in a directory. -/
structure Siblings (store : FileStore) (output : Path) (directory : Location) (name : String) :
    Prop where
  around : store.parentOf output = .ok (directory, some name)
  taken : (store.get? (directory ++ [name])).isSome
  directoryThere : store.get? directory = some .directory
  components : ∀ number, (numberedSibling output number).components =
    output.components.dropLast ++ [.name (numberedName name number)]
  noNul : ∀ number, (numberedSibling output number).holdsNul = false
  ne_empty : ∀ number, (numberedSibling output number).raw ≠ ""
  leads : ∀ number, ∃ front,
    (numberedSibling output number).segments.filterMap Path.stepOf? =
        front ++ [.name (numberedName name number)] ∧
      (numberedSibling output number).steps = front ++ [.name (numberedName name number)] ∧
      store.Leads linkLimit (store.startOf (numberedSibling output number)) front directory

/-- A file that a path leads to is found in a directory under the last name of the path. -/
theorem exists_around_of_isFile (h : store.WellFormed) (hfile : store.isFile output = true) :
    ∃ front directory name, output.segments = front ++ [name] ∧
      Path.stepOf? name = some (.name name) ∧
      store.Leads linkLimit (store.startOf output) (front.filterMap Path.stepOf?) directory ∧
      store.parentOf output = .ok (directory, some name) ∧
      (store.get? (directory ++ [name])).isSome := by
  obtain ⟨place, content, hlocate, hentry⟩ := isFile_iff_locate.mp hfile
  obtain ⟨husable, hleads⟩ := locate_eq_ok_iff.mp hlocate
  obtain ⟨before, name, hsteps⟩ :=
    hleads.exists_name_of_file h (h.get?_startOf output) hentry
  obtain ⟨front, hsegments, hname, rfl⟩ :=
    Path.exists_segments_of_steps husable.ne_empty hsteps
  rw [hsteps] at hleads
  obtain ⟨fewer, directory, hfront, hlast⟩ := hleads.of_append
  obtain ⟨hdirectory, hshort, hsome⟩ := hlast.of_name
  have hstepNames : output.segments.filterMap Path.stepOf? =
      front.filterMap Path.stepOf? ++ [.name name] := by
    rw [hsegments, List.filterMap_append, List.filterMap_cons_some hname, List.filterMap_nil]
  refine ⟨front, directory, name, hsegments, hname, hfront, ?_, hsome⟩
  rw [parentOf_of_leads hstepNames husable.noNul husable.ne_empty hfront hdirectory,
    if_pos ⟨husable.short, hshort⟩]

/-- An output at which there is a file has siblings in the directory of that file. -/
theorem exists_siblings (h : store.WellFormed) (hfile : store.isFile output = true) :
    ∃ directory name, Siblings store output directory name := by
  obtain ⟨front, directory, name, hsegments, hname, hfront, haround, htaken⟩ :=
    exists_around_of_isFile h hfile
  obtain ⟨_, -, husable, -, hdirectory, hproper⟩ := parentOf_eq_ok haround
  have hsibling : ∀ number, numberedSibling output number =
      output.withFileName (numberedName name number) := by
    intro number
    rw [numberedSibling, Path.fileName?_of_segments hsegments hname]
    rfl
  have hslash : ∀ number, '/' ∉ (numberedName name number).toList := fun number =>
    not_mem_numberedName (by decide) (by decide) hproper.noSlash
  have hstep := stepOf?_numberedName name
  refine ⟨directory, name, haround, htaken, hdirectory, ?_, ?_, ?_, ?_⟩
  · intro number
    rw [hsibling, Path.components_withFileName hsegments hname (hstep number) (hslash number)]
  · intro number
    rw [hsibling, Path.holdsNul_withFileName hsegments hname (hslash number) husable.noNul]
    exact not_mem_numberedName (by decide) (by decide) hproper.noNul
  · intro number
    rw [hsibling]
    exact Path.raw_withFileName_ne_empty hsegments hname
      (Path.stepOf?_eq_name (hstep number)).2.1 (hslash number)
  · intro number
    obtain ⟨kept, idle, hsplit, hidle, habsolute, hstepNames, hsteps⟩ :=
      Path.exists_steps_withFileName hsegments hname (hstep number) (hslash number)
    rw [← hsibling] at habsolute hstepNames hsteps
    refine ⟨kept, hstepNames, hsteps, ?_⟩
    -- the steps that are left out stay in place
    rw [hsplit] at hfront
    obtain ⟨fewer, middle, hkept, hidles⟩ := hfront.of_append
    rw [hidles.eq_of_stay fun step hmem => .inl (hidle step hmem), startOf, habsolute]
    exact hkept

namespace Siblings

/-- A sibling that is a file has an entry in the directory. -/
theorem isSome_of_isFile (h : Siblings store output directory name)
    (hfile : store.isFile (numberedSibling output number) = true) :
    (store.get? (directory ++ [numberedName name number])).isSome := by
  obtain ⟨place, content, hlocate, -⟩ := isFile_iff_locate.mp hfile
  obtain ⟨-, hleads⟩ := locate_eq_ok_iff.mp hlocate
  obtain ⟨front, -, hsteps, hfront⟩ := h.leads number
  rw [hsteps] at hleads
  obtain ⟨fewer, middle, hmiddle, hlast⟩ := hleads.of_append
  rw [hfront.unique hmiddle]
  exact hlast.of_name.2.2

/-- The file and the siblings before a number are different entries, if these are files. -/
theorem number_le (h : Siblings store output directory name)
    (hfiles : ∀ k, 1 ≤ k → k < number → store.isFile (numberedSibling output k) = true) :
    number ≤ store.entries.length := by
  have hmaps : ∀ k, k < number → directory ++ [siblingName name k] ∈ store.locations := by
    intro k hk
    have hsome : (store.get? (directory ++ [siblingName name k])).isSome := by
      cases k with
      | zero => exact h.taken
      | succ k => exact h.isSome_of_isFile (hfiles (k + 1) (by omega) hk)
    obtain ⟨entry, hentry⟩ := Option.isSome_iff_exists.mp hsome
    exact mem_locations_of_get? (by simp) hentry
  have hinjective : Function.Injective fun k => directory ++ [siblingName name k] := by
    intro j k hsame
    exact siblingName_injective name (by simpa using hsame)
  have hcard : (Finset.range number).card ≤ store.locations.toFinset.card :=
    Finset.card_le_card_of_injOn _ (fun k hk => by simpa using hmaps k (by simpa using hk))
      hinjective.injOn
  rw [Finset.card_range] at hcard
  calc
    number ≤ store.locations.toFinset.card := hcard
    _ ≤ store.locations.length := store.locations.toFinset_card_le
    _ = store.entries.length := List.length_map _

end Siblings

/-! ### The search -/

/-- The search passes over files only, and it stops at no file unless the rounds run out. -/
theorem freeNumber_spec (store : FileStore) (output : Path) (rounds start : Nat) :
    start ≤ freeNumber store output rounds start ∧
      (∀ k, start ≤ k → k < freeNumber store output rounds start →
        store.isFile (numberedSibling output k) = true) ∧
      (freeNumber store output rounds start < start + rounds →
        store.isFile (numberedSibling output (freeNumber store output rounds start)) = false) := by
  induction rounds generalizing start with
  | zero =>
    rw [freeNumber]
    exact ⟨Nat.le_refl _, fun k hle hlt => by omega, fun hlt => by omega⟩
  | succ rounds ih =>
    rw [freeNumber]
    split
    case isTrue hfile =>
      obtain ⟨hle, hfiles, hfree⟩ := ih (start + 1)
      refine ⟨by omega, fun k hk hlt => ?_, fun hlt => hfree (by omega)⟩
      by_cases hstart : k = start
      · rw [hstart, hfile]
      · exact hfiles k (by omega) hlt
    case isFalse hfile =>
      exact ⟨Nat.le_refl _, fun k hle hlt => by omega, fun _ => by simpa using hfile⟩

/-- The number that the search finds for an output. -/
def foundNumber (store : FileStore) (output : Path) : Nat :=
  freeNumber store output (store.entries.length + 1) 1

/-- The number that is found does not exceed that of the entries. -/
theorem Siblings.foundNumber_le (h : Siblings store output directory name) :
    foundNumber store output ≤ store.entries.length :=
  h.number_le (freeNumber_spec store output _ 1).2.1

/-- The search does not run out of rounds, and it finds the first sibling that is no file. -/
theorem Siblings.isLeast_foundNumber (h : Siblings store output directory name) :
    IsLeast {k | 1 ≤ k ∧ store.isFile (numberedSibling output k) = false}
      (foundNumber store output) := by
  obtain ⟨hle, hfiles, hfree⟩ := freeNumber_spec store output (store.entries.length + 1) 1
  have hbound := h.foundNumber_le
  rw [foundNumber] at hbound
  refine ⟨⟨hle, hfree (by omega)⟩, fun k hk => ?_⟩
  obtain ⟨hone, hnone⟩ := hk
  by_contra hlt
  rw [hfiles k hone (Nat.lt_of_not_le hlt)] at hnone
  cases hnone

/-! ### The directory that is made -/

/-- Making a sibling makes at most the directory at its place, and it succeeds if there is nothing
yet or the sibling is a directory. -/
theorem Siblings.createDirectories (h : Siblings store output directory name)
    (hformed : store.WellFormed) (number : Nat) :
    let result := FileM.createDirectories (numberedSibling output number) store
    store.Grows (fun _ => False) (· = directory ++ [numberedName name number])
        (stateAfter result) ∧
      ((valueOf? result).isSome ↔ store.isDirectory (numberedSibling output number) = true ∨
        (store.parentOf (numberedSibling output number) =
            .ok (directory, some (numberedName name number)) ∧
          store.get? (directory ++ [numberedName name number]) = none)) := by
  obtain ⟨front, hstepNames, -, hfront⟩ := h.leads number
  rcases FileM.createDirectories_of_leads hstepNames (h.noNul number) (h.ne_empty number) hfront
    h.directoryThere with ⟨hparent, hnone, hresult⟩ | ⟨hsome, error, hresult⟩
  · rw [hresult]
    refine ⟨FileM.grows_put_directory _ hformed hparent hnone rfl, ?_⟩
    exact iff_of_true rfl (.inr ⟨hparent, hnone⟩)
  · have hnever : ¬ (store.parentOf (numberedSibling output number) =
          .ok (directory, some (numberedName name number)) ∧
        store.get? (directory ++ [numberedName name number]) = none) := by
      rintro ⟨hparent, hnone⟩
      have hentry := hsome hparent
      rw [hnone] at hentry
      cases hentry
    rw [hresult, or_iff_left hnever]
    split
    · rename_i hdirectory
      exact ⟨.refl _ _ _, iff_of_true rfl hdirectory⟩
    · rename_i hdirectory
      exact ⟨.refl _ _ _, iff_of_false Bool.false_ne_true hdirectory⟩

/-- If a file has the name of the output directory, then the output is the first sibling `name-1`,
`name-2` and so on that is no file. Its number is at most the number of entries of the store, so the
search ends and its counter stays as small as that. There is one warning, no file is made, removed
or changed, and no directory is made but the sibling; all this holds also if the directory cannot be
made, which is when there is something else or a name or the path is too long. If no file has the
name, then there is no warning, and the output is what was asked for. -/
theorem outputDirectory_of_some {world : World} (h : world.store.WellFormed)
    (input output : Path) :
    let result := outputDirectory input (some output) world
    let after := stateAfter result
    (world.store.isFile output = true → ∃ directory name number,
      let sibling := numberedSibling output number
      world.store.parentOf output = .ok (directory, some name) ∧
        (∀ k, (numberedSibling output k).components =
          output.components.dropLast ++ [.name s!"{name}-{k}"]) ∧
        IsLeast {k | 1 ≤ k ∧ world.store.isFile (numberedSibling output k) = false} number ∧
        number ≤ world.store.entries.length ∧
        after.journal = world.journal.append [.warning (collisionMessage output sibling)] ∧
        world.store.Grows (fun _ => False) (· = directory ++ [s!"{name}-{number}"]) after.store ∧
        ((valueOf? result).isSome ↔ world.store.isDirectory sibling = true ∨
          (world.store.parentOf sibling = .ok (directory, some s!"{name}-{number}") ∧
            world.store.get? (directory ++ [s!"{name}-{number}"]) = none)) ∧
        ∀ target, valueOf? result = some target →
          target = after.store.normalize sibling ∧ after.store.isDirectory sibling = true) ∧
      (world.store.isFile output = false →
        after.journal = world.journal ∧
          ∀ target, valueOf? result = some target → target = after.store.normalize output) := by
  refine ⟨fun hfile => ?_, fun hfile => ?_⟩
  · obtain ⟨directory, name, hsiblings⟩ := exists_siblings h hfile
    obtain ⟨hgrows, hsome⟩ := hsiblings.createDirectories h (foundNumber world.store output)
    refine ⟨directory, name, foundNumber world.store output, hsiblings.around,
      hsiblings.components, hsiblings.isLeast_foundNumber, hsiblings.foundNumber_le, ?_⟩
    rw [outputDirectory_of_isFile input world hfile, freeSibling, ← foundNumber]
    cases hmade : FileM.createDirectories (numberedSibling output (foundNumber world.store output))
        world.store with
    | error error ready =>
      rw [hmade] at hgrows hsome
      exact ⟨rfl, hgrows, hsome, fun target htarget => by cases htarget⟩
    | ok _ ready =>
      rw [hmade] at hgrows hsome
      refine ⟨rfl, hgrows, hsome, fun target htarget => ?_⟩
      cases htarget
      exact ⟨rfl, (FileM.isDirectory_of_createDirectories h hmade).resolve_left
        (hsiblings.ne_empty _)⟩
  · rw [outputDirectory_of_not_isFile input world hfile]
    cases FileM.createDirectories output world.store with
    | error error ready => exact ⟨rfl, fun target htarget => by cases htarget⟩
    | ok _ ready =>
      refine ⟨rfl, fun target htarget => ?_⟩
      cases htarget
      rfl

/-- A file, a sibling that is a link to it, and one more sibling after a gap. -/
def takenNames : FileStore where
  entries := [(["work"], .directory), (["work", "out"], .file ⟨#[]⟩),
    (["work", "out-1"], .link ⟨"out"⟩), (["work", "out-3"], .file ⟨#[]⟩)]
  workingDirectory := ["work"]

/-- The first sibling is a link to the file and counts as taken, so the second one is made. -/
theorem outputDirectory_of_some_takenNames :
    let output : Path := ⟨".//./out"⟩
    let result := outputDirectory ⟨"src"⟩ (some output) { store := takenNames }
    takenNames.WellFormed ∧ takenNames.isFile output = true ∧
      takenNames.Grows (fun _ => False) (· = ["work", "out-2"]) (stateAfter result).store ∧
      valueOf? result = some ⟨"/work/out-2"⟩ := by
  have hformed : takenNames.WellFormed := by decide +kernel
  have hfile : takenNames.isFile ⟨".//./out"⟩ = true := by decide +kernel
  obtain ⟨directory, name, number, haround, -, hleast, -, -, hgrows, -⟩ :=
    (outputDirectory_of_some (show World.store { store := takenNames } |>.WellFormed from hformed)
      ⟨"src"⟩ ⟨".//./out"⟩).1 hfile
  have hplace : takenNames.parentOf ⟨".//./out"⟩ = .ok (["work"], some "out") := by decide +kernel
  have hsecond : IsLeast
      {k | 1 ≤ k ∧ takenNames.isFile (numberedSibling ⟨".//./out"⟩ k) = false} 2 := by
    refine ⟨⟨by decide, by decide +kernel⟩, fun k hk => ?_⟩
    by_contra hlt
    obtain rfl : k = 1 := by have := hk.1; omega
    exact absurd hk.2 (by decide +kernel)
  obtain rfl : number = 2 := Nat.le_antisymm (hleast.2 hsecond.1) (hsecond.2 hleast.1)
  cases haround.symm.trans hplace
  exact ⟨hformed, hfile, hgrows, by decide +kernel⟩

end Retouch
