import Retouch.Proofs.Files.Joining
import Retouch.Proofs.Run.DirectoryRun

/-!
# What entries relative to a target mean

An entry such as `./vendor` of a list of ignored paths is meant below the target of the run. What is
below the target is said by locations here: the names of the rest, after the names of the target.

* **One entry** (`resolveEntry?_of_dotted`): what follows the dot is joined to the target, and the
  entry is replaced if that path exists. If the rest is relative and has no `..`, then this is the
  entry of the store straight below the target, however the rest is spelled (`locate_join_iff`).
* **All entries** are taken one by one, and the set that they make up covers what one of them covers
  (`IgnoreSet.contains_ofPaths_iff`).

A rest that starts with a slash is not joined but stands for itself, so an entry with two slashes
after its dot does not mean what is below the target.
-/

namespace Retouch

open FileStore

variable {store : FileStore} {target entry rest path : Path} {root place : Location}

/-! ### Entries that start with a dot -/

/-- The entry is `./` or `.\` followed by the rest. -/
def Path.IsDotted (entry rest : Path) : Prop :=
  entry.raw = "./" ++ rest.raw ∨ entry.raw = ".\\" ++ rest.raw

/-- An entry is taken apart exactly if it starts with a dot and a separator. -/
theorem Path.afterDot?_eq_some_iff : entry.afterDot? = some rest ↔ entry.IsDotted rest := by
  have hlist : entry.IsDotted rest ↔ entry.raw.toList = '.' :: '/' :: rest.raw.toList ∨
      entry.raw.toList = '.' :: '\\' :: rest.raw.toList := by
    rw [IsDotted, ← String.toList_inj, ← String.toList_inj]
    simp
  have hsame : ∀ others, some (Path.mk (String.ofList others)) = some rest ↔
      others = rest.raw.toList := by
    intro others
    constructor
    · rintro ⟨⟩
      simp
    · intro heq
      rw [heq, String.ofList_toList]
  rw [hlist, afterDot?]
  split
  · rename_i others hraw
    rw [hraw, hsame]
    simp
  · rename_i others hraw
    rw [hraw, hsame]
    simp
  · rename_i hslash hback
    constructor
    · rintro h
      cases h
    · rintro (h | h)
      · exact absurd h (hslash _)
      · exact absurd h (hback _)

/-- An entry that does not start like this is not looked up. -/
theorem resolveEntry?_of_not_dotted (h : ∀ rest, ¬ entry.IsDotted rest) :
    store.resolveEntry? target entry = none := by
  cases hdot : entry.afterDot? with
  | none =>
    unfold resolveEntry?
    rw [hdot]
    rfl
  | some rest => exact absurd (Path.afterDot?_eq_some_iff.mp hdot) (h rest)

/-- In a directory, an entry that starts with a dot is replaced if the joined path exists. -/
theorem resolveEntry?_of_dotted (hdirectory : store.isDirectory target = true)
    (h : entry.IsDotted rest) :
    store.resolveEntry? target entry =
      if store.pathExists (target.join rest) then some (store.normalize (target.join rest))
      else none := by
  unfold resolveEntry?
  rw [Path.afterDot?_eq_some_iff.mpr h, baseOf, if_pos hdirectory]
  rfl

/-! ### Sets of ignored paths -/

namespace IgnoreSet

/-- Whether a path is ignored is a matter of the location that it leads to. -/
theorem contains_of_locate (ignored : IgnoreSet) (h : store.locate path = .ok place) :
    ignored.contains store path = ignored.covers place := by
  rw [contains, normalize_of_locate h, covers]

/-- An existing path is ignored if one of the ignored paths is it or above it. -/
theorem contains_ofPaths_iff (paths : List Path) (h : store.locate path = .ok place) :
    (ofPaths store paths).contains store path = true ↔
      ∃ ignored ∈ paths, place.toPath.beginsWith (store.normalize ignored) = true := by
  rw [contains_of_locate _ h, ofPaths, covers_foldl_insert]
  simp [covers]

/-- One ignored path leaves out what its normal form is above. -/
theorem contains_ofPaths_singleton_iff (ignored : Path) (h : store.locate path = .ok place) :
    (ofPaths store [ignored]).contains store path = true ↔
      place.toPath.beginsWith (store.normalize ignored) = true := by
  rw [contains_ofPaths_iff _ h]
  simp only [List.mem_singleton, exists_eq_left]

/-- Ignoring the path of an entry is ignoring what is at or below it. -/
theorem contains_ofPaths_toPath_iff {ignored : Location} (h : store.WellFormed)
    (hlinks : store.NoLinks) (hignored : (store.get? ignored).isSome)
    (hpath : store.locate path = .ok place) :
    (ofPaths store [ignored.toPath]).contains store path = true ↔ ignored <+: place := by
  obtain ⟨entry, hentry⟩ := Option.isSome_iff_exists.mp hignored
  have hproper := h.proper_of_get? hentry
  obtain ⟨-, hleads⟩ := locate_eq_ok_iff.mp hpath
  have hthere := hleads.isSome h (by rw [h.get?_startOf, Option.isSome_some])
  obtain ⟨other, hother⟩ := Option.isSome_iff_exists.mp hthere
  rw [contains_ofPaths_singleton_iff _ hpath, normalize_toPath h hproper (hlinks.clear _),
    Location.beginsWith_toPath_iff (h.proper_of_get? hother) hproper]

end IgnoreSet

/-! ### All entries -/

/-- A path exists exactly if it leads somewhere. -/
theorem pathExists_iff_locate (h : store.WellFormed) :
    store.pathExists path = true ↔ ∃ place, store.locate path = .ok place := by
  rw [pathExists, entryAt?]
  cases hlocate : store.locate path with
  | error error => simp
  | ok place =>
    obtain ⟨-, hleads⟩ := locate_eq_ok_iff.mp hlocate
    simpa using hleads.isSome h (by rw [h.get?_startOf, Option.isSome_some])

/-- Each entry is replaced by what it is found to mean, or stays as it is. -/
theorem resolveEntries_fst (store : FileStore) (target : Path) (entries : List Path) :
    (store.resolveEntries target entries).1 =
      entries.map fun entry => store.resolveEntry? target entry |>.getD entry := by
  rw [resolveEntries, List.map_map]
  rfl

/-- In a store without links, entries for a directory are taken one by one. An entry that starts
with neither `./` nor `.\` stays as it is. Any other is replaced by the normal form of its rest
joined to the directory if that exists, and stays as it is if not. When the rest is relative and has
no `..`, the joined path exists just if there is an entry straight below the directory, unless it is
too long or asks for a directory where a file is; the result is then the normal form of that entry,
and ignoring it is ignoring the entry and what is below it. -/
theorem resolveEntries_below (h : store.WellFormed) (hlinks : store.NoLinks)
    (htarget : store.locate target = .ok root) (hroot : store.get? root = some .directory)
    (entries : List Path) :
    let results := (store.resolveEntries target entries).1
    List.Forall₂ (fun entry result =>
        ((∀ rest, ¬ entry.IsDotted rest) → result = entry) ∧
          ∀ rest, entry.IsDotted rest →
            (store.pathExists (target.join rest) = false → result = entry) ∧
            (store.pathExists (target.join rest) = true →
              result = store.normalize (target.join rest)) ∧
            (rest.isAbsolute = false → .up ∉ rest.components →
              (store.pathExists (target.join rest) = true ↔
                (target.join rest).raw.utf8ByteSize < pathLimit ∧
                  (store.get? (root ++ namesOf rest.steps)).isSome ∧
                  (rest.steps.getLast? = some .here ∨ rest.steps.getLast? = some .slash →
                    store.get? (root ++ namesOf rest.steps) = some .directory)) ∧
              (store.pathExists (target.join rest) = true →
                result = (root ++ namesOf rest.steps).toPath ∧
                  ∀ path place, store.locate path = .ok place →
                    ((IgnoreSet.ofPaths store [result]).contains store path = true ↔
                      root ++ namesOf rest.steps <+: place))))
      entries results ∧
    ∀ path place, store.locate path = .ok place →
      ((IgnoreSet.ofPaths store results).contains store path = true ↔
        ∃ result ∈ results, (IgnoreSet.ofPaths store [result]).contains store path = true) := by
  have hdirectory := isDirectory_iff_locate.mpr ⟨root, htarget, hroot⟩
  refine ⟨?_, fun path place hpath => ?_⟩
  · rw [resolveEntries_fst, List.forall₂_map_right_iff, List.forall₂_same]
    intro entry _
    refine ⟨fun hplain => ?_, fun rest hdotted => ?_⟩
    · rw [resolveEntry?_of_not_dotted hplain, Option.getD_none]
    rw [resolveEntry?_of_dotted hdirectory hdotted]
    refine ⟨fun hmissing => ?_, fun hexists => ?_, fun hrelative hup => ?_⟩
    · rw [hmissing, if_neg Bool.false_ne_true, Option.getD_none]
    · rw [if_pos hexists, Option.getD_some]
    · have hjoin := locate_join_iff h hlinks hrelative hup htarget hroot
      refine ⟨?_, fun hexists => ?_⟩
      · rw [pathExists_iff_locate h]
        simp only [hjoin, exists_eq_left]
      · obtain ⟨place, hplace⟩ := (pathExists_iff_locate h).mp hexists
        obtain ⟨rfl, -, hsome, -⟩ := (hjoin place).mp hplace
        rw [if_pos hexists, Option.getD_some, normalize_of_locate hplace]
        exact ⟨rfl, fun path other hpath =>
          IgnoreSet.contains_ofPaths_toPath_iff h hlinks hsome hpath⟩
  · simp only [IgnoreSet.contains_ofPaths_singleton_iff _ hpath,
      IgnoreSet.contains_ofPaths_iff _ hpath]

/-- A directory with another one in it and a file in each. -/
def vendorInSrc : FileStore where
  entries := [(["src"], .directory), (["src", "b.php"], .file ⟨#[]⟩),
    (["src", "vendor"], .directory), (["src", "vendor", "a.php"], .file ⟨#[]⟩)]

/-- Two entries that are looked up in the target, and one that is not. -/
theorem resolveEntries_below_vendorInSrc :
    let entries : List Path := [⟨".\\vendor//."⟩, ⟨"./b.php/"⟩, ⟨"vendor"⟩]
    vendorInSrc.WellFormed ∧ vendorInSrc.NoLinks ∧ vendorInSrc.locate ⟨"src/"⟩ = .ok ["src"] ∧
      vendorInSrc.get? ["src"] = some .directory ∧
      (vendorInSrc.resolveEntries ⟨"src/"⟩ entries).1 =
        [⟨"/src/vendor"⟩, ⟨"./b.php/"⟩, ⟨"vendor"⟩] ∧
      ∀ path place, vendorInSrc.locate path = .ok place →
        ((IgnoreSet.ofPaths vendorInSrc [⟨"/src/vendor"⟩]).contains vendorInSrc path = true ↔
          ["src", "vendor"] <+: place) := by
  have hformed : vendorInSrc.WellFormed := by decide +kernel
  have hlinks : vendorInSrc.NoLinks := noLinks_of_entries (by decide +kernel)
  have htarget : vendorInSrc.locate ⟨"src/"⟩ = .ok ["src"] := by decide +kernel
  have hroot : vendorInSrc.get? ["src"] = some .directory := by decide +kernel
  have hresults : (vendorInSrc.resolveEntries ⟨"src/"⟩
      [⟨".\\vendor//."⟩, ⟨"./b.php/"⟩, ⟨"vendor"⟩]).1 =
        [⟨"/src/vendor"⟩, ⟨"./b.php/"⟩, ⟨"vendor"⟩] := by decide +kernel
  obtain ⟨heach, -⟩ := resolveEntries_below hformed hlinks htarget hroot
    [⟨".\\vendor//."⟩, ⟨"./b.php/"⟩, ⟨"vendor"⟩]
  rw [hresults] at heach
  obtain ⟨⟨-, hdotted⟩, -⟩ := List.forall₂_cons.mp heach
  obtain ⟨-, -, hbelow⟩ := hdotted ⟨"vendor//."⟩ (.inr (by decide +kernel))
  obtain ⟨-, hpresent⟩ := hbelow (by decide +kernel) (by decide +kernel)
  have hcovers := (hpresent (by decide +kernel)).2
  have hnames : ["src"] ++ namesOf (⟨"vendor//."⟩ : Path).steps = ["src", "vendor"] := by
    decide +kernel
  rw [hnames] at hcovers
  exact ⟨hformed, hlinks, htarget, hroot, hresults, hcovers⟩

/-- With two slashes after the dot the rest is absolute, and the directory below the target is not
ignored, although it is there. -/
theorem resolveEntries_two_slashes :
    let entry : Path := ⟨".//vendor"⟩
    let rest : Path := ⟨"/vendor"⟩
    vendorInSrc.WellFormed ∧ vendorInSrc.NoLinks ∧ vendorInSrc.locate ⟨"src"⟩ = .ok ["src"] ∧
      entry.IsDotted rest ∧ .up ∉ rest.components ∧ namesOf rest.steps = ["vendor"] ∧
      vendorInSrc.get? ["src", "vendor"] = some .directory ∧
      (vendorInSrc.resolveEntries ⟨"src"⟩ [entry]).1 = [entry] ∧
      (IgnoreSet.ofPaths vendorInSrc [entry]).contains vendorInSrc ⟨"src/vendor/a.php"⟩ = false :=
  ⟨by decide +kernel, noLinks_of_entries (by decide +kernel), by decide +kernel,
    .inl (by decide +kernel), by decide +kernel, by decide +kernel, by decide +kernel,
    by decide +kernel, by decide +kernel⟩

end Retouch
