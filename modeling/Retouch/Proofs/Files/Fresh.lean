import Retouch.Proofs.Files.Effects

/-!
# Directories that are made for a new path

In a store without links, a path without `..` goes straight down, and so do the paths above it
(`mem_ancestorsUpTo_cases`). Making its directory makes only directories on that way
(`grows_createDirectories_straight`). So if the path led nowhere before, then the directory is new,
and it is empty (`createDirectories_fresh`).
-/

namespace Retouch

namespace Path

variable {path parent : Path}

/-- Segments are what is between the slashes, so they hold none. -/
theorem noSlash_of_mem_segments {segment : String} (h : segment ∈ path.segments) :
    '/' ∉ segment.toList := by
  obtain ⟨part, hpart, rfl⟩ := List.mem_map.mp h
  rw [String.toList_ofList]
  exact fun hslash => (mem_of_mem_splitSlashes hpart hslash).2 rfl

/-- A path starts at the root if there is nothing before its first slash. -/
theorem isAbsolute_iff :
    path.isAbsolute = true ↔ ∃ rest, rest ≠ [] ∧ path.segments = "" :: rest := by
  rw [isAbsolute, decide_eq_true_eq, segments]
  cases path.raw.toList with
  | nil => simp [splitSlashes]
  | cons c rest =>
    have hne : splitSlashes rest ≠ [] := by
      rw [splitSlashes_eq_splitOn]
      exact List.splitOn_ne_nil _ _
    obtain ⟨part, parts, hparts⟩ := List.exists_cons_of_ne_nil hne
    rw [splitSlashes, hparts]
    by_cases hslash : c = '/' <;> simp [hslash]

/-- Segments are dropped at the end only. -/
theorem dropIdle_isPrefix (segments : List String) : dropIdle segments <+: segments := by
  rw [dropIdle, ← List.reverse_suffix, List.reverse_reverse]
  exact List.dropWhile_suffix _

/-- A path that is put together from segments starts at the root if the first one is empty, and its
steps are theirs. -/
theorem ofSegments_spec {first : String} {rest : List String}
    (hslash : ∀ segment ∈ first :: rest, '/' ∉ segment.toList) :
    ((ofSegments first rest).isAbsolute = true ↔ first = "") ∧
      (ofSegments first rest).segments.filterMap stepOf? = (first :: rest).filterMap stepOf? := by
  rw [ofSegments]
  split
  case isTrue hroot =>
    simp only [Bool.and_eq_true, decide_eq_true_eq, List.isEmpty_iff] at hroot
    obtain ⟨rfl, rfl⟩ := hroot
    exact ⟨by decide, by decide +kernel⟩
  case isFalse hother =>
    simp only [Bool.and_eq_true, decide_eq_true_eq, List.isEmpty_iff, not_and] at hother
    rw [isAbsolute_iff, segments_intercalate (List.cons_ne_nil _ _) hslash]
    refine ⟨⟨?_, ?_⟩, rfl⟩
    · rintro ⟨_, -, hsegments⟩
      exact (List.cons.inj hsegments).1
    · intro hfirst
      exact ⟨rest, hother hfirst, by rw [hfirst]⟩

/-- The path above a path is the empty one, or it starts at the same place and goes a part of the
way. -/
theorem parent?_cases (h : path.parent? = some parent) :
    parent = ⟨""⟩ ∨ (parent.isAbsolute = path.isAbsolute ∧
      parent.segments.filterMap stepOf? <+: path.segments.filterMap stepOf?) := by
  cases hsegments : path.segments with
  | nil => simp [parent?, hsegments] at h
  | cons first rest =>
    rw [parent?, hsegments] at h
    dsimp only at h
    split at h
    case h_1 =>
      split at h
      · cases h
      · cases h
        exact .inl rfl
    case h_2 hkept =>
      cases h
      right
      -- segments are only taken away at the end
      have hmore : dropIdle (dropIdle rest).dropLast <+: rest :=
        ((dropIdle_isPrefix _).trans (List.dropLast_prefix _)).trans (dropIdle_isPrefix rest)
      have hwhole : first :: dropIdle (dropIdle rest).dropLast <+: first :: rest :=
        List.cons_prefix_cons.mpr ⟨rfl, hmore⟩
      have hslash : ∀ segment ∈ first :: dropIdle (dropIdle rest).dropLast,
          '/' ∉ segment.toList := by
        intro segment hsegment
        have hmem : segment ∈ path.segments := by
          rw [hsegments]
          exact hwhole.subset hsegment
        exact noSlash_of_mem_segments hmem
      obtain ⟨habsolute, hsteps⟩ := ofSegments_spec hslash
      constructor
      · rw [Bool.eq_iff_iff, habsolute, isAbsolute_iff, hsegments]
        constructor
        · rintro rfl
          refine ⟨rest, ?_, rfl⟩
          rintro rfl
          exact hkept rfl
        · rintro ⟨_, -, heq⟩
          exact (List.cons.inj heq).1
      · rw [hsteps]
        exact hwhole.filterMap stepOf?

/-- Above the empty path there is nothing. -/
theorem ancestorsUpTo_empty (limit : Nat) : ancestorsUpTo limit ⟨""⟩ = [⟨""⟩] := by
  cases limit <;> rfl

/-- The paths above a path, but the empty one, start at the same place and go a part of the way. -/
theorem mem_ancestorsUpTo_cases {above : Path} {limit : Nat}
    (h : above ∈ ancestorsUpTo limit path) :
    above = ⟨""⟩ ∨ (above.isAbsolute = path.isAbsolute ∧
      above.segments.filterMap stepOf? <+: path.segments.filterMap stepOf?) := by
  induction limit generalizing path with
  | zero =>
    rw [ancestorsUpTo, List.mem_singleton] at h
    exact .inr (h ▸ ⟨rfl, List.prefix_rfl⟩)
  | succ limit ih =>
    rw [ancestorsUpTo] at h
    split at h
    case h_2 =>
      rw [List.mem_singleton] at h
      exact .inr (h ▸ ⟨rfl, List.prefix_rfl⟩)
    case h_1 parent hparent =>
      rcases List.mem_cons.mp h with rfl | h
      · exact .inr ⟨rfl, List.prefix_rfl⟩
      · rcases parent?_cases hparent with rfl | ⟨hstart, hpart⟩
        · rw [ancestorsUpTo_empty, List.mem_singleton] at h
          exact .inl h
        · rcases ih h with hempty | ⟨habsolute, hsteps⟩
          · exact .inl hempty
          · exact .inr ⟨habsolute.trans hstart, hsteps.trans hpart⟩

/-- A step up is a component of the path. -/
theorem up_mem_components_of_step (h : .up ∈ path.segments.filterMap stepOf?) :
    .up ∈ path.components := by
  obtain ⟨segment, hsegment, hstep⟩ := List.mem_filterMap.mp h
  refine List.mem_append_right _ (List.mem_filterMap.mpr ⟨segment, hsegment, ?_⟩)
  simp only [stepOf?] at hstep
  split at hstep
  · cases hstep
  · split at hstep
    · cases hstep
    · split at hstep
      · rename_i hup
        subst hup
        rfl
      · cases hstep

end Path

namespace FileM

open FileStore

variable {store after : FileStore} {path : Path} {base : Location}

/-- Where there are no links, making the directory of a path without `..` makes only directories on
the way straight down. -/
theorem grows_createDirectories_straight (h : store.WellFormed) (hlinks : store.NoLinks)
    (hup : .up ∉ path.segments.filterMap Path.stepOf?) :
    store.Grows (fun _ => False)
      (· <+: store.startOf path ++ namesOf (path.segments.filterMap Path.stepOf?))
      (stateAfter (createDirectories path store)) := by
  refine grows_createAlong _ h fun above habove now hnow directory name hparent => ?_
  obtain ⟨front, hsteps, husable, hleads, -, -⟩ := parentOf_eq_ok hparent
  rcases Path.mem_ancestorsUpTo_cases habove with rfl | ⟨habsolute, hpart⟩
  · exact absurd rfl husable.ne_empty
  · rw [hsteps] at hpart
    have hfront : .up ∉ front := fun hmem => hup (hpart.subset (List.mem_append_left _ hmem))
    have hstart : now.startOf above = store.startOf path := by
      rw [startOf, startOf, hnow.workingDirectory, habsolute]
    have hdirectory := hleads.eq_append ((hnow.noLinks hlinks).clear _) hfront
    have hnames : namesOf (front ++ [.name name]) = namesOf front ++ [name] := List.filterMap_append
    rw [hdirectory, hstart, List.append_assoc, List.prefix_append_right_inj, ← hnames]
    exact hpart.filterMap _

/-- The slash at the end of a path is no name and not `..`. -/
theorem steps_cases (path : Path) :
    namesOf path.steps = namesOf (path.segments.filterMap Path.stepOf?) ∧
      (.up ∈ path.steps → .up ∈ path.segments.filterMap Path.stepOf?) := by
  rw [Path.steps]
  split
  · exact ⟨by simp [namesOf], by simp⟩
  · exact ⟨rfl, id⟩

/-- In a store without links, if a path without `..` leads nowhere, then there is nothing where its
directory is made, and nothing in that directory afterwards. -/
theorem createDirectories_fresh (h : store.WellFormed) (hlinks : store.NoLinks)
    (hup : .up ∉ path.components) (hnew : store.pathExists path = false)
    (hcreate : createDirectories path store = .ok () after) (hbase : after.locate path = .ok base) :
    (∀ location, base <+: location → store.get? location = none) ∧
      ∀ location, base <+: location → location ≠ base → after.get? location = none := by
  obtain ⟨hnames, hslash⟩ := steps_cases path
  have hsegments : .up ∉ path.segments.filterMap Path.stepOf? :=
    fun hmem => hup (Path.up_mem_components_of_step hmem)
  have hgrows := grows_createDirectories_straight h hlinks hsegments
  rw [hcreate, stateAfter] at hgrows
  obtain ⟨husable, hleads⟩ := locate_eq_ok_iff.mp hbase
  -- without links and `..` the names alone lead to the base, before and after
  have hplace : base = store.startOf path ++ namesOf path.steps := by
    rw [← startOf_of_grows hgrows path]
    exact hleads.eq_append ((hgrows.noLinks hlinks).clear _) fun hmem => hsegments (hslash hmem)
  rw [← hnames, ← hplace] at hgrows
  have hdirectory : after.get? base = some .directory := by
    rcases isDirectory_of_createDirectories h hcreate with hraw | hdirectory
    · exact absurd hraw husable.ne_empty
    · obtain ⟨other, hother, hentry⟩ := isDirectory_iff_locate.mp hdirectory
      rw [hbase] at hother
      cases hother
      exact hentry
  -- a file at the base would still be one, and a directory would have been found
  have hnone : store.get? base = none := by
    cases hentry : store.get? base with
    | none => rfl
    | some entry =>
      cases entry with
      | link target => exact absurd hentry (hlinks base target)
      | file content =>
        obtain ⟨_, hfile⟩ := hgrows.file hentry
        rw [hdirectory] at hfile
        cases hfile
      | directory =>
        rw [hplace] at hentry
        have hlocate := locate_eq_ok_iff.mpr
          ⟨husable, leads_of_directory h (fun hmem => hsegments (hslash hmem)) hentry⟩
        simp [pathExists, entryAt?, hlocate, hentry] at hnew
  have hbelow : ∀ location, base <+: location → store.get? location = none := by
    intro location hlocation
    cases hentry : store.get? location with
    | none => rfl
    | some entry =>
      by_cases hsame : base = location
      · rw [← hsame, hnone] at hentry
        cases hentry
      · rw [h.get?_of_isPrefix hlocation hsame hentry] at hnone
        cases hnone
  refine ⟨hbelow, fun location hlocation hne => ?_⟩
  rw [hgrows.get?_eq id fun hmade => hne (hmade.eq_of_length_le hlocation.length_le)]
  exact hbelow location hlocation

end FileM

end Retouch
