import Mathlib.Data.List.DropRight
import Retouch.Proofs.Files.Fresh

/-!
# Paths that are put together

Two functions make a path out of others: `Path.join` appends one, and `Path.withFileName` puts
another name in the place of the last one. Both work on the text, and the text has more to it than
the path means: slashes may be repeated or stand at the end, and `.` may stand anywhere.

* `segments_join` and `segments_join_of_open`: appending a relative path appends its segments, to
  all of the path or to all but the empty segment that a slash at its end leaves. So it appends the
  steps (`stepNames_join`, `steps_join`).
* `exists_segments_withFileName`: another name comes in the place of the last one, and nothing but
  empty segments and `.` is lost before it. So the components differ in the last one only
  (`components_withFileName`).
* `locate_join_iff`: where there are no links, a relative path without `..` that is joined to the
  path of a directory leads straight down from there.
-/

namespace Retouch

namespace Path

variable {path rest : Path} {front kept : List String} {name other : String}

/-! ### Segments -/

/-- Texts with a slash between them have the segments of both. -/
theorem segments_append_slash (a b : String) :
    (⟨a ++ "/" ++ b⟩ : Path).segments = (⟨a⟩ : Path).segments ++ (⟨b⟩ : Path).segments := by
  have hlist : (a ++ "/" ++ b).toList = a.toList ++ '/' :: b.toList := by simp
  rw [segments, segments, segments, hlist, splitSlashes_eq_splitOn, splitSlashes_eq_splitOn,
    splitSlashes_eq_splitOn, List.splitOn_append_cons_self, List.map_append]

/-- The segments with slashes between them are the path. -/
theorem intercalate_segments (path : Path) : "/".intercalate path.segments = path.raw := by
  refine String.toList_inj.mp ?_
  rw [String.toList_intercalate, segments, List.map_map, splitSlashes_eq_splitOn]
  have hmap : (path.raw.toList.splitOn '/').map (String.toList ∘ String.ofList) =
      path.raw.toList.splitOn '/' := List.map_id'' (fun _ => String.toList_ofList) _
  rw [hmap]
  exact List.intercalate_splitOn '/'

/-- The text of a path is empty or ends with a slash just if its last segment is empty. -/
theorem segments_eq_concat_empty_iff :
    (∃ kept, path.segments = kept ++ [""]) ↔ path.raw = "" ∨ path.endsWithSlash = true := by
  constructor
  · rintro ⟨kept, hsegments⟩
    have hraw := intercalate_segments path
    rw [hsegments] at hraw
    by_cases hkept : kept = []
    · subst hkept
      exact .inl (by simpa using hraw.symm)
    · right
      rw [String.intercalate_append_of_ne_nil hkept (List.cons_ne_nil _ _)] at hraw
      simp [endsWithSlash, ← hraw]
  · rintro (hraw | hslash)
    · refine ⟨[], ?_⟩
      rw [segments, hraw]
      rfl
    · rw [endsWithSlash, decide_eq_true_eq] at hslash
      obtain ⟨before, hbefore⟩ := List.getLast?_eq_some_iff.mp hslash
      have hraw : path = ⟨String.ofList before ++ "/" ++ ""⟩ := by
        refine congrArg Path.mk (String.toList_inj.mp ?_)
        simpa using hbefore
      exact ⟨_, by rw [hraw, segments_append_slash]; rfl⟩

/-- A path whose last segment is not empty does not end with a slash. -/
theorem closed_of_segments (hpath : path.segments = front ++ [name]) (hname : name ≠ "") :
    path.raw ≠ "" ∧ path.endsWithSlash = false := by
  rw [← Bool.not_eq_true, ne_eq, ← not_or, ← segments_eq_concat_empty_iff, hpath]
  rintro ⟨kept, heq⟩
  exact hname (List.singleton_inj.mp (List.append_inj_right' heq rfl))

/-- Every segment but the empty one stands for a step. -/
theorem exists_stepOf? {segment : String} (hsegment : segment ≠ "") :
    ∃ step, stepOf? segment = some step := by
  rw [stepOf?, if_neg hsegment]
  split
  · exact ⟨_, rfl⟩
  · split
    · exact ⟨_, rfl⟩
    · exact ⟨_, rfl⟩

/-- Every path has a segment, the empty one included. -/
theorem segments_ne_nil (path : Path) : path.segments ≠ [] := by
  rw [segments, splitSlashes_eq_splitOn]
  simp

/-- Every character but a slash is in some segment. -/
theorem exists_mem_splitSlashes {text : List Char} {c : Char} (hc : c ∈ text) (hslash : c ≠ '/') :
    ∃ part ∈ splitSlashes text, c ∈ part := by
  induction text with
  | nil => exact absurd hc List.not_mem_nil
  | cons d rest ih =>
    rw [splitSlashes]
    rcases List.mem_cons.mp hc with rfl | hc
    · rw [if_neg hslash]
      split
      · exact ⟨_, List.mem_cons_self, List.mem_cons_self⟩
      · exact ⟨_, List.mem_cons_self, List.mem_cons_self⟩
    · obtain ⟨part, hpart, hmem⟩ := ih hc
      split
      · exact ⟨part, List.mem_cons_of_mem _ hpart, hmem⟩
      · split
        · rename_i hnil
          rw [hnil] at hpart
          exact absurd hpart List.not_mem_nil
        · rename_i first parts hparts
          rw [hparts] at hpart
          rcases List.mem_cons.mp hpart with rfl | hpart
          · exact ⟨_, List.mem_cons_self, List.mem_cons_of_mem _ hmem⟩
          · exact ⟨part, List.mem_cons_of_mem _ hpart, hmem⟩

/-- A path is free of NULs if its segments are. -/
theorem holdsNul_eq_false_iff :
    path.holdsNul = false ↔ ∀ segment ∈ path.segments, '\x00' ∉ segment.toList := by
  simp only [holdsNul, List.contains_eq_mem, decide_eq_false_iff_not, segments, List.mem_map,
    forall_exists_index, and_imp, forall_apply_eq_imp_iff₂, String.toList_ofList]
  constructor
  · intro hnul part hpart hmem
    exact hnul (mem_of_mem_splitSlashes hpart hmem).1
  · intro hparts hmem
    obtain ⟨part, hpart, hnul⟩ := exists_mem_splitSlashes hmem (by decide)
    exact hparts part hpart hnul

/-- A path is free of NULs if the names on the way along it are. -/
theorem holdsNul_eq_false_of_names
    (h : ∀ name ∈ FileStore.namesOf (path.segments.filterMap stepOf?), '\x00' ∉ name.toList) :
    path.holdsNul = false := by
  refine holdsNul_eq_false_iff.mpr fun segment hsegment => ?_
  by_cases hidle : segment = "" ∨ segment = "." ∨ segment = ".."
  · rcases hidle with rfl | rfl | rfl
    · decide
    · decide
    · decide
  · obtain ⟨hempty, hhere, hup⟩ : segment ≠ "" ∧ segment ≠ "." ∧ segment ≠ ".." := by
      simpa using hidle
    have hstep : stepOf? segment = some (.name segment) := by
      rw [stepOf?, if_neg hempty, if_neg hhere, if_neg hup]
    refine h segment (List.mem_filterMap.mpr ⟨.name segment, ?_, rfl⟩)
    exact List.mem_filterMap.mpr ⟨segment, hsegment, hstep⟩

/-- A path whose steps end with a name is spelled with that name at the end. -/
theorem exists_segments_of_steps {before : List PathStep} (hraw : path.raw ≠ "")
    (hsteps : path.steps = before ++ [.name name]) :
    ∃ front, path.segments = front ++ [name] ∧ stepOf? name = some (.name name) ∧
      front.filterMap stepOf? = before := by
  rcases List.eq_nil_or_concat path.segments with hnil | ⟨front, last, hpath⟩
  · exact absurd hnil (segments_ne_nil path)
  rw [List.concat_eq_append] at hpath
  have hslash : path.endsWithSlash = false := by
    by_contra hslash
    rw [steps, Bool.not_eq_false _ |>.mp hslash, Bool.true_and] at hsteps
    split at hsteps
    · simpa using List.append_inj_right' hsteps rfl
    · rename_i hnone
      simp only [Bool.not_eq_true, Bool.not_eq_false', List.isEmpty_iff] at hnone
      rw [hnone] at hsteps
      simp at hsteps
  have hlast : last ≠ "" := by
    rintro rfl
    rcases segments_eq_concat_empty_iff.mp ⟨front, hpath⟩ with hempty | hend
    · exact hraw hempty
    · rw [hslash] at hend
      cases hend
  obtain ⟨step, hstep⟩ := exists_stepOf? hlast
  rw [steps, hslash, Bool.false_and, if_neg Bool.false_ne_true, hpath, List.filterMap_append,
    List.filterMap_cons_some hstep, List.filterMap_nil] at hsteps
  obtain ⟨hbefore, hsame⟩ := List.append_inj' hsteps rfl
  rw [List.singleton_inj.mp hsame] at hstep
  obtain ⟨rfl, -⟩ := stepOf?_eq_name hstep
  exact ⟨front, hpath, hstep, hbefore⟩

/-! ### Joining -/

/-- Joined paths have the segments of both, if the first one does not end with a slash. -/
theorem segments_join (hrest : rest.isAbsolute = false) (hpath : path.segments = front ++ [name])
    (hname : name ≠ "") : (path.join rest).segments = path.segments ++ rest.segments := by
  obtain ⟨hraw, hslash⟩ := closed_of_segments hpath hname
  rw [join, hrest, if_neg Bool.false_ne_true, if_neg (by simp [hraw, hslash]),
    segments_append_slash]

/-- A slash at the end of the first path is not doubled. -/
theorem segments_join_of_open (hrest : rest.isAbsolute = false)
    (hpath : path.segments = kept ++ [""]) : (path.join rest).segments = kept ++ rest.segments := by
  have hopen := segments_eq_concat_empty_iff.mp ⟨kept, hpath⟩
  have hraw := intercalate_segments path
  rw [hpath] at hraw
  rw [join, hrest, if_neg Bool.false_ne_true, if_pos (by simpa using hopen), ← hraw]
  by_cases hkept : kept = []
  · subst hkept
    simp
  · rw [String.intercalate_append_of_ne_nil hkept (List.cons_ne_nil _ _),
      String.intercalate_singleton, String.append_empty, segments_append_slash]
    refine congrArg (· ++ rest.segments) (segments_intercalate hkept fun segment hsegment => ?_)
    have hmem : segment ∈ path.segments := hpath ▸ List.mem_append_left _ hsegment
    exact noSlash_of_mem_segments hmem

/-- The steps along a joined path are those along the two paths. -/
theorem stepNames_join (path : Path) (hrest : rest.isAbsolute = false) :
    (path.join rest).segments.filterMap stepOf? =
      path.segments.filterMap stepOf? ++ rest.segments.filterMap stepOf? := by
  rcases List.eq_nil_or_concat path.segments with hnil | ⟨front, name, hpath⟩
  · exact absurd hnil (segments_ne_nil path)
  rw [List.concat_eq_append] at hpath
  by_cases hname : name = ""
  · subst hname
    have hempty : [""].filterMap stepOf? = [] := rfl
    rw [segments_join_of_open hrest hpath, hpath, List.filterMap_append, List.filterMap_append,
      hempty, List.append_nil]
  · rw [segments_join hrest hpath hname, List.filterMap_append]

/-- Joined with a relative path, a path starts where it did. -/
theorem isAbsolute_join (path : Path) (hrest : rest.isAbsolute = false) :
    (path.join rest).isAbsolute = path.isAbsolute := by
  rw [join, hrest, if_neg Bool.false_ne_true]
  by_cases hempty : path.raw = ""
  · have hpath : path.isAbsolute = false := by simp [isAbsolute, hempty]
    rw [if_pos (by simp [hempty]), hempty, String.empty_append, hpath, hrest]
  · obtain ⟨c, others, hlist⟩ := List.exists_cons_of_ne_nil
      (mt String.toList_eq_nil_iff.mp hempty)
    split <;> simp [isAbsolute, hlist]

/-- A path that is not empty does not get empty by joining. -/
theorem raw_join_ne_empty (hpath : path.raw ≠ "") : (path.join rest).raw ≠ "" := by
  rw [join]
  split
  case isTrue habsolute =>
    intro hempty
    simp [isAbsolute, hempty] at habsolute
  case isFalse =>
    split <;> simp [hpath]

/-- A relative path with a text has at least one step. -/
theorem stepNames_ne_nil (hrest : rest.isAbsolute = false) (hraw : rest.raw ≠ "") :
    rest.segments.filterMap stepOf? ≠ [] := by
  obtain ⟨first, more, hsegments⟩ := List.exists_cons_of_ne_nil (segments_ne_nil rest)
  have hfirst : first ≠ "" := by
    rintro rfl
    by_cases hmore : more = []
    · subst hmore
      have htext := intercalate_segments rest
      rw [hsegments] at htext
      exact hraw htext.symm
    · rw [isAbsolute_iff.mpr ⟨more, hmore, hsegments⟩] at hrest
      cases hrest
  obtain ⟨step, hstep⟩ := exists_stepOf? hfirst
  rw [hsegments, List.filterMap_cons_some hstep]
  exact List.cons_ne_nil _ _

/-- Joined paths end like the second one. -/
theorem endsWithSlash_join (path : Path) (hrest : rest.isAbsolute = false) (hraw : rest.raw ≠ "") :
    (path.join rest).endsWithSlash = rest.endsWithSlash := by
  have hjoin : ∃ before, (path.join rest).raw = before ++ rest.raw := by
    rw [join, hrest, if_neg Bool.false_ne_true]
    split
    · exact ⟨_, rfl⟩
    · exact ⟨_, rfl⟩
  obtain ⟨before, hbefore⟩ := hjoin
  obtain ⟨last, hlast⟩ : ∃ last, rest.raw.toList.getLast? = some last :=
    ⟨_, List.getLast?_eq_some_getLast (mt String.toList_eq_nil_iff.mp hraw)⟩
  rw [endsWithSlash, endsWithSlash, hbefore, String.toList_append, List.getLast?_append, hlast,
    Option.some_or]

/-- The steps along a joined path, with the slash at the end. Appending nothing adds a slash. -/
theorem steps_join (path : Path) (hrest : rest.isAbsolute = false) :
    (path.join rest).steps = path.segments.filterMap stepOf? ++ rest.steps ∨
      rest.raw = "" ∧ (path.join rest).steps = path.segments.filterMap stepOf? ++ [.slash] := by
  rw [steps, stepNames_join path hrest]
  by_cases hraw : rest.raw = ""
  · obtain rfl : rest = ⟨""⟩ := congrArg Path.mk hraw
    have hnone : (⟨""⟩ : Path).segments.filterMap stepOf? = [] := rfl
    have hsteps : (⟨""⟩ : Path).steps = [] := rfl
    rw [hnone, hsteps, List.append_nil]
    dsimp only
    split
    · exact .inr ⟨rfl, rfl⟩
    · exact .inl rfl
  · left
    have hsome := stepNames_ne_nil hrest hraw
    rw [endsWithSlash_join path hrest hraw, steps]
    by_cases hslash : rest.endsWithSlash = true
    · simp [hslash, hsome]
    · simp [hslash]

/-! ### Another name at the end -/

/-- What is dropped at the end is empty segments and dots. -/
theorem exists_eq_dropIdle_append (segments : List String) :
    ∃ idle, segments = dropIdle segments ++ idle ∧
      ∀ segment ∈ idle, segment = "" ∨ segment = "." := by
  refine ⟨segments.rtakeWhile fun segment => segment = "" || segment = ".", ?_, ?_⟩
  · exact List.rdropWhile_append_rtakeWhile.symm
  · intro segment hsegment
    simpa using List.mem_rtakeWhile_imp hsegment

/-- What is left ends with a segment that counts. -/
theorem ne_empty_of_dropIdle {segments : List String} {last : String}
    (h : dropIdle segments = front ++ [last]) : last ≠ "" := by
  have hdrop : (segments.rdropWhile fun segment => segment = "" || segment = ".") =
      front ++ [last] := h
  have hnot := List.rdropWhile_last_not (fun segment => segment = "" || segment = ".") segments
    (by rw [hdrop]; simp)
  rintro rfl
  simp [hdrop] at hnot

/-- A text without a slash is one segment. -/
theorem segments_of_noSlash (hother : '/' ∉ other.toList) :
    (⟨other⟩ : Path).segments = [other] := by
  have hsegments := segments_intercalate (List.cons_ne_nil other []) (by simpa using hother)
  rwa [String.intercalate_singleton] at hsegments

/-- A text without a slash does not start at the root. -/
theorem isAbsolute_of_noSlash (hother : '/' ∉ other.toList) :
    (⟨other⟩ : Path).isAbsolute = false := by
  rw [isAbsolute, decide_eq_false_iff_not]
  exact fun hhead => hother (List.mem_of_mem_head? hhead)

/-- A path starts at the root if its first segment is empty. -/
theorem isAbsolute_iff_of_segments (hpath : path.segments = front ++ [name]) (hname : name ≠ "") :
    path.isAbsolute = true ↔ front.head? = some "" := by
  rw [isAbsolute_iff, hpath]
  cases front with
  | nil => simp [hname]
  | cons first more => simp

/-- What a path means that ends with a name. -/
theorem components_of_segments (hpath : path.segments = front ++ [name])
    (hname : stepOf? name = some (.name name)) :
    path.components =
      (if front.head? = some "" then [.root] else if front.head? = some "." then [.here] else []) ++
        front.filterMap componentOf? ++ [.name name] := by
  obtain ⟨-, hempty, hhere, hup⟩ := stepOf?_eq_name hname
  have habsolute := isAbsolute_iff_of_segments hpath hempty
  have hcomponent : [name].filterMap componentOf? = [.name name] := by
    simp [componentOf?, hempty, hhere, hup]
  have hdot : path.segments.head? = some "." ↔ front.head? = some "." := by
    rw [hpath]
    cases front with
    | nil => simp [hhere]
    | cons first more => simp
  simp only [components, habsolute, hdot]
  rw [hpath, List.filterMap_append, hcomponent, ← List.append_assoc]

/-- The last segment is the name of the file, if it is a name. -/
theorem fileName?_of_segments (hpath : path.segments = front ++ [name])
    (hname : stepOf? name = some (.name name)) : path.fileName? = some name := by
  rw [fileName?, components_of_segments hpath hname, List.getLast?_concat]

/-- The path above one that ends with a name. -/
theorem parent?_of_segments {first : String} {more : List String}
    (hpath : path.segments = first :: more ++ [name]) (hname : stepOf? name = some (.name name)) :
    path.parent? = some (ofSegments first (dropIdle more)) := by
  obtain ⟨-, hempty, hhere, -⟩ := stepOf?_eq_name hname
  have hkept : dropIdle (more ++ [name]) = more ++ [name] := by simp [dropIdle, hempty, hhere]
  rw [parent?, hpath, List.cons_append]
  simp only [hkept]
  split
  · rename_i hnil
    simp at hnil
  · rw [List.dropLast_concat]

/-- The path above one that ends with a name, with a name appended. -/
theorem segments_ofSegments_join {first : String} {more : List String}
    (hslash : ∀ segment ∈ first :: more, '/' ∉ segment.toList) (hother : '/' ∉ other.toList) :
    ((ofSegments first (dropIdle more)).join ⟨other⟩).segments =
      first :: dropIdle more ++ [other] := by
  have hrelative := isAbsolute_of_noSlash hother
  have hlast := segments_of_noSlash hother
  rw [ofSegments]
  split
  case isTrue hroot =>
    simp only [Bool.and_eq_true, decide_eq_true_eq, List.isEmpty_iff] at hroot
    have hopen : (⟨"/"⟩ : Path).segments = [""] ++ [""] := by decide +kernel
    rw [segments_join_of_open hrelative hopen, hlast, hroot.1, hroot.2, List.singleton_append]
  case isFalse hroot =>
    have hkept : ∀ segment ∈ first :: dropIdle more, '/' ∉ segment.toList := fun segment h =>
      hslash segment ((List.cons_prefix_cons.mpr ⟨rfl, dropIdle_isPrefix more⟩).subset h)
    have hsegments := segments_intercalate (List.cons_ne_nil _ _) hkept
    have hclosed : ∃ front last, first :: dropIdle more = front ++ [last] ∧ last ≠ "" := by
      rcases List.eq_nil_or_concat (dropIdle more) with hnil | ⟨front, last, hmore⟩
      · refine ⟨[], first, by rw [hnil, List.nil_append], fun hfirst => hroot ?_⟩
        simp [hfirst, hnil]
      · rw [List.concat_eq_append] at hmore
        exact ⟨first :: front, last, by rw [hmore, List.cons_append], ne_empty_of_dropIdle hmore⟩
    obtain ⟨front, last, hfront, hne⟩ := hclosed
    rw [segments_join hrelative (hsegments.trans hfront) hne, hsegments, hlast]

/-- Another name comes in the place of the last one, and all before it stays, but for empty segments
and `.` right before the name. -/
theorem exists_segments_withFileName (hpath : path.segments = front ++ [name])
    (hname : stepOf? name = some (.name name)) (hother : '/' ∉ other.toList) :
    ∃ kept idle, front = kept ++ idle ∧ (∀ segment ∈ idle, segment = "" ∨ segment = ".") ∧
      kept.head? = front.head? ∧ (path.withFileName other).segments = kept ++ [other] := by
  have hfile := fileName?_of_segments hpath hname
  cases front with
  | nil =>
    obtain ⟨-, hempty, -, -⟩ := stepOf?_eq_name hname
    have hparent : path.parent? = some ⟨""⟩ := by
      rw [parent?, hpath]
      exact if_neg hempty
    refine ⟨[], [], rfl, by simp, rfl, ?_⟩
    have hopen : (⟨""⟩ : Path).segments = [] ++ [""] := rfl
    rw [withFileName, hfile, hparent]
    dsimp only
    rw [segments_join_of_open (isAbsolute_of_noSlash hother) hopen, segments_of_noSlash hother]
  | cons first more =>
    obtain ⟨idle, hmore, hidle⟩ := exists_eq_dropIdle_append more
    refine ⟨first :: dropIdle more, idle, by rw [List.cons_append, ← hmore], hidle, rfl, ?_⟩
    rw [withFileName, hfile, parent?_of_segments hpath hname]
    dsimp only
    refine segments_ofSegments_join (fun segment hsegment => ?_) hother
    have hmem : segment ∈ path.segments := hpath ▸ List.mem_append_left _ hsegment
    exact noSlash_of_mem_segments hmem

/-- The path with another name starts at the same place, and its steps lead to the same directory,
because the steps that are left out stay where they are. -/
theorem exists_steps_withFileName (hpath : path.segments = front ++ [name])
    (hname : stepOf? name = some (.name name)) (hother : stepOf? other = some (.name other))
    (hslash : '/' ∉ other.toList) :
    ∃ kept idle, front.filterMap stepOf? = kept ++ idle ∧ (∀ step ∈ idle, step = .here) ∧
      (path.withFileName other).isAbsolute = path.isAbsolute ∧
      (path.withFileName other).segments.filterMap stepOf? = kept ++ [.name other] ∧
      (path.withFileName other).steps = kept ++ [.name other] := by
  obtain ⟨-, hempty, -, -⟩ := stepOf?_eq_name hname
  obtain ⟨-, hotherEmpty, -, -⟩ := stepOf?_eq_name hother
  obtain ⟨kept, idle, rfl, hidle, hhead, hsegments⟩ :=
    exists_segments_withFileName hpath hname hslash
  have hstepNames : (path.withFileName other).segments.filterMap stepOf? =
      kept.filterMap stepOf? ++ [.name other] := by
    rw [hsegments, List.filterMap_append, List.filterMap_cons_some hother, List.filterMap_nil]
  refine ⟨kept.filterMap stepOf?, idle.filterMap stepOf?, List.filterMap_append, ?_, ?_,
    hstepNames, ?_⟩
  · intro step hstep
    obtain ⟨segment, hsegment, hstep⟩ := List.mem_filterMap.mp hstep
    rcases hidle segment hsegment with rfl | rfl
    · cases hstep
    · cases hstep
      rfl
  · rw [Bool.eq_iff_iff, isAbsolute_iff_of_segments hsegments hotherEmpty,
      isAbsolute_iff_of_segments hpath hempty, hhead]
  · rw [steps, (closed_of_segments hsegments hotherEmpty).2, hstepNames]
    rfl

/-- A path with another file name is not empty. -/
theorem raw_withFileName_ne_empty (hpath : path.segments = front ++ [name])
    (hname : stepOf? name = some (.name name)) (hother : other ≠ "")
    (hslash : '/' ∉ other.toList) : (path.withFileName other).raw ≠ "" := by
  obtain ⟨kept, idle, -, -, -, hsegments⟩ := exists_segments_withFileName hpath hname hslash
  exact (closed_of_segments hsegments hother).1

/-- Another file name brings no NUL into the path. -/
theorem holdsNul_withFileName (hpath : path.segments = front ++ [name])
    (hname : stepOf? name = some (.name name)) (hslash : '/' ∉ other.toList)
    (hnul : path.holdsNul = false) (hother : '\x00' ∉ other.toList) :
    (path.withFileName other).holdsNul = false := by
  obtain ⟨kept, idle, rfl, -, -, hsegments⟩ := exists_segments_withFileName hpath hname hslash
  rw [holdsNul_eq_false_iff, hpath] at hnul
  rw [holdsNul_eq_false_iff, hsegments]
  intro segment hsegment
  rcases List.mem_append.mp hsegment with hkept | hlast
  · exact hnul segment (List.mem_append_left _ (List.mem_append_left _ hkept))
  · rw [List.mem_singleton.mp hlast]
    exact hother

/-- The path with another name differs from the path in the last component only. -/
theorem components_withFileName (hpath : path.segments = front ++ [name])
    (hname : stepOf? name = some (.name name)) (hother : stepOf? other = some (.name other))
    (hslash : '/' ∉ other.toList) :
    (path.withFileName other).components = path.components.dropLast ++ [.name other] := by
  obtain ⟨kept, idle, rfl, hidle, hhead, hsegments⟩ :=
    exists_segments_withFileName hpath hname hslash
  have hnone : idle.filterMap componentOf? = [] := by
    refine List.filterMap_eq_nil_iff.mpr fun segment hsegment => ?_
    rcases hidle segment hsegment with rfl | rfl
    · rfl
    · rfl
  rw [components_of_segments hsegments hother, components_of_segments hpath hname,
    List.dropLast_concat, hhead, List.filterMap_append, hnone, List.append_nil]

end Path

/-! ### Where joined paths lead -/

namespace FileStore

variable {store : FileStore} {target rest : Path} {root reached start : Location} {links : Nat}

/-- The slash at the end of a path leads nowhere else. -/
theorem Leads.of_steps (h : store.Leads links start target.steps reached) :
    store.Leads links start (target.segments.filterMap Path.stepOf?) reached := by
  rw [Path.steps] at h
  split at h
  · obtain ⟨fewer, middle, hmiddle, hslash⟩ := h.of_append
    rwa [hslash.eq_of_stay (by simp)]
  · exact h

/-- Where there are no links, a relative path that is joined to the path of a directory leads where
it leads from that directory. -/
theorem leads_join_iff (hlinks : store.NoLinks) (hrest : rest.isAbsolute = false)
    (htarget : store.locate target = .ok root) (hroot : store.get? root = some .directory) :
    store.Leads linkLimit (store.startOf (target.join rest)) (target.join rest).steps reached ↔
      store.Leads linkLimit root rest.steps reached := by
  have hfirst := (locate_eq_ok_iff.mp htarget).2.of_steps
  have hstart : store.startOf (target.join rest) = store.startOf target := by
    rw [startOf, startOf, Path.isAbsolute_join target hrest]
  -- without links it does not matter how many of them a way may use
  have hboth : ∀ more, store.Leads linkLimit (store.startOf target)
      (target.segments.filterMap Path.stepOf? ++ more) reached ↔
      store.Leads linkLimit root more reached := by
    intro more
    constructor
    · intro h
      obtain ⟨fewer, middle, hmiddle, hmore⟩ := h.of_append
      rw [hfirst.unique hmiddle]
      exact hmore.of_noLinks hlinks _
    · exact fun h => hfirst.append fun fewer => h.of_noLinks hlinks fewer
  rw [hstart]
  rcases Path.steps_join target hrest with hsteps | ⟨hraw, hsteps⟩
  · rw [hsteps, hboth]
  · obtain rfl : rest = ⟨""⟩ := congrArg Path.mk hraw
    have hnone : (⟨""⟩ : Path).steps = [] := rfl
    rw [hsteps, hboth, hnone]
    constructor
    · intro h
      rw [h.eq_of_stay (by simp)]
      exact .done _ _
    · intro h
      cases h
      exact .stay (.inr rfl) hroot (.done _ _)

/-- Joining brings no NUL into the path. -/
theorem holdsNul_join (htarget : target.holdsNul = false) (hrest : rest.holdsNul = false) :
    (target.join rest).holdsNul = false := by
  simp only [Path.holdsNul, List.contains_eq_mem, decide_eq_false_iff_not] at htarget hrest ⊢
  rw [Path.join]
  split
  · exact hrest
  · split
    · simp [htarget, hrest]
    · simp [htarget, hrest]

/-- Where there are no links, a relative path without `..` that is joined to the path of a directory
leads to an entry straight below it, if there is one and the whole is not too long. A slash or `.`
at the end asks for a directory. -/
theorem locate_join_iff (h : store.WellFormed) (hlinks : store.NoLinks)
    (hrest : rest.isAbsolute = false) (hup : .up ∉ rest.components)
    (htarget : store.locate target = .ok root) (hroot : store.get? root = some .directory)
    (reached : Location) :
    store.locate (target.join rest) = .ok reached ↔
      reached = root ++ namesOf rest.steps ∧
        (target.join rest).raw.utf8ByteSize < pathLimit ∧
        (store.get? reached).isSome ∧
        (rest.steps.getLast? = some .here ∨ rest.steps.getLast? = some .slash →
          store.get? reached = some .directory) := by
  have hsteps : .up ∉ rest.steps := fun hmem =>
    hup (Path.up_mem_components_of_step ((FileM.steps_cases rest).2 hmem))
  have husable := (locate_eq_ok_iff.mp htarget).1
  rw [locate_eq_ok_iff, leads_join_iff hlinks hrest htarget hroot]
  constructor
  · rintro ⟨hjoin, hleads⟩
    have hreached := hleads.eq_append (hlinks.clear _) hsteps
    rw [hreached] at hleads
    rw [hreached]
    exact ⟨rfl, hjoin.short, (leads_straight_iff h hlinks hsteps hroot).mp hleads⟩
  · rintro ⟨rfl, hshort, hthere⟩
    refine ⟨⟨holdsNul_join husable.noNul ?_, hshort, Path.raw_join_ne_empty husable.ne_empty⟩,
      (leads_straight_iff h hlinks hsteps hroot).mpr hthere⟩
    obtain ⟨entry, hentry⟩ := Option.isSome_iff_exists.mp hthere.1
    have hproper := (Location.proper_append.mp (h.proper_of_get? hentry)).2
    rw [(FileM.steps_cases rest).1] at hproper
    exact Path.holdsNul_eq_false_of_names fun name hname => (hproper name hname).noNul

end FileStore

end Retouch
