import Retouch.Files.Resolve

/-!
# How locations are written

A location is written as an absolute path (`Location.toPath`), and all that the library asks of a
path can be read off the location again, as long as its names are **proper**: not empty, not `.` or
`..`, without a slash or a NUL, and not too long.

* `components_toPath`, `steps_toPath`: the path means the names of the location, one by one.
* `parent?_toPath_concat`, `fileName?_toPath_concat`, `join_toPath`: taking a path apart and putting
  it together is taking the location apart and putting it together.
* `same_toPath_iff`, `beginsWith_toPath_iff`: paths of locations are the same, or one begins with
  the other, when the locations are or do.
* `absolute?_toPath`: such a path is in normal form already.

For any path at all, the names on the way along it are proper except for their length
(`properName_of_mem_stepNames`).
-/

namespace Retouch

/-- A name that a directory can hold. -/
structure ProperName (name : String) : Prop where
  ne_empty : name ≠ ""
  ne_here : name ≠ "."
  ne_up : name ≠ ".."
  noSlash : '/' ∉ name.toList
  noNul : '\x00' ∉ name.toList
  short : name.utf8ByteSize ≤ FileStore.nameLimit

instance (name : String) : Decidable (ProperName name) :=
  decidable_of_iff
    (name ≠ "" ∧ name ≠ "." ∧ name ≠ ".." ∧ '/' ∉ name.toList ∧ '\x00' ∉ name.toList ∧
      name.utf8ByteSize ≤ FileStore.nameLimit)
    ⟨fun ⟨a, b, c, d, e, f⟩ => ⟨a, b, c, d, e, f⟩, fun ⟨a, b, c, d, e, f⟩ => ⟨a, b, c, d, e, f⟩⟩

namespace ProperName

variable {name : String}

/-- A proper name has a character. -/
theorem toList_ne_nil (h : ProperName name) : name.toList ≠ [] :=
  fun hnil => h.ne_empty (String.toList_eq_nil_iff.mp hnil)

/-- A proper name stands for itself in the meaning of a path. -/
theorem componentOf? (h : ProperName name) : Path.componentOf? name = some (.name name) := by
  simp [Path.componentOf?, h.ne_empty, h.ne_here, h.ne_up]

/-- A proper name stands for a step to the entry of that name. -/
theorem stepOf? (h : ProperName name) : Path.stepOf? name = some (.name name) := by
  simp [Path.stepOf?, h.ne_empty, h.ne_here, h.ne_up]

/-- A text that starts with a proper name does not start with a slash. -/
theorem head?_ne_slash (h : ProperName name) (rest : List Char) :
    (name.toList ++ rest).head? ≠ some '/' := by
  have hhead : ∀ c ∈ name.toList.head?, c ≠ '/' := fun c hc heq =>
    h.noSlash (heq ▸ List.mem_of_mem_head? hc)
  cases hname : name.toList with
  | nil => exact absurd hname h.toList_ne_nil
  | cons c others =>
    rw [hname] at hhead
    simpa using hhead c rfl

/-- A text that ends with a proper name does not end with a slash. -/
theorem getLast?_ne_slash (h : ProperName name) (front : List Char) :
    (front ++ name.toList).getLast? ≠ some '/' := by
  rw [List.getLast?_append]
  cases hlast : name.toList.getLast? with
  | none => exact absurd (List.getLast?_eq_none_iff.mp hlast) h.toList_ne_nil
  | some c =>
    rintro heq
    rw [Option.some_or, Option.some.injEq] at heq
    exact h.noSlash (heq ▸ List.mem_of_getLast? hlast)

end ProperName

/-- All names of the location are proper. -/
def Location.Proper (location : Location) : Prop :=
  ∀ name ∈ location, ProperName name

instance (location : Location) : Decidable location.Proper :=
  inferInstanceAs (Decidable (∀ name ∈ location, ProperName name))

namespace Location

variable {a b location names : Location} {name : String}

/-- The root has no names that could be wrong. -/
theorem Proper.nil : Proper [] :=
  fun _ h => absurd h List.not_mem_nil

/-- A location is proper if its parts are. -/
theorem proper_append : Proper (a ++ b) ↔ Proper a ∧ Proper b := by
  simp only [Proper, List.mem_append, or_imp, forall_and]

/-- A location of one name is proper if the name is. -/
theorem proper_singleton : Proper [name] ↔ ProperName name := by
  simp [Proper]

/-- Locations above a proper one are proper. -/
theorem Proper.of_isPrefix (h : Proper b) (hpre : a <+: b) : Proper a :=
  fun name hname => h name (hpre.subset hname)

end Location

/-! ### Splitting at slashes -/

namespace Path

/-- Splitting at slashes is splitting as lists are split at an element. -/
theorem splitSlashes_eq_splitOn (text : List Char) : splitSlashes text = text.splitOn '/' := by
  induction text with
  | nil => rfl
  | cons c rest ih =>
    rw [splitSlashes, List.splitOn_cons_eq_if_modifyHead, ih]
    by_cases hslash : c = '/'
    · simp [hslash]
    · rw [if_neg hslash, if_neg (by simpa using hslash)]
      cases hrest : rest.splitOn '/' with
      | nil => exact absurd hrest (List.splitOn_ne_nil _ _)
      | cons part parts => rfl

/-- The parts of a text between slashes hold no slash, and nothing that the text does not. -/
theorem mem_of_mem_splitSlashes {text part : List Char} {c : Char}
    (hpart : part ∈ splitSlashes text) (hc : c ∈ part) : c ∈ text ∧ c ≠ '/' := by
  induction text generalizing part with
  | nil =>
    rw [splitSlashes, List.mem_singleton] at hpart
    rw [hpart] at hc
    exact absurd hc List.not_mem_nil
  | cons d rest ih =>
    rw [splitSlashes] at hpart
    split at hpart
    · rcases List.mem_cons.mp hpart with rfl | hpart
      · exact absurd hc List.not_mem_nil
      · exact (ih hpart hc).imp_left (List.mem_cons_of_mem _)
    · rename_i hslash
      split at hpart
      · rename_i hnil
        rw [splitSlashes_eq_splitOn] at hnil
        exact absurd hnil (List.splitOn_ne_nil _ _)
      · rename_i first parts hsplit
        rcases List.mem_cons.mp hpart with rfl | hpart
        · rcases List.mem_cons.mp hc with rfl | hc
          · exact ⟨List.mem_cons_self, hslash⟩
          · have hfirst : first ∈ splitSlashes rest := hsplit ▸ List.mem_cons_self
            exact (ih hfirst hc).imp_left (List.mem_cons_of_mem _)
        · have hother : part ∈ splitSlashes rest := hsplit ▸ List.mem_cons_of_mem _ hpart
          exact (ih hother hc).imp_left (List.mem_cons_of_mem _)

/-- The segments of a path that is put together from segments without slashes. -/
theorem segments_intercalate {segments : List String} (hne : segments ≠ [])
    (hslash : ∀ segment ∈ segments, '/' ∉ segment.toList) :
    (⟨"/".intercalate segments⟩ : Path).segments = segments := by
  have hchars : ∀ part ∈ segments.map String.toList, '/' ∉ part := by
    intro part hpart
    obtain ⟨segment, hsegment, rfl⟩ := List.mem_map.mp hpart
    exact hslash segment hsegment
  have hlist : ("/".intercalate segments).toList = ['/'].intercalate (segments.map String.toList) :=
    String.toList_intercalate
  rw [Path.segments, splitSlashes_eq_splitOn, hlist,
    List.splitOn_intercalate _ hchars (by simpa using hne), List.map_map]
  exact List.map_id'' (fun segment => String.ofList_toList) segments

/-- A segment that stands for a name is that name, and none of the special ones. -/
theorem stepOf?_eq_name {segment name : String} (h : stepOf? segment = some (.name name)) :
    segment = name ∧ name ≠ "" ∧ name ≠ "." ∧ name ≠ ".." := by
  unfold stepOf? at h
  by_cases hempty : segment = ""
  · simp [hempty] at h
  by_cases hhere : segment = "."
  · simp [hhere] at h
  by_cases hup : segment = ".."
  · simp [hup] at h
  rw [if_neg hempty, if_neg hhere, if_neg hup, Option.some.injEq, PathStep.name.injEq] at h
  subst h
  exact ⟨rfl, hempty, hhere, hup⟩

/-- A name on the way along a path without a NUL is proper if it is short enough. -/
theorem properName_of_mem_stepNames {path : Path} {name : String}
    (hname : .name name ∈ path.segments.filterMap stepOf?) (hnul : path.holdsNul = false)
    (hshort : name.utf8ByteSize ≤ FileStore.nameLimit) : ProperName name := by
  obtain ⟨segment, hsegment, hstep⟩ := List.mem_filterMap.mp hname
  obtain ⟨hsame, hempty, hhere, hup⟩ := stepOf?_eq_name hstep
  obtain ⟨part, hpart, hof⟩ := List.mem_map.mp hsegment
  have hlist : name.toList = part := by rw [← hsame, ← hof, String.toList_ofList]
  have hchars : ∀ c ∈ part, c ∈ path.raw.toList ∧ c ≠ '/' :=
    fun c hc => mem_of_mem_splitSlashes hpart hc
  refine ⟨hempty, hhere, hup, ?_, ?_, hshort⟩
  · rw [hlist]
    exact fun hslash => (hchars _ hslash).2 rfl
  · rw [hlist]
    intro hzero
    have hmem := (hchars _ hzero).1
    simp [holdsNul, hmem] at hnul

end Path

/-! ### Paths of locations -/

namespace Location

variable {a b location names : Location} {name : String} {directory : Path}

/-- A location other than the root is written with a slash before each name. -/
theorem raw_toPath (hne : location ≠ []) :
    (toPath location).raw = "/".intercalate ("" :: location) := by
  rw [String.intercalate_cons_of_ne_nil hne, String.empty_append]
  rfl

/-- The path of an entry ends with its name after a slash. -/
theorem raw_toPath_concat (location : Location) (name : String) :
    ∃ front, (toPath (location ++ [name])).raw = front ++ "/" ++ name := by
  by_cases hnil : location = []
  · subst hnil
    exact ⟨"", by simp [toPath]⟩
  · refine ⟨(toPath location).raw, ?_⟩
    simp only [toPath, String.intercalate_append_of_ne_nil hnil (List.cons_ne_nil name []),
      String.intercalate_singleton, String.append_assoc]

/-- The segments of the path of a location are its names, after an empty one. -/
theorem segments_toPath (h : location.Proper) (hne : location ≠ []) :
    (toPath location).segments = "" :: location := by
  have hpath : toPath location = ⟨"/".intercalate ("" :: location)⟩ :=
    congrArg Path.mk (raw_toPath hne)
  rw [hpath]
  refine Path.segments_intercalate (List.cons_ne_nil _ _) ?_
  intro segment hsegment
  rcases List.mem_cons.mp hsegment with rfl | hsegment
  · exact List.not_mem_nil
  · exact (h segment hsegment).noSlash

/-- The path of a location starts at the root. -/
theorem isAbsolute_toPath (location : Location) : (toPath location).isAbsolute = true := by
  simp [Path.isAbsolute, toPath]

/-- The path of a location is not empty. -/
theorem raw_toPath_ne_empty (location : Location) : (toPath location).raw ≠ "" := by
  intro hempty
  have habsolute := isAbsolute_toPath location
  simp [Path.isAbsolute, hempty] at habsolute

/-- Only the path of the root ends with a slash. -/
theorem endsWithSlash_toPath (h : location.Proper) (hne : location ≠ []) :
    (toPath location).endsWithSlash = false := by
  rcases List.eq_nil_or_concat location with rfl | ⟨front, name, rfl⟩
  · exact absurd rfl hne
  rw [List.concat_eq_append] at h ⊢
  obtain ⟨before, hraw⟩ := raw_toPath_concat front name
  have hname := proper_singleton.mp (proper_append.mp h).2
  have hlast := hname.getLast?_ne_slash (before ++ "/").toList
  rw [← String.toList_append, ← hraw] at hlast
  simpa [Path.endsWithSlash] using hlast

/-- The path of a proper location holds no NUL. -/
theorem holdsNul_toPath (h : location.Proper) : (toPath location).holdsNul = false := by
  have hnames : ∀ name ∈ location, '\x00' ∉ name.toList := fun name hname => (h name hname).noNul
  have hslash : '\x00' ∉ "/".toList := by decide
  have hjoined : '\x00' ∉ ("/".intercalate location).toList := by
    clear h
    induction location with
    | nil => simp
    | cons name rest ih =>
      have hfirst := hnames name List.mem_cons_self
      have hrest := ih fun other hother => hnames other (List.mem_cons_of_mem _ hother)
      cases rest with
      | nil => simpa using hfirst
      | cons second others =>
        rw [String.intercalate_cons_cons, String.toList_append, String.toList_append]
        simp only [List.mem_append, not_or]
        exact ⟨⟨hfirst, hslash⟩, hrest⟩
  rw [Path.holdsNul, toPath, String.toList_append, List.contains_eq_mem, decide_eq_false_iff_not,
    List.mem_append, not_or]
  exact ⟨hslash, hjoined⟩

/-- Proper names stand for themselves in the meaning of a path. -/
theorem filterMap_componentOf? (h : location.Proper) :
    location.filterMap Path.componentOf? = location.map .name := by
  induction location with
  | nil => rfl
  | cons name rest ih =>
    rw [List.filterMap_cons, (h name List.mem_cons_self).componentOf?, List.map_cons,
      ih fun other hother => h other (List.mem_cons_of_mem _ hother)]

/-- Proper names stand for steps to the entries of these names. -/
theorem filterMap_stepOf? (h : location.Proper) :
    location.filterMap Path.stepOf? = location.map .name := by
  induction location with
  | nil => rfl
  | cons name rest ih =>
    rw [List.filterMap_cons, (h name List.mem_cons_self).stepOf?, List.map_cons,
      ih fun other hother => h other (List.mem_cons_of_mem _ hother)]

/-- The path of a location means the root and then the names of the location. -/
theorem components_toPath (h : location.Proper) :
    (toPath location).components = .root :: location.map .name := by
  by_cases hnil : location = []
  · subst hnil
    decide
  · rw [Path.components, if_pos (isAbsolute_toPath location), segments_toPath h hnil,
      List.filterMap_cons, filterMap_componentOf? h]
    rfl

/-- The steps along the path of a location that matter for making it. -/
theorem stepNames_toPath (h : location.Proper) :
    (toPath location).segments.filterMap Path.stepOf? = location.map .name := by
  by_cases hnil : location = []
  · subst hnil
    decide
  · rw [segments_toPath h hnil, List.filterMap_cons, filterMap_stepOf? h]
    rfl

/-- The steps along the path of a location are its names. -/
theorem steps_toPath (h : location.Proper) : (toPath location).steps = location.map .name := by
  by_cases hnil : location = []
  · subst hnil
    decide
  · rw [Path.steps, stepNames_toPath h, endsWithSlash_toPath h hnil]
    rfl

/-- The file name in the path of an entry is the name of the entry. -/
theorem fileName?_toPath_concat (h : Proper (location ++ [name])) :
    (toPath (location ++ [name])).fileName? = some name := by
  rw [Path.fileName?, components_toPath h, List.map_append, List.map_singleton,
    ← List.cons_append, List.getLast?_concat]

/-- A proper name at the end is not dropped. -/
theorem dropIdle_concat {segments : List String} (h : ProperName name) :
    Path.dropIdle (segments ++ [name]) = segments ++ [name] := by
  simp [Path.dropIdle, h.ne_empty, h.ne_here]

/-- Of proper names nothing is dropped. -/
theorem dropIdle_of_proper (h : location.Proper) : Path.dropIdle location = location := by
  rcases List.eq_nil_or_concat location with rfl | ⟨front, name, rfl⟩
  · rfl
  · rw [List.concat_eq_append] at h ⊢
    exact dropIdle_concat (proper_singleton.mp (proper_append.mp h).2)

/-- There is no path above that of the root. -/
theorem parent?_toPath_root : (toPath []).parent? = none := by
  decide

/-- The path above that of an entry is the path of its directory. -/
theorem parent?_toPath_concat (h : Proper (location ++ [name])) :
    (toPath (location ++ [name])).parent? = some (toPath location) := by
  obtain ⟨hfront, hname⟩ := proper_append.mp h
  rw [Path.parent?, segments_toPath h (by simp)]
  simp only [dropIdle_concat (proper_singleton.mp hname)]
  split
  · rename_i hnil
    simp at hnil
  · rw [List.dropLast_concat, dropIdle_of_proper hfront]
    by_cases hnil : location = []
    · subst hnil
      rfl
    · rw [Path.ofSegments, if_neg (by simp [hnil]), ← raw_toPath hnil]

/-- Names that are appended to the path of a location are appended to the location. -/
theorem join_toPath (h : location.Proper) (hnames : names.Proper) (hne : names ≠ []) :
    (toPath location).join ⟨"/".intercalate names⟩ = toPath (location ++ names) := by
  have hrelative : (⟨"/".intercalate names⟩ : Path).isAbsolute = false := by
    obtain ⟨first, rest, rfl⟩ := List.exists_cons_of_ne_nil hne
    have hfirst := hnames first List.mem_cons_self
    have hhead : ∃ others, ("/".intercalate (first :: rest)).toList = first.toList ++ others := by
      cases rest with
      | nil => exact ⟨[], by simp⟩
      | cons second others =>
        rw [String.intercalate_cons_cons, String.append_assoc, String.toList_append]
        exact ⟨_, rfl⟩
    obtain ⟨others, hothers⟩ := hhead
    simpa [Path.isAbsolute, hothers] using hfirst.head?_ne_slash others
  rw [Path.join, hrelative]
  by_cases hnil : location = []
  · subst hnil
    rfl
  · rw [if_neg Bool.false_ne_true,
      if_neg (by simp [raw_toPath_ne_empty, endsWithSlash_toPath h hnil])]
    simp only [toPath, String.intercalate_append_of_ne_nil hnil hne, String.append_assoc]

/-- The path of a directory, joined with a name, is the path of the entry of that name. -/
theorem join_toPath_name (h : location.Proper) (hname : ProperName name) :
    (toPath location).join ⟨name⟩ = toPath (location ++ [name]) := by
  have hjoin := join_toPath h (proper_singleton.mpr hname) (List.cons_ne_nil name [])
  rwa [String.intercalate_singleton] at hjoin

/-- Paths of locations mean the same if the locations are the same. -/
theorem same_toPath_iff (ha : a.Proper) (hb : b.Proper) :
    (toPath a).same (toPath b) = true ↔ a = b := by
  rw [Path.same, components_toPath ha, components_toPath hb, decide_eq_true_eq, List.cons.injEq]
  constructor
  · rintro ⟨-, hmap⟩
    exact (List.map_inj_right fun _ _ => Path.Component.name.inj).mp hmap
  · rintro rfl
    exact ⟨rfl, rfl⟩

/-- The path of a location begins with those of the locations above it. -/
theorem beginsWith_toPath_iff (ha : a.Proper) (hb : b.Proper) :
    (toPath a).beginsWith (toPath b) = true ↔ b <+: a := by
  rw [Path.beginsWith, components_toPath ha, components_toPath hb, List.isPrefixOf_iff_prefix,
    List.cons_prefix_cons, and_iff_right rfl]
  constructor
  · rintro ⟨rest, hrest⟩
    obtain ⟨names, others, rfl, hnames, -⟩ := List.append_eq_map_iff.mp hrest
    have hsame := (List.map_inj_right fun _ _ => Path.Component.name.inj).mp hnames
    rw [hsame]
    exact List.prefix_append _ _
  · rintro ⟨rest, rfl⟩
    rw [List.map_append]
    exact List.prefix_append _ _

/-- Different locations have different paths. -/
theorem toPath_injective (ha : a.Proper) (hb : b.Proper) (h : toPath a = toPath b) : a = b := by
  rw [← same_toPath_iff ha hb, h]
  simp [Path.same]

/-- Joining names one by one leads down from a location. -/
theorem foldl_join_toPath (h : location.Proper) (hnames : names.Proper) :
    (names.map Path.Component.name).foldl (fun path part => path.join ⟨part.text⟩)
      (toPath location) = toPath (location ++ names) := by
  induction names generalizing location with
  | nil => rw [List.append_nil, List.map_nil, List.foldl_nil]
  | cons name rest ih =>
    have hname := hnames name List.mem_cons_self
    have hrest : Proper rest := fun other hother => hnames other (List.mem_cons_of_mem _ hother)
    rw [List.map_cons, List.foldl_cons, Path.Component.text, join_toPath_name h hname,
      ih (proper_append.mpr ⟨h, proper_singleton.mpr hname⟩) hrest, List.append_assoc,
      List.singleton_append]

/-- The path of a location means the root and then its names. -/
theorem filter_components_toPath (h : location.Proper) :
    (toPath location).components.filter (· ≠ .here) = .root :: location.map .name := by
  rw [components_toPath h, List.filter_eq_self]
  intro component hcomponent
  rcases List.mem_cons.mp hcomponent with rfl | hcomponent
  · decide
  · obtain ⟨name, -, rfl⟩ := List.mem_map.mp hcomponent
    simp

/-- The path of a location starts with one slash and not with two. -/
theorem toList_toPath_cons {first : String} {rest : Location} (h : ProperName first) :
    ∃ c others, c ≠ '/' ∧ (toPath (first :: rest)).raw.toList = '/' :: c :: others := by
  obtain ⟨c, chars, hfirst⟩ := List.exists_cons_of_ne_nil h.toList_ne_nil
  refine ⟨c, ?_⟩
  have hc : c ≠ '/' := fun heq => h.noSlash (hfirst ▸ heq ▸ List.mem_cons_self)
  cases rest with
  | nil => exact ⟨chars, hc, by simp [toPath, hfirst]⟩
  | cons second others =>
    refine ⟨chars ++ ("/" ++ "/".intercalate (second :: others)).toList, hc, ?_⟩
    simp [toPath, hfirst]

/-- The path of a location is absolute, and nothing in it can be left out. -/
theorem absolute?_toPath (h : location.Proper) (directory : Path) :
    (toPath location).absolute? directory = some (toPath location) := by
  have hfold : ((.root :: location.map .name : List Path.Component)).foldl
      (fun path part => path.join ⟨part.text⟩) ⟨""⟩ = toPath location := by
    rw [List.foldl_cons]
    exact foldl_join_toPath Proper.nil h
  simp only [Path.absolute?, raw_toPath_ne_empty, if_false, isAbsolute_toPath, if_true,
    filter_components_toPath h]
  by_cases hnil : location = []
  · subst hnil
    decide
  · obtain ⟨first, rest, rfl⟩ := List.exists_cons_of_ne_nil hnil
    obtain ⟨c, others, hc, hlist⟩ := toList_toPath_cons (h first List.mem_cons_self)
    rw [hlist, endsWithSlash_toPath h hnil, if_neg Bool.false_ne_true]
    split
    · rename_i heq
      exact absurd (List.cons.inj (List.cons.inj heq).2).1 hc
    · rename_i heq
      exact absurd (List.cons.inj (List.cons.inj heq).2).1 hc
    · rw [hfold]

end Location

end Retouch
