import Retouch.Proofs.Tree.Conversion

/-!
# The fault that is reported

A concrete node is faulty if it fits nowhere in the grammar, or if it is missing. The flag
`Concrete.hasError` is there to find such nodes without going through the whole tree: in a *flagged*
tree (`Concrete.Flagged`) it is set on a node exactly when the node or one below it is faulty.

* **The search** goes down only where a fault is flagged. In a flagged tree it still finds the first
  of all faulty nodes in document order (`firstFault?_eq_find?`): what it leaves out has no fault.
* **The report** is about that node. It gives the position of its start, and says that something is
  missing exactly for a missing node (`description_eq_missingText_iff`).

A flagged tree is therefore refused exactly when it has a fault, and there is always a faulty node
to report (`read_reports_first_fault`).
-/

namespace Retouch

namespace Concrete

/-! ### Faulty nodes -/

/-- The node fits nowhere in the grammar, or is missing. -/
def isFaulty (raw : Concrete) : Bool :=
  raw.isError || raw.isMissing

/-- On every node the flag is set exactly when the node or one below it is faulty. -/
def Flagged (root : Concrete) : Prop :=
  ∀ raw ∈ root.preorder, raw.hasError = true ↔ ∃ below ∈ raw.preorder, below.isFaulty = true

instance (root : Concrete) : Decidable root.Flagged :=
  inferInstanceAs (Decidable (∀ raw ∈ root.preorder,
    raw.hasError = true ↔ ∃ below ∈ raw.preorder, below.isFaulty = true))

/-- The flags below a child are right if all are. -/
theorem Flagged.child {raw child : Concrete} (h : raw.Flagged) (hchild : child ∈ raw.children) :
    child.Flagged :=
  fun below hbelow => h below (mem_preorder_below hchild hbelow)

/-- The flag of a node tells whether there is a faulty node at or below it. -/
theorem Flagged.hasError_iff {raw : Concrete} (h : raw.Flagged) :
    raw.hasError = true ↔ ∃ below ∈ raw.preorder, below.isFaulty = true :=
  h raw raw.mem_preorder_self

/-! ### The search -/

/-- The first fault is the node itself if it is faulty, and else the first one below it. -/
theorem firstFault?_eq (raw : Concrete) :
    raw.firstFault? = if raw.isFaulty then some raw else firstFaultList? raw.children := by
  obtain ⟨_, _, _, _, _, _, _⟩ := raw
  rw [firstFault?]
  rfl

/-- The search leaves out a neighbour only if there is nothing to find in it. -/
theorem find?_eq_none_of_passed {raw : Concrete} (h : raw.Flagged)
    (hpassed : ¬ (raw.hasError || raw.isMissing) = true) :
    raw.preorder.find? isFaulty = none := by
  rw [Bool.or_eq_true, not_or, h.hasError_iff] at hpassed
  rw [List.find?_eq_none]
  exact fun below hbelow hfaulty => hpassed.1 ⟨below, hbelow, hfaulty⟩

/-- With flags that are right, the first fault among neighbours is the first faulty node of all of
them. -/
theorem firstFaultList?_eq_find? {raws : List Concrete} (hflagged : ∀ raw ∈ raws, raw.Flagged)
    (h : ∀ raw ∈ raws, raw.firstFault? = raw.preorder.find? isFaulty) :
    firstFaultList? raws = (raws.flatMap preorder).find? isFaulty := by
  induction raws with
  | nil => rfl
  | cons raw rest ih =>
    have hrest := ih (fun other hother => hflagged other (List.mem_cons_of_mem _ hother))
      fun other hother => h other (List.mem_cons_of_mem _ hother)
    rw [firstFaultList?, List.flatMap_cons, List.find?_append, hrest]
    by_cases hentered : (raw.hasError || raw.isMissing) = true
    · rw [if_pos hentered, h raw List.mem_cons_self, Option.orElse_eq_orElse, Option.orElse_eq_or]
    · rw [if_neg hentered, find?_eq_none_of_passed (hflagged raw List.mem_cons_self) hentered,
        Option.none_or]

/-- In a flagged tree the search finds the first faulty node in document order. -/
theorem firstFault?_eq_find? {root : Concrete} (h : root.Flagged) :
    root.firstFault? = root.preorder.find? isFaulty := by
  induction root using childInduction with
  | step raw ih =>
    rw [firstFault?_eq, preorder_eq, List.find?_cons]
    cases hfaulty : raw.isFaulty with
    | true => rfl
    | false =>
      exact firstFaultList?_eq_find? (fun child => h.child)
        fun child hchild => ih child hchild (h.child hchild)

/-! ### The report -/

/-- The description of a missing node of a kind. -/
def missingText (kind : String) : String :=
  s!"syntax error, missing `{kind}`"

/-- The characters of the description of a missing node. -/
theorem toList_missingText (kind : String) :
    (missingText kind).toList =
      "syntax error, missing `".toList ++ kind.toList ++ "`".toList := by
  show ("syntax error, missing `" ++ kind ++ "`").toList = _
  rw [String.toList_append, String.toList_append]

/-- The description of a missing node tells its kind. -/
theorem missingText_injective {kind kind' : String} (h : missingText kind = missingText kind') :
    kind = kind' := by
  have hchars := congrArg String.toList h
  rw [toList_missingText, toList_missingText, List.append_left_inj, List.append_right_inj] at hchars
  exact String.toList_inj.mp hchars

/-- The first characters of a description, which tell the forms of descriptions apart. -/
def stem (description : String) : List Char :=
  description.toList.take 15

/-- Only the first characters of a description decide its form. -/
theorem stem_append {front : String} (h : 15 ≤ front.toList.length) (back : String) :
    stem (front ++ back) = stem front := by
  rw [stem, stem, String.toList_append, List.take_append_of_le_length h]

/-- The form of the description of a missing node. -/
theorem stem_missingText (kind : String) : stem (missingText kind) = "syntax error, m".toList := by
  show stem ("syntax error, missing `" ++ kind ++ "`") = _
  rw [String.append_assoc, stem_append (by decide)]
  decide

/-- A missing node is described as such, by its kind. -/
theorem description_of_missing (source : String) {raw : Concrete} (h : raw.isMissing = true) :
    (describe source raw).description = missingText raw.kind := by
  rw [describe, h]
  rfl

/-- The descriptions of other faults have two forms. -/
theorem stem_description_of_not_missing (source : String) {raw : Concrete}
    (h : raw.isMissing = false) :
    stem (describe source raw).description = "syntax error, u".toList ∨
      stem (describe source raw).description = "syntax error ne".toList := by
  simp only [describe, h, Bool.false_eq_true, if_false]
  split
  case h_1 shown _ =>
    left
    show stem ("syntax error, unexpected `" ++ shown ++ "`") = _
    rw [String.append_assoc, stem_append (by decide)]
    decide
  case h_2 =>
    split
    case h_1 line _ =>
      right
      show stem ("syntax error near `" ++ _ ++ "`") = _
      rw [String.append_assoc, stem_append (by decide)]
      decide
    case h_2 =>
      left
      decide

/-- A description says that something is missing exactly for a missing node, and names its kind. -/
theorem description_eq_missingText_iff (source : String) (raw : Concrete) (kind : String) :
    (describe source raw).description = missingText kind ↔
      raw.isMissing = true ∧ kind = raw.kind := by
  cases hmissing : raw.isMissing with
  | true =>
    rw [description_of_missing source hmissing]
    constructor
    · exact fun h => ⟨rfl, (missingText_injective h).symm⟩
    · rintro ⟨-, rfl⟩
      rfl
  | false =>
    refine ⟨fun h => ?_, fun h => absurd h.1 Bool.false_ne_true⟩
    have hstem := stem_description_of_not_missing source hmissing
    rw [h, stem_missingText] at hstem
    exact absurd hstem (by decide)

/-- A description of a node says more than that there is an error. -/
theorem description_ne_plain (source : String) (raw : Concrete) :
    (describe source raw).description ≠ "syntax error" := by
  intro h
  cases hmissing : raw.isMissing with
  | true =>
    have hstem := stem_missingText raw.kind
    rw [← description_of_missing source hmissing, h] at hstem
    exact absurd hstem (by decide)
  | false =>
    have hstem := stem_description_of_not_missing source hmissing
    rw [h] at hstem
    exact absurd hstem (by decide)

/-! ### Reading -/

/-- A source whose root is flagged is reported by its first fault. -/
theorem read_of_hasError {source : String} {root fault : Concrete} (h : root.hasError = true)
    (hfault : root.firstFault? = some fault) :
    root.read source = .error (describe source fault) := by
  rw [read, if_pos h, hfault]

/-- In a flagged tree the search finds the first faulty node in document order, and a source is
refused exactly when there is one. The report gives the position of the start of that node, and says
that something is missing exactly when that node is. It is never the report of an error that no node
shows. -/
theorem read_reports_first_fault (source : String) {root : Concrete} (hflagged : root.Flagged) :
    root.firstFault? = root.preorder.find? isFaulty ∧
      ((∃ report, root.read source = .error report) ↔
        ∃ raw ∈ root.preorder, raw.isFaulty = true) ∧
      ∀ report, root.read source = .error report →
        ∃ fault, root.preorder.find? isFaulty = some fault ∧
          report.position = Text.positionAt source fault.span.start ∧
          (∀ kind, report.description = missingText kind ↔
            fault.isMissing = true ∧ kind = fault.kind) ∧
          report.description ≠ "syntax error" := by
  have hfind := firstFault?_eq_find? hflagged
  -- a flag is never set without a fault to report
  have hrefused : root.hasError = true →
      ∃ fault, root.preorder.find? isFaulty = some fault ∧
        root.read source = .error (describe source fault) := by
    intro h
    obtain ⟨raw, hraw, hfaulty⟩ := hflagged.hasError_iff.mp h
    have hsome : (root.preorder.find? isFaulty).isSome := List.find?_isSome.mpr ⟨raw, hraw, hfaulty⟩
    obtain ⟨fault, hfault⟩ := Option.isSome_iff_exists.mp hsome
    exact ⟨fault, hfault, read_of_hasError h (hfind.trans hfault)⟩
  have hreads : ∀ report, root.read source = .error report → root.hasError = true := by
    intro report h
    by_contra hfaultless
    rw [read, if_neg hfaultless] at h
    cases h
  refine ⟨hfind, ?_, ?_⟩
  · rw [← hflagged.hasError_iff]
    constructor
    · rintro ⟨report, h⟩
      exact hreads report h
    · intro h
      obtain ⟨fault, -, hread⟩ := hrefused h
      exact ⟨_, hread⟩
  · intro report h
    obtain ⟨fault, hfault, hread⟩ := hrefused (hreads report h)
    obtain rfl : report = describe source fault := Except.error.inj (h.symm.trans hread)
    exact ⟨fault, hfault, rfl, description_eq_missingText_iff source fault,
      description_ne_plain source fault⟩

/-- A tree with a node without faults first, then a missing node far down, and then an error around
another missing node. -/
def unfinished : Concrete :=
  { kind := "program", span := ⟨0, 12⟩, hasError := true
    children :=
      [{ kind := "php_tag", span := ⟨0, 5⟩ },
       { kind := "echo_statement", span := ⟨6, 10⟩, hasError := true
         children :=
           [{ kind := "echo", span := ⟨6, 10⟩ },
            { kind := ";", span := ⟨10, 10⟩, isMissing := true, hasError := true }] },
       { kind := "ERROR", span := ⟨11, 12⟩, isError := true, hasError := true
         children := [{ kind := ")", span := ⟨12, 12⟩, isMissing := true, hasError := true }] }] }

/-- The missing semicolon is reported, not the error after it. -/
theorem read_reports_first_fault_unfinished :
    unfinished.Flagged ∧
      unfinished.read "<?php\necho (" = .error ⟨"syntax error, missing `;`", ⟨2, 5⟩⟩ ∧
      ∃ fault, unfinished.preorder.find? isFaulty = some fault ∧ fault.span = ⟨10, 10⟩ ∧
        ∀ kind, "syntax error, missing `;`" = missingText kind ↔ kind = ";" := by
  have hflagged : unfinished.Flagged := by decide
  have hread :
      unfinished.read "<?php\necho (" = .error ⟨"syntax error, missing `;`", ⟨2, 5⟩⟩ := by
    rfl
  obtain ⟨-, -, hreport⟩ := read_reports_first_fault "<?php\necho (" hflagged
  obtain ⟨fault, hfault, -, hmissing, -⟩ := hreport _ hread
  refine ⟨hflagged, hread, fault, hfault, ?_, ?_⟩
  · cases hfault
    rfl
  · intro kind
    rw [hmissing]
    cases hfault
    exact ⟨And.right, fun h => ⟨rfl, h⟩⟩

end Concrete

end Retouch
