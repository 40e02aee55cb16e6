import Mathlib.Data.List.Chain
import Retouch.Proofs.Layout.Code
import Retouch.Proofs.Layout.Rendering
import Retouch.Text.Letter

/-!
# New code does not run words together

The code of a fresh node is its texts with spaces and newlines around them. Where one text ends in a
letter, a numeral or an underscore and the next one begins with such a character, something stands
between them, so the two are still two words when the code is read.

* **Spaced texts** (`Spaced`): pieces with gaps in which two words never meet. The relation keeps
  the piece that came last, because this is what the next one must not run into. Two spaced texts
  can be put side by side unless a word would meet a word there (`Spaced.append`).
* **One gap** (`fallbackGap_ne_empty`): between two words the printer always puts something. It only
  looks at the two characters that would meet, and these need not be of neighbouring texts: empty
  texts and branches without texts leave nothing behind.
* **All gaps** (`spaced_toCode`), by induction on the node. A gap is put between two texts where the
  branches that hold them are joined, however deep in these branches the texts are.
-/

namespace Retouch

namespace Text

/-! ### Words -/

/-- Whether a character can be part of a word. -/
def isWordChar (c : Char) : Bool :=
  c = '_' || isAlphanumeric c

/-- Whether the last character of a text can be part of a word. -/
def endsInWord (text : String) : Bool :=
  text.toList.getLast?.any isWordChar

/-- Whether the first character of a text can be part of a word. -/
def beginsWithWord (text : String) : Bool :=
  text.toList.head?.any isWordChar

/-- Spaces and newlines only. -/
def Spacing (gap : String) : Prop :=
  ∀ c ∈ gap.toList, c = ' ' ∨ c = '\n'

/-- The code points in some ranges, one by one. -/
def CodePointRanges.points (ranges : CodePointRanges) : List Nat :=
  ranges.flatMap fun range => List.range' range.1 (range.2 + 1 - range.1)

/-- A code point in one of the ranges is one of the points. -/
theorem CodePointRanges.mem_points {ranges : CodePointRanges} {n : Nat}
    (h : ranges.contains n = true) : n ∈ ranges.points := by
  obtain ⟨range, hrange, hfirst, hlast⟩ := (ranges.contains_iff n).mp h
  exact List.mem_flatMap.mpr ⟨range, hrange, List.mem_range'_1.mpr ⟨hfirst, by omega⟩⟩

/-- A character of a word is not blank. -/
theorem isBlank_of_isWordChar {c : Char} (h : isWordChar c = true) : isBlank c = false := by
  have hblank : ∀ n ∈ blankRanges.points, isWordChar (Char.ofNat n) = false := by decide +kernel
  by_contra hc
  rw [Bool.not_eq_false] at hc
  have hword := hblank c.toNat (CodePointRanges.mem_points hc)
  rw [Char.ofNat_toNat, h] at hword
  cases hword

/-- A character of a word is none that cannot be in one. -/
theorem ne_of_isWordChar {c d : Char} (h : isWordChar c = true) (hd : isWordChar d = false) :
    c ≠ d := by
  rintro rfl
  rw [h] at hd
  cases hd

/-- How a text ends depends on its back, unless this is empty. -/
theorem endsInWord_append {back : String} (h : back ≠ "") (front : String) :
    endsInWord (front ++ back) = endsInWord back := by
  unfold endsInWord
  rw [String.toList_append, List.getLast?_append]
  cases hlast : back.toList.getLast? with
  | none => exact absurd (by simpa using hlast) h
  | some c => rw [Option.some_or]

/-- How a text begins depends on its front, unless this is empty. -/
theorem beginsWithWord_append {front : String} (h : front ≠ "") (back : String) :
    beginsWithWord (front ++ back) = beginsWithWord front := by
  unfold beginsWithWord
  rw [String.toList_append, List.head?_append]
  cases hfirst : front.toList.head? with
  | none => exact absurd (by simpa using hfirst) h
  | some c => rw [Option.some_or]

/-- An empty gap has spaces and newlines only. -/
theorem spacing_empty : Spacing "" := by
  simp [Spacing]

/-- Two gaps of spaces and newlines can be joined. -/
theorem Spacing.append {front back : String} (hfront : Spacing front) (hback : Spacing back) :
    Spacing (front ++ back) := by
  intro c hc
  rw [String.toList_append, List.mem_append] at hc
  exact hc.elim (hfront c) (hback c)

/-- No character of a gap can be part of a word. -/
theorem Spacing.isWordChar_eq {gap : String} (h : Spacing gap) {c : Char} (hc : c ∈ gap.toList) :
    isWordChar c = false := by
  rcases h c hc with rfl | rfl <;> decide

/-- A gap does not end in a word. -/
theorem Spacing.endsInWord_eq {gap : String} (h : Spacing gap) : endsInWord gap = false := by
  unfold endsInWord
  cases hlast : gap.toList.getLast? with
  | none => rfl
  | some c => exact h.isWordChar_eq (List.mem_of_getLast? hlast)

/-- A gap does not begin with a word. -/
theorem Spacing.beginsWithWord_eq {gap : String} (h : Spacing gap) :
    beginsWithWord gap = false := by
  unfold beginsWithWord
  cases hfirst : gap.toList.head? with
  | none => rfl
  | some c => exact h.isWordChar_eq (List.mem_of_head? hfirst)

/-! ### Spaced texts -/

/-- The pieces in order, none of them empty, with spaces and newlines before, between and after
them. When a piece ends in a word and the next one begins with a word, the gap between them is not
empty. The piece `before` comes in front of all of them. -/
inductive Spaced : (before : String) → List String → String → Prop
  | last {before gap : String} (hgap : Spacing gap) : Spaced before [] gap
  | next {before gap piece rest : String} {pieces : List String} (hgap : Spacing gap)
      (hpiece : piece ≠ "") (hapart : endsInWord before → beginsWithWord piece → gap ≠ "")
      (hrest : Spaced piece pieces rest) : Spaced before (piece :: pieces) (gap ++ piece ++ rest)

namespace Spaced

variable {before text more : String} {pieces others : List String}

/-- A single piece that is not empty is spaced. -/
theorem ofOne {piece : String} (h : piece ≠ "") : Spaced "" [piece] piece := by
  have hnext : Spaced "" [piece] ("" ++ piece ++ "") :=
    .next spacing_empty h (fun hword => by cases hword) (.last spacing_empty)
  rwa [String.empty_append, String.append_empty] at hnext

/-- Spaced texts can be put side by side, unless a word would meet a word there. -/
theorem append (h : Spaced before pieces text) (hmore : Spaced "" others more)
    (hapart : endsInWord (before ++ text) → beginsWithWord more → False) :
    Spaced before (pieces ++ others) (text ++ more) := by
  induction h with
  | @last before gap hgap =>
    cases hmore with
    | last hfirst => exact .last (hgap.append hfirst)
    | @next _ first piece rest others hfirst hpiece _ hrest =>
      have hassoc : gap ++ (first ++ piece ++ rest) = gap ++ first ++ piece ++ rest := by
        simp only [String.append_assoc]
      rw [hassoc]
      refine .next (hgap.append hfirst) hpiece ?_ hrest
      -- if nothing stands in between, the two words meet where the texts do
      intro hbefore hbegins hnothing
      obtain ⟨rfl, rfl⟩ := String.append_eq_empty_iff.mp hnothing
      rw [String.append_empty, String.empty_append, beginsWithWord_append hpiece] at hapart
      exact hapart hbefore hbegins
  | @next before gap piece rest pieces hgap hpiece hpieces _ ih =>
    have hne : piece ++ rest ≠ "" :=
      fun hnothing => hpiece (String.append_eq_empty_iff.mp hnothing).1
    have hassoc : before ++ (gap ++ piece ++ rest) = before ++ gap ++ (piece ++ rest) := by
      simp only [String.append_assoc]
    rw [hassoc, endsInWord_append hne] at hapart
    rw [String.append_assoc]
    exact .next hgap hpiece hpieces (ih hapart)

/-- A gap behind a spaced text widens its last gap. -/
theorem append_spacing {gap : String} (h : Spaced before pieces text) (hgap : Spacing gap) :
    Spaced before pieces (text ++ gap) := by
  have hlast : Spaced "" [] gap := .last hgap
  have hwider := h.append hlast fun _ hword => by
    rw [hgap.beginsWithWord_eq] at hword
    cases hword
  rwa [List.append_nil] at hwider

/-- Between two pieces of which the one ends in a word and the next begins with one, there is a gap.
-/
def Apart (left right : String × String) : Prop :=
  endsInWord left.1 → beginsWithWord right.1 → left.2 ≠ ""

/-- A spaced text as a row of pieces with their gaps. -/
theorem exists_weave (h : Spaced before pieces text) :
    ∃ gap pairs, text = weave gap pairs ∧ pairs.map Prod.fst = pieces ∧ Spacing gap ∧
      (∀ pair ∈ pairs, Spacing pair.2) ∧ ((before, gap) :: pairs).IsChain Apart := by
  induction h with
  | @last before gap hgap => exact ⟨gap, [], rfl, rfl, hgap, by simp, by simp⟩
  | @next before gap piece rest pieces hgap hpiece hapart _ ih =>
    obtain ⟨after, pairs, rfl, rfl, hafter, hpairs, hchain⟩ := ih
    refine ⟨gap, (piece, after) :: pairs, rfl, rfl, hgap, ?_, ?_⟩
    · intro pair hpair
      rcases List.mem_cons.mp hpair with rfl | hpair
      · exact hafter
      · exact hpairs pair hpair
    · exact List.isChain_cons_cons.mpr ⟨hapart, hchain⟩

end Spaced

end Text

namespace Layout

open Text

/-! ### The gap between two words -/

/-- A text with an ending has its last character. -/
theorem getLast?_of_endsWith {text ending : String} (h : endsWith text ending = true)
    {c : Char} (hc : ending.toList.getLast? = some c) : text.toList.getLast? = some c := by
  obtain ⟨front, hfront⟩ := List.isSuffixOf_iff_suffix.mp h
  rw [← hfront, List.getLast?_append, hc, Option.some_or]

/-- A text with an opening has its first character. -/
theorem head?_of_startsWith {text opening : String} (h : startsWith text opening = true)
    {c : Char} (hc : opening.toList.head? = some c) : text.toList.head? = some c := by
  obtain ⟨back, hback⟩ := List.isPrefixOf_iff_prefix.mp h
  rw [← hback, List.head?_append, hc, Option.some_or]

/-- No access operator joins two words. -/
theorem joinedByAccess_of_words {printed next : String} {left right : Char}
    (hlast : printed.toList.getLast? = some left) (hfirst : next.toList.head? = some right)
    (hleft : isWordChar left = true) (hright : isWordChar right = true) :
    joinedByAccess printed next = false := by
  have hends : ∀ ending c, ending.toList.getLast? = some c → isWordChar c = false →
      endsWith printed ending = false := by
    intro ending c hc hword
    by_contra hyes
    rw [Bool.not_eq_false] at hyes
    have hsame := getLast?_of_endsWith hyes hc
    rw [hlast, Option.some.injEq] at hsame
    exact ne_of_isWordChar hleft hword hsame
  have hstarts : ∀ opening c, opening.toList.head? = some c → isWordChar c = false →
      startsWith next opening = false := by
    intro opening c hc hword
    by_contra hyes
    rw [Bool.not_eq_false] at hyes
    have hsame := head?_of_startsWith hyes hc
    rw [hfirst, Option.some.injEq] at hsame
    exact ne_of_isWordChar hright hword hsame
  unfold joinedByAccess
  rw [hends "->" '>' rfl (by decide), hends "::" ':' rfl (by decide),
    hstarts "->" '-' rfl (by decide), hstarts "?->" '?' rfl (by decide),
    hstarts "::" ':' rfl (by decide)]
  rfl

/-- Two words are put apart by a space. -/
theorem tokenGap_of_words {printed next : String} (hends : endsInWord printed = true)
    (hbegins : beginsWithWord next = true) : tokenGap printed next = " " := by
  obtain ⟨left, hlast, hleft⟩ := (Option.any_eq_true ..).mp hends
  obtain ⟨right, hfirst, hright⟩ := (Option.any_eq_true ..).mp hbegins
  have hholdsRight : holdsRight left = false := by
    simp only [holdsRight, Bool.or_eq_false_iff, decide_eq_false_iff_not]
    refine ⟨⟨⟨?_, ?_⟩, ?_⟩, ?_⟩ <;> exact ne_of_isWordChar hleft (by decide)
  have hholdsLeft : holdsLeft right = false := by
    simp only [holdsLeft, Bool.or_eq_false_iff, decide_eq_false_iff_not]
    refine ⟨⟨⟨⟨⟨?_, ?_⟩, ?_⟩, ?_⟩, ?_⟩, ?_⟩ <;> exact ne_of_isWordChar hright (by decide)
  unfold tokenGap
  simp only [hlast, hfirst, isBlank_of_isWordChar hleft, isBlank_of_isWordChar hright, hholdsRight,
    hholdsLeft, joinedByAccess_of_words hlast hfirst hleft hright, Bool.or_self,
    Bool.false_eq_true, if_false]

/-- Between two words there is always something. -/
theorem fallbackGap_ne_empty {printed next : String} (hends : endsInWord printed = true)
    (hbegins : beginsWithWord next = true) (statements : Bool) (left right : Node) :
    fallbackGap statements left right printed next ≠ "" := by
  unfold fallbackGap
  split
  · decide
  · rw [tokenGap_of_words hends hbegins]
    decide

/-- A gap that is made up has spaces and newlines only. -/
theorem spacing_fallbackGap (statements : Bool) (left right : Node) (printed next : String) :
    Spacing (fallbackGap statements left right printed next) := by
  unfold fallbackGap tokenGap
  split
  · simp [Spacing]
  · split
    · split
      · exact spacing_empty
      · split
        · exact spacing_empty
        · simp [Spacing]
    · exact spacing_empty

/-! ### Joined texts -/

variable {pieces others : List String} {printed text : String}

/-- One more text behind its gap. -/
theorem spaced_fallbackGap (hprinted : Spaced "" pieces printed) (htext : Spaced "" others text)
    (statements : Bool) (left right : Node) :
    Spaced "" (pieces ++ others)
      (printed ++ fallbackGap statements left right printed text ++ text) := by
  have hgap := spacing_fallbackGap statements left right printed text
  refine (hprinted.append_spacing hgap).append htext ?_
  rw [String.empty_append]
  intro hends hbegins
  by_cases hnothing : fallbackGap statements left right printed text = ""
  · rw [hnothing, String.append_empty] at hends
    exact fallbackGap_ne_empty hends hbegins statements left right hnothing
  · rw [endsInWord_append hnothing, hgap.endsInWord_eq] at hends
    cases hends

/-- The nodes have no ranges, and their texts are spaced. -/
def SpacedItems (textsOf : Node → List String) (items : List (Node × String)) : Prop :=
  ∀ item ∈ items, item.1.span = none ∧ Spaced "" (textsOf item.1) item.2

/-- Spaced texts that are joined behind a spaced text are spaced with it. -/
theorem spaced_joinAfter (source : String) {textsOf : Node → List String}
    {items : List (Node × String)} (hitems : SpacedItems textsOf items) {left : Node}
    (hleft : left.span = none) (hprinted : Spaced "" pieces printed) :
    Spaced "" (pieces ++ items.flatMap fun item => textsOf item.1)
      (joinAfter source false printed left items) := by
  induction items generalizing pieces printed left with
  | nil =>
    rw [List.flatMap_nil, List.append_nil]
    exact hprinted
  | cons item rest ih =>
    obtain ⟨right, text⟩ := item
    obtain ⟨hright, htext⟩ := hitems (right, text) List.mem_cons_self
    have hrest : SpacedItems textsOf rest :=
      fun other hother => hitems other (List.mem_cons_of_mem _ hother)
    have hgap : gap source false left right printed text =
        fallbackGap false left right printed text := by
      rw [gap, sourceGap?_of_unplaced (Or.inl hleft), Option.getD_none]
    rw [joinAfter, hgap, List.flatMap_cons, ← List.append_assoc]
    exact ih hrest hright (spaced_fallbackGap hprinted htext false left right)

/-- Spaced texts that are joined are spaced. -/
theorem spaced_join (source : String) {textsOf : Node → List String}
    {items : List (Node × String)} (hitems : SpacedItems textsOf items) :
    Spaced "" (items.flatMap fun item => textsOf item.1) (join source false "" items) := by
  cases items with
  | nil => exact .last spacing_empty
  | cons item rest =>
    obtain ⟨first, text⟩ := item
    obtain ⟨hfirst, htext⟩ := hitems (first, text) List.mem_cons_self
    have hrest : SpacedItems textsOf rest :=
      fun other hother => hitems other (List.mem_cons_of_mem _ hother)
    rw [join, String.empty_append]
    exact spaced_joinAfter source hrest hfirst htext

/-- The texts at and below a node that are not empty, in document order. -/
def filledTexts (node : Node) : List String :=
  node.texts.filter (· ≠ "")

/-- The texts of a node without text that are not empty are those of its children. -/
theorem filledTexts_of_branch {node : Node} (h : node.text = none) :
    filledTexts node = node.children.flatMap filledTexts := by
  rw [filledTexts, Node.texts_of_branch h, List.filter_flatMap]
  rfl

/-- The code of a fresh node is its texts, spaced. -/
theorem spaced_toCode {node : Node} (h : node.Fresh) :
    Spaced "" (filledTexts node) node.toCode := by
  induction node using Node.childInduction with
  | step node ih =>
    cases htext : node.text with
    | some text =>
      rw [toCode_of_text htext, filledTexts, Node.texts_of_text htext]
      by_cases hempty : text = ""
      · subst hempty
        exact .last spacing_empty
      · rw [List.filter_cons_of_pos (by simpa using hempty), List.filter_nil]
        exact .ofOne hempty
    | none =>
      have hitems : SpacedItems filledTexts
          (node.children.map fun child => (child, child.toCode)) := by
        intro item hitem
        obtain ⟨child, hchild, rfl⟩ := List.mem_map.mp hitem
        exact ⟨(h.child hchild).span_eq, ih child hchild (h.child hchild)⟩
      have hjoined := spaced_join "" hitems
      rw [List.flatMap_map] at hjoined
      rw [toCode_of_branch htext, filledTexts_of_branch htext]
      exact hjoined

/-- The code of a fresh node is its texts that are not empty, in document order, with nothing but
spaces and newlines before, between and after them. Where a text ends in a word and the next one
begins with a word, there is at least one space or newline between them. -/
theorem toCode_separates_words {node : Node} (h : node.Fresh) :
    ∃ gap pairs, node.toCode = weave gap pairs ∧
      pairs.map Prod.fst = node.texts.filter (· ≠ "") ∧
      Spacing gap ∧ (∀ pair ∈ pairs, Spacing pair.2) ∧
      pairs.IsChain fun left right =>
        endsInWord left.1 = true → beginsWithWord right.1 = true → left.2 ≠ "" := by
  obtain ⟨gap, pairs, hcode, hpieces, hgap, hpairs, hchain⟩ := (spaced_toCode h).exists_weave
  exact ⟨gap, pairs, hcode, hpieces, hgap, hpairs, hchain.tail⟩

/-- Two words at different depths, with an empty text and an empty branch between them. -/
def scatteredWords : Node :=
  .branch "object_creation_expression"
    [.branch "keyword" [.branch "new" [.leaf "new" "new"], .leaf "attributes" ""],
     .branch "arguments" [],
     .branch "type" [.leaf "prefix" "", .branch "name" [.leaf "name" "Ärger"]],
     .leaf ";" ";"]

/-- The two words are kept apart, though an empty text and an empty branch are between them. -/
theorem toCode_separates_words_scatteredWords :
    scatteredWords.Fresh ∧ scatteredWords.toCode = "new Ärger;" ∧
      ∃ gap pairs, scatteredWords.toCode = weave gap pairs ∧
        pairs.map Prod.fst = ["new", "Ärger", ";"] ∧
        pairs.IsChain fun left right =>
          endsInWord left.1 = true → beginsWithWord right.1 = true → left.2 ≠ "" := by
  have hfresh : scatteredWords.Fresh := by decide
  obtain ⟨gap, pairs, hcode, htexts, -, -, hchain⟩ := toCode_separates_words hfresh
  exact ⟨hfresh, by decide, gap, pairs, hcode, htexts.trans (by decide), hchain⟩

end Layout

end Retouch
