import Retouch.Proofs.Text.Splice
import Retouch.Text.Blank

/-!
# Texts with gaps between them

A text that is printed from parts is the parts in order with gaps before, between and after them.
`Woven Gap pieces text` says so and leaves open what the gaps are, up to a property `Gap`. Two
properties are used: gaps of blanks only (`AllBlank`), which is what separates code, and any gaps at
all (`Anything`), which is what is left to say about code when only some of its parts are followed.

* **Weaving nests** (`Woven.flatMap`): when the pieces are woven themselves, the text is woven from
  the inner pieces.
* **Blanks do not count** (`Woven.withoutBlanks`): with gaps of blanks, deleting all blanks from the
  text leaves the pieces with their blanks deleted.
* **Places in a source** (`Lined`): ranges in order, with blanks only before, between and after
  them. Splicing at such ranges weaves the new texts with blanks (`Lined.woven`).
-/

namespace Retouch.Text

/-! ### Gaps -/

/-- The text consists of blanks. -/
def AllBlank (text : String) : Prop :=
  allBlank text.toList = true

instance (text : String) : Decidable (AllBlank text) :=
  inferInstanceAs (Decidable (_ = true))

/-- No condition on a gap. -/
def Anything (_ : String) : Prop :=
  True

/-- Two gaps that meet are one gap. -/
def Closed (Gap : String → Prop) : Prop :=
  ∀ front back, Gap front → Gap back → Gap (front ++ back)

/-- Gaps without a condition can be joined. -/
theorem anything_closed : Closed Anything :=
  fun _ _ _ _ => trivial

/-- Gaps of blanks can be joined. -/
theorem allBlank_closed : Closed AllBlank := by
  intro front back hfront hback
  unfold AllBlank allBlank at *
  rw [String.toList_append, List.all_append, hfront, hback, Bool.and_true]

/-- A first gap, and then every piece with the gap after it. -/
def weave (gap : String) : List (String × String) → String
  | [] => gap
  | (piece, next) :: rest => gap ++ piece ++ weave next rest

/-- The pieces in order, with gaps before, between and after them. -/
inductive Woven (Gap : String → Prop) : List String → String → Prop
  | last {gap : String} (hgap : Gap gap) : Woven Gap [] gap
  | next {gap piece rest : String} {pieces : List String} (hgap : Gap gap)
      (hrest : Woven Gap pieces rest) : Woven Gap (piece :: pieces) (gap ++ piece ++ rest)

namespace Woven

variable {Gap : String → Prop} {pieces others : List String} {text more : String}

/-- Whatever is printed is woven from no pieces. -/
theorem ofNone (text : String) : Woven Anything [] text :=
  last trivial

/-- A text is woven from itself. -/
theorem ofOne (hempty : Gap "") (text : String) : Woven Gap [text] text := by
  have h : Woven Gap [text] ("" ++ text ++ "") := next hempty (last hempty)
  rwa [String.empty_append, String.append_empty] at h

/-- A gap put in front widens the first gap. -/
theorem prepend (hclosed : Closed Gap) {gap : String} (hgap : Gap gap) (h : Woven Gap pieces text) :
    Woven Gap pieces (gap ++ text) := by
  cases h with
  | last hfirst => exact last (hclosed _ _ hgap hfirst)
  | next hfirst hrest =>
    rw [← String.append_assoc, ← String.append_assoc]
    exact next (hclosed _ _ hgap hfirst) hrest

/-- Woven texts joined are woven from all of the pieces: the gaps that meet become one. -/
theorem append (hclosed : Closed Gap) (h : Woven Gap pieces text)
    (hmore : Woven Gap others more) : Woven Gap (pieces ++ others) (text ++ more) := by
  induction h with
  | last hgap => exact hmore.prepend hclosed hgap
  | next hgap _ ih =>
    rw [String.append_assoc]
    exact next hgap ih

/-- Where gaps are free, any text may stand around. -/
theorem between (h : Woven Anything pieces text) (front back : String) :
    Woven Anything pieces (front ++ text ++ back) := by
  have hfront : Anything front := trivial
  have hall := (h.prepend anything_closed hfront).append anything_closed (ofNone back)
  rwa [List.append_nil] at hall

/-- When the pieces are woven themselves, the text is woven from the inner pieces. -/
theorem flatMap {α : Type} {items : List α} {outer : α → String} {inner : α → List String}
    (h : Woven Gap (items.map outer) text)
    (hinner : ∀ item ∈ items, Woven Anything (inner item) (outer item)) :
    Woven Anything (items.flatMap inner) text := by
  induction items generalizing text with
  | nil => exact ofNone text
  | cons item rest ih =>
    obtain _ | ⟨hgap, hrest⟩ := h
    have hfirst := hinner item List.mem_cons_self
    have hothers := ih hrest fun other hother => hinner other (List.mem_cons_of_mem _ hother)
    rw [List.flatMap_cons, String.append_assoc]
    exact (hfirst.append anything_closed hothers).prepend anything_closed trivial

/-- Only the gaps are left open. -/
theorem exists_weave (h : Woven Gap pieces text) :
    ∃ gap pairs, text = weave gap pairs ∧ pairs.map Prod.fst = pieces := by
  induction h with
  | @last gap _ => exact ⟨gap, [], rfl, rfl⟩
  | @next gap piece rest pieces _ _ ih =>
    obtain ⟨after, pairs, hrest, hpieces⟩ := ih
    exact ⟨gap, (piece, after) :: pairs, by rw [weave, hrest], by rw [List.map_cons, hpieces]⟩

/-- Every piece is a part of the text. -/
theorem exists_split {piece : String} (h : Woven Gap pieces text) (hpiece : piece ∈ pieces) :
    ∃ front back, text = front ++ piece ++ back := by
  induction h with
  | last => simp at hpiece
  | @next gap first rest pieces _ _ ih =>
    rcases List.mem_cons.mp hpiece with rfl | hpiece
    · exact ⟨gap, rest, rfl⟩
    · obtain ⟨front, back, rfl⟩ := ih hpiece
      exact ⟨gap ++ first ++ front, back, by simp only [String.append_assoc]⟩

/-- A text with blanks only around some pieces is blank exactly if they are. -/
theorem allBlank_iff (h : Woven AllBlank pieces text) :
    AllBlank text ↔ ∀ piece ∈ pieces, AllBlank piece := by
  unfold AllBlank allBlank at *
  induction h with
  | last hgap => simp [hgap]
  | next hgap _ ih => simp [hgap, ih]

end Woven

/-! ### Deleting blanks -/

/-- The characters of a text that are not blank. -/
def withoutBlanks (text : String) : List Char :=
  text.toList.filter fun c => !isBlank c

/-- Blanks are left out of each part of a text on its own. -/
theorem withoutBlanks_append (front back : String) :
    withoutBlanks (front ++ back) = withoutBlanks front ++ withoutBlanks back := by
  unfold withoutBlanks
  rw [String.toList_append, List.filter_append]

/-- A text of blanks has nothing else. -/
theorem withoutBlanks_of_allBlank {text : String} (h : AllBlank text) :
    withoutBlanks text = [] := by
  rw [withoutBlanks, List.filter_eq_nil_iff]
  intro c hc
  have hblank : isBlank c = true := List.all_eq_true.mp h c hc
  simp [hblank]

/-- What is not blank in pieces with blanks between them is what is not blank in the pieces. -/
theorem Woven.withoutBlanks {pieces : List String} {text : String}
    (h : Woven AllBlank pieces text) :
    withoutBlanks text = pieces.flatMap Text.withoutBlanks := by
  induction h with
  | last hgap => exact withoutBlanks_of_allBlank hgap
  | next hgap _ ih =>
    rw [withoutBlanks_append, withoutBlanks_append, withoutBlanks_of_allBlank hgap, ih,
      List.nil_append, List.flatMap_cons]

/-! ### Ranges with blanks between them -/

/-- The source holds nothing but blanks between two offsets. -/
def BlankBetween (source : String) (start stop : Nat) : Prop :=
  HasSlice source ⟨start, stop⟩ ∧ AllBlank (sliceString source ⟨start, stop⟩)

instance (source : String) (start stop : Nat) : Decidable (BlankBetween source start stop) :=
  inferInstanceAs (Decidable (_ ∧ _))

/-- The ranges are parts of the source that lie in order and without overlap between `start` and
`stop`, with blanks only before, between and after them. -/
def Lined (source : String) (stop : Nat) : Nat → List Span → Prop
  | start, [] => BlankBetween source start stop
  | start, span :: rest =>
    BlankBetween source start span.start ∧ HasSlice source span ∧ Lined source stop span.stop rest

/-- Decides whether ranges are lined up. -/
def decLined (source : String) (stop : Nat) :
    (start : Nat) → (spans : List Span) → Decidable (Lined source stop start spans)
  | start, [] => inferInstanceAs (Decidable (BlankBetween source start stop))
  | start, span :: rest =>
    have := decLined source stop span.stop rest
    inferInstanceAs (Decidable (BlankBetween source start span.start ∧ HasSlice source span ∧
      Lined source stop span.stop rest))

instance (source : String) (stop start : Nat) (spans : List Span) :
    Decidable (Lined source stop start spans) :=
  decLined source stop start spans

/-- The ranges are lined up from the start of the first to the end of the last. -/
def LinedUp (source : String) (spans : List Span) : Prop :=
  ∀ first ∈ spans.head?, ∀ last ∈ spans.getLast?, Lined source last.stop first.start spans

instance (source : String) (spans : List Span) : Decidable (LinedUp source spans) :=
  inferInstanceAs (Decidable (∀ first ∈ spans.head?, ∀ last ∈ spans.getLast?,
    Lined source last.stop first.start spans))

section lined

variable {source : String} {start stop : Nat} {spans : List Span}

/-- Ranges with blanks between them are in order. -/
theorem Lined.inOrder (h : Lined source stop start spans) : InOrder source stop start spans := by
  induction spans generalizing start with
  | nil => exact h.1
  | cons span rest ih => exact ⟨h.1.1, h.2.1, ih h.2.2⟩

/-- Only blanks follow the last of the ranges. -/
theorem Lined.last (h : Lined source stop start spans) (hspans : spans ≠ []) :
    BlankBetween source (spans.getLast hspans).stop stop := by
  induction spans generalizing start with
  | nil => exact absurd rfl hspans
  | cons span rest ih =>
    cases rest with
    | nil => exact h.2.2
    | cons next others =>
      rw [List.getLast_cons_cons]
      exact ih h.2.2 (List.cons_ne_nil _ _)

/-- The ranges behind one of them are lined up from its end on. -/
theorem Lined.behind {span : Span} {front back : List Span}
    (h : Lined source stop start (front ++ span :: back)) : Lined source stop span.stop back := by
  induction front generalizing start with
  | nil => exact h.2.2
  | cons first rest ih => exact ih h.2.2

/-- The ranges before one of them are lined up as far as its start. -/
theorem Lined.until {span : Span} {front back : List Span}
    (h : Lined source stop start (front ++ span :: back)) :
    Lined source span.start start front := by
  induction front generalizing start with
  | nil => exact h.1
  | cons first rest ih => exact ⟨h.1, h.2.1, ih h.2.2⟩

/-- Texts that are spliced in at such ranges have blanks only around them. -/
theorem Lined.woven {edits : List (Span × String)}
    (h : Lined source stop start (edits.map Prod.fst)) :
    Woven AllBlank (edits.map Prod.snd) (spliceTo source stop start edits) := by
  induction edits generalizing start with
  | nil => exact .last h.2
  | cons edit rest ih =>
    obtain ⟨hgap, -, hrest⟩ := h
    exact .next hgap.2 (ih hrest)

end lined

end Retouch.Text
