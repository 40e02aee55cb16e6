import Retouch.Text.Slice

/-!
# Replacing ranges of a text

A source text is taken apart by ranges of bytes and put together again with other texts in the place
of some of them. `splice` is the reference for that: it copies the source and puts a new text where
each range stood.

* **Slices are factors** (`sliceString?_eq_some_iff`): a range has a slice exactly when the source
  splits into a text before it, the slice, and a text after it. Adjoining slices therefore join to
  the slice of the joined range (`sliceString_append`).
* **Splicing is local** (`spliceTo_append`): what is replaced before a place and what is replaced
  after it do not meet, so a text can be spliced piece by piece.
* **Splicing nests** (`spliceTo_flatten`): replacing ranges inside of ranges, and then these, is the
  same as replacing the inner ranges at once.

The last two are what carries a replacement from the children of a node to the node itself.
-/

namespace Retouch.Text

/-! ### Slices as factors of the text -/

/-- The bytes of a text are those of its characters. -/
theorem byteLength_toList (text : String) : byteLength text.toList = text.utf8ByteSize := by
  have hlist : ∀ chars : List Char, byteLength chars = (String.ofList chars).utf8ByteSize := by
    intro chars
    induction chars with
    | nil => simp
    | cons c rest ih =>
      have hcons : String.ofList (c :: rest) = String.singleton c ++ String.ofList rest := by
        rw [← List.singleton_append, String.ofList_append, String.singleton_eq_ofList]
      rw [hcons, String.utf8ByteSize_append, String.utf8ByteSize_singleton, ← ih, byteLength_cons]
  rw [hlist, String.ofList_toList]

/-- To drop bytes leaves the back of the text, if the front has just so many. -/
theorem dropBytes?_eq_some_iff {n : Nat} {text back : List Char} :
    dropBytes? n text = some back ↔ ∃ front, text = front ++ back ∧ byteLength front = n := by
  constructor
  · intro h
    fun_induction dropBytes? n text with
    | case1 text => exact ⟨[], by simpa using h, rfl⟩
    | case2 n => simp at h
    | case3 n c rest hfits ih =>
      obtain ⟨front, hrest, hlen⟩ := ih h
      exact ⟨c :: front, by rw [hrest, List.cons_append], by rw [byteLength_cons]; omega⟩
    | case4 => simp at h
  · rintro ⟨front, rfl, rfl⟩
    exact dropBytes?_append front back

/-- To take bytes gives the front of the text, if it has just so many. -/
theorem takeBytes?_eq_some_iff {n : Nat} {text front : List Char} :
    takeBytes? n text = some front ↔ ∃ back, text = front ++ back ∧ byteLength front = n := by
  constructor
  · intro h
    fun_induction takeBytes? n text generalizing front with
    | case1 text => exact ⟨text, by simp_all, by simp_all⟩
    | case2 n => simp at h
    | case3 n c rest hfits ih =>
      obtain ⟨front', hfront', rfl⟩ := Option.map_eq_some_iff.mp h
      obtain ⟨back, hrest, hlen⟩ := ih hfront'
      exact ⟨back, by rw [hrest, List.cons_append], by rw [byteLength_cons]; omega⟩
    | case4 => simp at h
  · rintro ⟨back, rfl, rfl⟩
    exact takeBytes?_append front back

/-- A range has a slice exactly when the text splits around it. -/
theorem slice?_eq_some_iff {text middle : List Char} {span : Span} :
    slice? text span = some middle ↔
      ∃ front back, text = front ++ middle ++ back ∧ byteLength front = span.start ∧
        byteLength front + byteLength middle = span.stop := by
  constructor
  · intro h
    unfold slice? at h
    split at h
    case isTrue horder =>
      obtain ⟨rest, hdrop, htake⟩ := Option.bind_eq_some_iff.mp h
      obtain ⟨front, rfl, hstart⟩ := dropBytes?_eq_some_iff.mp hdrop
      obtain ⟨back, rfl, hlen⟩ := takeBytes?_eq_some_iff.mp htake
      refine ⟨front, back, by rw [List.append_assoc], hstart, ?_⟩
      rw [hlen, Span.length]
      omega
    case isFalse => simp at h
  · rintro ⟨front, back, rfl, hstart, hstop⟩
    obtain ⟨start, stop⟩ := span
    subst hstart hstop
    exact slice?_append front middle back

/-- The same for strings: a range of bytes has a slice exactly when the text splits around it. -/
theorem sliceString?_eq_some_iff {source part : String} {span : Span} :
    sliceString? source span = some part ↔
      ∃ front back : String, source = front ++ part ++ back ∧
        front.utf8ByteSize = span.start ∧
        front.utf8ByteSize + part.utf8ByteSize = span.stop := by
  unfold sliceString?
  constructor
  · intro h
    obtain ⟨middle, hmiddle, rfl⟩ := Option.map_eq_some_iff.mp h
    obtain ⟨front, back, hsource, hstart, hstop⟩ := slice?_eq_some_iff.mp hmiddle
    refine ⟨String.ofList front, String.ofList back, ?_, ?_, ?_⟩
    · rw [← String.ofList_append, ← String.ofList_append, ← hsource, String.ofList_toList]
    · rw [← byteLength_toList, String.toList_ofList, hstart]
    · rw [← byteLength_toList, ← byteLength_toList, String.toList_ofList, String.toList_ofList,
        hstop]
  · rintro ⟨front, back, rfl, hstart, hstop⟩
    refine Option.map_eq_some_iff.mpr ⟨part.toList, slice?_eq_some_iff.mpr ?_, String.ofList_toList⟩
    refine ⟨front.toList, back.toList, ?_, ?_, ?_⟩
    · rw [String.toList_append, String.toList_append]
    · rw [byteLength_toList, hstart]
    · rw [byteLength_toList, byteLength_toList, hstop]

/-- The offset is between two characters of the text, or at one of its ends. -/
def IsBoundary (text : String) (offset : Nat) : Prop :=
  String.Pos.Raw.IsValid text ⟨offset⟩

/-- At a boundary the text splits in two. -/
theorem isBoundary_iff_exists_append {text : String} {offset : Nat} :
    IsBoundary text offset ↔
      ∃ front back : String, text = front ++ back ∧ front.utf8ByteSize = offset := by
  rw [IsBoundary, String.Pos.Raw.isValid_iff_exists_append]
  refine exists_congr fun front => exists_congr fun back => and_congr_right fun _ => ?_
  rw [String.Pos.Raw.ext_iff]
  exact eq_comm

/-- The range is a part of the source: its ends are in order, inside the source, and between two
characters. -/
def HasSlice (source : String) (span : Span) : Prop :=
  (sliceString? source span).isSome = true

instance (source : String) (span : Span) : Decidable (HasSlice source span) :=
  inferInstanceAs (Decidable (_ = true))

/-- A range that is a part of the source has its text. -/
theorem HasSlice.eq_some {source : String} {span : Span} (h : HasSlice source span) :
    sliceString? source span = some (sliceString source span) := by
  obtain ⟨part, hpart⟩ := Option.isSome_iff_exists.mp h
  rw [sliceString, hpart, Option.getD_some]

/-- A range that has a text is a part of the source. -/
theorem hasSlice_of_eq {source part : String} {span : Span}
    (h : sliceString? source span = some part) : HasSlice source span := by
  rw [HasSlice, h, Option.isSome_some]

/-- The text of a range is the one that it has. -/
theorem sliceString_of_eq {source part : String} {span : Span}
    (h : sliceString? source span = some part) : sliceString source span = part := by
  rw [sliceString, h, Option.getD_some]

/-- The slice of a range, with the texts around it. -/
theorem HasSlice.split {source : String} {span : Span} (h : HasSlice source span) :
    ∃ front back : String, source = front ++ sliceString source span ++ back ∧
      front.utf8ByteSize = span.start ∧
      front.utf8ByteSize + (sliceString source span).utf8ByteSize = span.stop :=
  sliceString?_eq_some_iff.mp h.eq_some

/-- A text of a given size at the front of the source is the only one of that size. -/
theorem front_unique {front back front' back' : String} (h : front ++ back = front' ++ back')
    (hsize : front.utf8ByteSize = front'.utf8ByteSize) : front = front' ∧ back = back' := by
  have hlists : front.toList ++ back.toList = front'.toList ++ back'.toList := by
    rw [← String.toList_append, ← String.toList_append, h]
  have htake := takeBytes?_append front.toList back.toList
  have htake' := takeBytes?_append front'.toList back'.toList
  rw [byteLength_toList] at htake htake'
  rw [hlists, hsize, htake'] at htake
  have hfront : front = front' := String.toList_inj.mp (Option.some.inj htake).symm
  subst hfront
  exact ⟨rfl, String.append_right_inj _ |>.mp h⟩

/-! ### Adjoining slices -/

section adjoining

variable {source : String} {start middle stop : Nat}

/-- The texts of two ranges that meet, put together, are the text of the range over both. -/
theorem sliceString?_append (hfirst : HasSlice source ⟨start, middle⟩)
    (hsecond : HasSlice source ⟨middle, stop⟩) :
    sliceString? source ⟨start, stop⟩ =
      some (sliceString source ⟨start, middle⟩ ++ sliceString source ⟨middle, stop⟩) := by
  obtain ⟨front, rest, hsource, hstart, hmiddle⟩ := hfirst.split
  obtain ⟨front', back, hsource', hmiddle', hstop⟩ := hsecond.split
  have hsplit : (front ++ sliceString source ⟨start, middle⟩) ++ rest =
      front' ++ (sliceString source ⟨middle, stop⟩ ++ back) := by
    rw [← hsource, ← String.append_assoc, ← hsource']
  have hsize : (front ++ sliceString source ⟨start, middle⟩).utf8ByteSize =
      front'.utf8ByteSize := by
    rw [String.utf8ByteSize_append, hmiddle, hmiddle']
  obtain ⟨hfront, -⟩ := front_unique hsplit hsize
  refine sliceString?_eq_some_iff.mpr ⟨front, back, ?_, hstart, ?_⟩
  · rw [← String.append_assoc, hfront]
    exact hsource'
  · rw [String.utf8ByteSize_append, ← Nat.add_assoc, hmiddle]
    rw [hmiddle'] at hstop
    exact hstop

/-- Adjoining slices join to the slice of the joined range. -/
theorem sliceString_append (hfirst : HasSlice source ⟨start, middle⟩)
    (hsecond : HasSlice source ⟨middle, stop⟩) :
    sliceString source ⟨start, middle⟩ ++ sliceString source ⟨middle, stop⟩ =
      sliceString source ⟨start, stop⟩ :=
  (sliceString_of_eq (sliceString?_append hfirst hsecond)).symm

/-- If two ranges that meet are parts of the source, so is the range over both. -/
theorem HasSlice.trans (hfirst : HasSlice source ⟨start, middle⟩)
    (hsecond : HasSlice source ⟨middle, stop⟩) : HasSlice source ⟨start, stop⟩ :=
  hasSlice_of_eq (sliceString?_append hfirst hsecond)

/-- The text before a range is a slice. -/
theorem HasSlice.before (h : HasSlice source ⟨start, stop⟩) : HasSlice source ⟨0, start⟩ := by
  obtain ⟨front, back, hsource, hstart, -⟩ := h.split
  have hslice : sliceString? source ⟨0, start⟩ = some front := by
    refine sliceString?_eq_some_iff.mpr ⟨"", sliceString source ⟨start, stop⟩ ++ back, ?_, rfl, ?_⟩
    · rw [String.empty_append, ← String.append_assoc]
      exact hsource
    · rw [String.utf8ByteSize_empty, Nat.zero_add, hstart]
  exact hasSlice_of_eq hslice

/-- The text after a range is a slice. -/
theorem HasSlice.after (h : HasSlice source ⟨start, stop⟩) :
    HasSlice source ⟨stop, source.utf8ByteSize⟩ := by
  obtain ⟨front, back, hsource, -, hstop⟩ := h.split
  have hslice : sliceString? source ⟨stop, source.utf8ByteSize⟩ = some back := by
    refine sliceString?_eq_some_iff.mpr
      ⟨front ++ sliceString source ⟨start, stop⟩, "", ?_, ?_, ?_⟩
    · rw [String.append_empty]
      exact hsource
    · rw [String.utf8ByteSize_append, hstop]
    · rw [← String.utf8ByteSize_append, ← hsource]
  exact hasSlice_of_eq hslice

/-- The empty range at the start of a range is a slice. -/
theorem HasSlice.atStart (h : HasSlice source ⟨start, stop⟩) : HasSlice source ⟨start, start⟩ := by
  obtain ⟨front, back, hsource, hstart, -⟩ := h.split
  have hslice : sliceString? source ⟨start, start⟩ = some "" := by
    refine sliceString?_eq_some_iff.mpr
      ⟨front, sliceString source ⟨start, stop⟩ ++ back, ?_, hstart, ?_⟩
    · rw [String.append_empty, ← String.append_assoc]
      exact hsource
    · rw [String.utf8ByteSize_empty, Nat.add_zero, hstart]
  exact hasSlice_of_eq hslice

/-- The empty range at the end of a range is a slice. -/
theorem HasSlice.atStop (h : HasSlice source ⟨start, stop⟩) : HasSlice source ⟨stop, stop⟩ :=
  h.after.atStart

/-- There is nothing in a range without extent. -/
theorem sliceString_self (source : String) (place : Nat) :
    sliceString source ⟨place, place⟩ = "" := by
  cases hslice : sliceString? source ⟨place, place⟩ with
  | none => rw [sliceString, hslice, Option.getD_none]
  | some part =>
    obtain ⟨front, -, -, hstart, hstop⟩ := sliceString?_eq_some_iff.mp hslice
    rw [sliceString_of_eq hslice, ← String.utf8ByteSize_eq_zero_iff]
    simp only at hstart hstop
    omega

/-- The range over the whole source has all of it. -/
theorem sliceString?_whole (source : String) :
    sliceString? source ⟨0, source.utf8ByteSize⟩ = some source :=
  sliceString?_eq_some_iff.mpr
    ⟨"", "", by rw [String.empty_append, String.append_empty], rfl, Nat.zero_add _⟩

/-- The text of the range over the whole source is the source. -/
theorem sliceString_whole (source : String) :
    sliceString source ⟨0, source.utf8ByteSize⟩ = source :=
  sliceString_of_eq (sliceString?_whole source)

end adjoining

/-! ### Splicing -/

/-- The source from `start` to `stop`, with new texts in the place of some ranges. -/
def spliceTo (source : String) (stop : Nat) : Nat → List (Span × String) → String
  | start, [] => sliceString source ⟨start, stop⟩
  | start, (span, text) :: rest =>
    sliceString source ⟨start, span.start⟩ ++ text ++ spliceTo source stop span.stop rest

/-- The source with new texts in the place of some ranges, which are given from left to right. -/
def splice (source : String) (edits : List (Span × String)) : String :=
  spliceTo source source.utf8ByteSize 0 edits

/-- The ranges lie one after the other between `start` and `stop`, all of them parts of the source.
-/
def InOrder (source : String) (stop : Nat) : Nat → List Span → Prop
  | start, [] => HasSlice source ⟨start, stop⟩
  | start, span :: rest =>
    HasSlice source ⟨start, span.start⟩ ∧ HasSlice source span ∧ InOrder source stop span.stop rest

section splicing

variable {source : String} {start middle stop : Nat}

/-- What lies between the ends of ranges in order is a part of the source. -/
theorem InOrder.hasSlice {spans : List Span} (h : InOrder source stop start spans) :
    HasSlice source ⟨start, stop⟩ := by
  induction spans generalizing start with
  | nil => exact h
  | cons span rest ih =>
    obtain ⟨hgap, hspan, hrest⟩ := h
    exact (hgap.trans hspan).trans (ih hrest)

/-- More text in front of the first range is copied. -/
theorem sliceString_append_spliceTo {edits : List (Span × String)}
    (hfront : HasSlice source ⟨start, middle⟩)
    (hedits : InOrder source stop middle (edits.map Prod.fst)) :
    sliceString source ⟨start, middle⟩ ++ spliceTo source stop middle edits =
      spliceTo source stop start edits := by
  cases edits with
  | nil => exact sliceString_append hfront hedits
  | cons edit rest =>
    obtain ⟨span, text⟩ := edit
    obtain ⟨hgap, -, -⟩ := hedits
    simp only [spliceTo, ← String.append_assoc]
    rw [sliceString_append hfront hgap]

/-- What is replaced before a place and what is replaced after it can be spliced apart. -/
theorem spliceTo_append {front back : List (Span × String)}
    (hfront : InOrder source middle start (front.map Prod.fst))
    (hback : InOrder source stop middle (back.map Prod.fst)) :
    spliceTo source stop start (front ++ back) =
      spliceTo source middle start front ++ spliceTo source stop middle back := by
  induction front generalizing start with
  | nil => exact (sliceString_append_spliceTo hfront hback).symm
  | cons edit rest ih =>
    obtain ⟨span, text⟩ := edit
    obtain ⟨-, -, hrest⟩ := hfront
    simp only [List.cons_append, spliceTo, ih hrest, String.append_assoc]

/-- Ranges in order, followed by others in order, are in order. -/
theorem InOrder.append {front back : List Span} (hfront : InOrder source middle start front)
    (hback : InOrder source stop middle back) : InOrder source stop start (front ++ back) := by
  induction front generalizing start with
  | nil =>
    cases back with
    | nil => exact HasSlice.trans hfront hback
    | cons span rest => exact ⟨HasSlice.trans hfront hback.1, hback.2⟩
  | cons span rest ih => exact ⟨hfront.1, hfront.2.1, ih hfront.2.2⟩

/-- Ranges, each with new texts for ranges inside of it. -/
abbrev NestedEdits := List (Span × List (Span × String))

/-- The inner ranges of every range lie in order inside of it. -/
def NestedEdits.InOrder (source : String) (nested : NestedEdits) : Prop :=
  ∀ entry ∈ nested, Text.InOrder source entry.1.stop entry.1.start (entry.2.map Prod.fst)

/-- If ranges are in order, and inside of each of them others are, then all those inside are. -/
theorem InOrder.flatten {nested : NestedEdits}
    (houter : InOrder source stop start (nested.map Prod.fst)) (hinner : nested.InOrder source) :
    InOrder source stop start ((nested.flatMap Prod.snd).map Prod.fst) := by
  induction nested generalizing start with
  | nil => exact houter
  | cons entry rest ih =>
    obtain ⟨span, inner⟩ := entry
    obtain ⟨hgap, -, hrest⟩ := houter
    have hfirst : InOrder source span.stop span.start (inner.map Prod.fst) :=
      hinner (span, inner) List.mem_cons_self
    have hothers := ih hrest fun other hother => hinner other (List.mem_cons_of_mem _ hother)
    have hempty : InOrder source span.start start [] := hgap
    rw [List.flatMap_cons, List.map_append]
    exact hempty.append (hfirst.append hothers)

/-- Replacing ranges inside of ranges, and then the outer ones by the results, is replacing the
inner ranges. -/
theorem spliceTo_flatten {nested : NestedEdits}
    (houter : InOrder source stop start (nested.map Prod.fst)) (hinner : nested.InOrder source) :
    spliceTo source stop start
        (nested.map fun entry => (entry.1, spliceTo source entry.1.stop entry.1.start entry.2)) =
      spliceTo source stop start (nested.flatMap Prod.snd) := by
  induction nested generalizing start with
  | nil => rfl
  | cons entry rest ih =>
    obtain ⟨span, inner⟩ := entry
    obtain ⟨hgap, -, hrest⟩ := houter
    have hfirst : InOrder source span.stop span.start (inner.map Prod.fst) :=
      hinner (span, inner) List.mem_cons_self
    have hinner' : NestedEdits.InOrder source rest :=
      fun other hother => hinner other (List.mem_cons_of_mem _ hother)
    have hothers := hrest.flatten hinner'
    have hall : InOrder source stop span.start
        ((inner ++ rest.flatMap Prod.snd).map Prod.fst) := by
      rw [List.map_append]
      exact hfirst.append hothers
    rw [List.map_cons, List.flatMap_cons, spliceTo, ih hrest hinner', String.append_assoc,
      ← spliceTo_append hfirst hothers, sliceString_append_spliceTo hgap hall]

/-- Putting back what stood there changes nothing. -/
theorem spliceTo_self {spans : List Span} (h : InOrder source stop start spans) :
    spliceTo source stop start (spans.map fun span => (span, sliceString source span)) =
      sliceString source ⟨start, stop⟩ := by
  induction spans generalizing start with
  | nil => rfl
  | cons span rest ih =>
    obtain ⟨hgap, hspan, hrest⟩ := h
    rw [List.map_cons, spliceTo, ih hrest]
    have hfront := sliceString_append hgap hspan
    rw [hfront]
    exact sliceString_append (hgap.trans hspan) hrest.hasSlice

/-- Around a body that fills the middle of the source, the rest of the source is copied. -/
theorem splice_eq {edits : List (Span × String)}
    (h : InOrder source stop start (edits.map Prod.fst)) :
    splice source edits = sliceString source ⟨0, start⟩ ++ spliceTo source stop start edits ++
      sliceString source ⟨stop, source.utf8ByteSize⟩ := by
  have hslice := h.hasSlice
  have hafter : InOrder source source.utf8ByteSize stop [] := hslice.after
  have hbody : InOrder source source.utf8ByteSize start (edits.map Prod.fst) := by
    rw [← List.append_nil (edits.map Prod.fst)]
    exact h.append hafter
  calc splice source edits
      = sliceString source ⟨0, start⟩ ++ spliceTo source source.utf8ByteSize start edits :=
        (sliceString_append_spliceTo hslice.before hbody).symm
    _ = sliceString source ⟨0, start⟩ ++ (spliceTo source stop start edits ++
          sliceString source ⟨stop, source.utf8ByteSize⟩) := by
        have hsplit : spliceTo source source.utf8ByteSize start (edits ++ []) =
            spliceTo source stop start edits ++ spliceTo source source.utf8ByteSize stop [] :=
          spliceTo_append h hafter
        rw [List.append_nil] at hsplit
        rw [hsplit, spliceTo]
    _ = _ := (String.append_assoc ..).symm

/-- Without edits the source stays as it is. -/
theorem splice_nil (source : String) : splice source [] = source :=
  sliceString_whole source

end splicing

end Retouch.Text
