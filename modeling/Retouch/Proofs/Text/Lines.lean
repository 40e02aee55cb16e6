import Mathlib.Data.List.TakeWhile
import Retouch.Proofs.Text.Positions
import Retouch.Proofs.Tree.Faults

/-!
# The line at a place

There are two notions of a line. A position counts newlines, and the lines of a text are what is
left of it when it is cut at its newlines: the text after the last newline is a line only if it is
not empty, and a line that a newline ends loses a carriage return there. Here the two are brought
together.

* **Cutting piece by piece** (`cutLines_append`). What a first part of a text leaves unfinished is
  carried over to the rest. There are as many finished lines as newlines (`length_cutLines`), and
  unfinished is what follows the last newline (`snd_cutLines`).
* **The line at a place** (`getElem?_lines_count`). Of the lines of a text, the one whose number is
  the number of newlines before a place is the line around that place (`lineAround`), which goes
  from the last newline before the place to the next one after it. Only at the end of a text whose
  last line is empty there is no such line.
* **The end of the source** (`description_eq_endText_iff`). A fault is therefore reported as an
  unexpected end exactly when it is not a missing node and starts at such an empty last line.
-/

namespace Retouch

namespace Text

/-! ### Cutting a text piece by piece -/

/-- The characters of a line are no newlines, in the form in which lines are cut. -/
theorem ne_newline_of_unbroken {line : List Char} (h : '\n' ∉ line) :
    ∀ c ∈ line, decide (c ≠ '\n') = true := by
  intro c hc
  rw [decide_eq_true_eq]
  rintro rfl
  exact h hc

/-- There is no newline in what follows the last newline. -/
theorem newline_not_mem_rtakeWhile (text : List Char) : '\n' ∉ text.rtakeWhile (· ≠ '\n') := by
  intro hmem
  simpa using List.mem_rtakeWhile_imp hmem

/-- A text without a newline is a single line that is not ended. -/
theorem cutLines_of_unbroken {line : List Char} (h : '\n' ∉ line) : cutLines line = ([], line) := by
  induction line with
  | nil => rfl
  | cons c rest ih =>
    rw [List.mem_cons, not_or] at h
    simp only [cutLines, ih h.2, if_neg (Ne.symm h.1)]

/-- A newline ends the first line, whatever comes after it. -/
theorem cutLines_newline {line : List Char} (h : '\n' ∉ line) (rest : List Char) :
    cutLines (line ++ '\n' :: rest) = (line :: (cutLines rest).1, (cutLines rest).2) := by
  induction line with
  | nil => rfl
  | cons c line ih =>
    rw [List.mem_cons, not_or] at h
    simp only [List.cons_append, cutLines, ih h.2, if_neg (Ne.symm h.1)]

/-- The last line of a first part, which no newline ends, goes on in the rest. -/
theorem cutLines_append (front back : List Char) :
    cutLines (front ++ back) =
      ((cutLines front).1 ++ (cutLines ((cutLines front).2 ++ back)).1,
        (cutLines ((cutLines front).2 ++ back)).2) := by
  induction front with
  | nil => rfl
  | cons c front ih =>
    rw [List.cons_append, cutLines, ih]
    by_cases hc : c = '\n'
    · simp only [cutLines, if_pos hc, List.cons_append]
    · cases hended : (cutLines front).1 with
      | nil => simp only [cutLines, hended, if_neg hc, List.nil_append, List.cons_append]
      | cons line more => simp only [cutLines, hended, if_neg hc, List.cons_append]

/-- There is a finished line for every newline. -/
theorem length_cutLines (text : List Char) : (cutLines text).1.length = text.count '\n' := by
  induction text with
  | nil => rfl
  | cons c rest ih =>
    rw [cutLines, List.count_cons, ← ih]
    by_cases hc : c = '\n'
    · simp [hc]
    · cases hended : (cutLines rest).1 <;> simp [hc, hended]

/-- The unfinished line is what follows the last newline. -/
theorem snd_cutLines (text : List Char) : (cutLines text).2 = text.rtakeWhile (· ≠ '\n') := by
  induction text using List.reverseRecOn with
  | nil => rfl
  | append_singleton front c ih =>
    have hfront : '\n' ∉ (cutLines front).2 := by
      rw [ih]
      exact newline_not_mem_rtakeWhile front
    rw [cutLines_append]
    by_cases hc : c = '\n'
    · rw [hc, cutLines_newline hfront, List.rtakeWhile_concat_neg _ _ _ (by simp)]
      rfl
    · have hline : '\n' ∉ (cutLines front).2 ++ [c] := by
        rw [List.mem_append, List.mem_singleton, not_or]
        exact ⟨hfront, Ne.symm hc⟩
      rw [cutLines_of_unbroken hline, ih, List.rtakeWhile_concat_pos _ _ _ (by simpa using hc)]

/-- The lines that end in the front of a text come first, and the line that the front leaves open
goes on in the back. -/
theorem lines_append (front back : List Char) :
    lines (front ++ back) =
      (cutLines front).1.map dropReturn ++ lines ((cutLines front).2 ++ back) := by
  simp only [lines, cutLines_append front back, List.map_append, List.append_assoc]

/-! ### The line around a place -/

/-- The line around a place that has `front` before it and `back` after it: from the last newline
before the place up to the next newline, or to the end of the text. A carriage return directly
before that newline is not a part of the line. -/
def lineAround (front back : List Char) : List Char :=
  let line := front.rtakeWhile (· ≠ '\n') ++ back.takeWhile (· ≠ '\n')
  if '\n' ∈ back ∧ line.getLast? = some '\r' then line.dropLast else line

/-- Lines before the place have no part in the line around it. -/
theorem lineAround_rtakeWhile (front back : List Char) :
    lineAround (front.rtakeWhile (· ≠ '\n')) back = lineAround front back := by
  simp only [lineAround, List.rtakeWhile_idempotent]

/-- If a newline follows, the line ends there, without the carriage return. -/
theorem lineAround_of_newline {start upTo : List Char} (hstart : '\n' ∉ start)
    (hupTo : '\n' ∉ upTo) (rest : List Char) :
    lineAround start (upTo ++ '\n' :: rest) = dropReturn (start ++ upTo) := by
  have htake : (upTo ++ '\n' :: rest).takeWhile (· ≠ '\n') = upTo := by
    rw [List.takeWhile_append_of_pos (ne_newline_of_unbroken hupTo),
      List.takeWhile_cons_of_neg (by simp), List.append_nil]
  have hnewline : '\n' ∈ upTo ++ '\n' :: rest :=
    List.mem_append_right _ List.mem_cons_self
  simp only [lineAround, List.rtakeWhile_eq_self_iff.mpr (ne_newline_of_unbroken hstart), htake,
    hnewline, true_and, dropReturn]

/-- If no newline follows, the line goes on to the end of the text. -/
theorem lineAround_of_unbroken {start back : List Char} (hstart : '\n' ∉ start)
    (hback : '\n' ∉ back) : lineAround start back = start ++ back := by
  simp only [lineAround, List.rtakeWhile_eq_self_iff.mpr (ne_newline_of_unbroken hstart),
    List.takeWhile_eq_self_iff.mpr (ne_newline_of_unbroken hback), hback, false_and, if_false]

/-- The first of the lines of a text is the one around any place that has no newline before it. -/
theorem head?_lines_append {start back : List Char} (hstart : '\n' ∉ start)
    (hany : start ++ back ≠ []) :
    (lines (start ++ back)).head? = some (lineAround start back) := by
  by_cases hback : '\n' ∈ back
  · obtain ⟨upTo, rest, rfl, hupTo⟩ := List.eq_append_cons_of_mem hback
    have hline : '\n' ∉ start ++ upTo := by
      rw [List.mem_append, not_or]
      exact ⟨hstart, hupTo⟩
    rw [lineAround_of_newline hstart hupTo, ← List.append_assoc, lines, cutLines_newline hline]
    rfl
  · have hline : '\n' ∉ start ++ back := by
      rw [List.mem_append, not_or]
      exact ⟨hstart, hback⟩
    rw [lineAround_of_unbroken hstart hback, lines, cutLines_of_unbroken hline]
    simp only [List.map_nil, List.nil_append, if_neg hany, List.head?_cons]

/-- There is nothing on the last line: the text is empty, or a newline is its last character. -/
def LastLineEmpty (text : List Char) : Prop :=
  text = [] ∨ text.getLast? = some '\n'

instance (text : List Char) : Decidable (LastLineEmpty text) :=
  inferInstanceAs (Decidable (_ ∨ _))

/-- Nothing follows the last newline exactly if there is nothing on the last line. -/
theorem rtakeWhile_eq_nil_iff_lastLineEmpty (text : List Char) :
    text.rtakeWhile (· ≠ '\n') = [] ↔ LastLineEmpty text := by
  induction text using List.reverseRecOn with
  | nil => exact iff_of_true rfl (.inl rfl)
  | append_singleton front c _ =>
    rw [LastLineEmpty, List.getLast?_concat, Option.some.injEq]
    by_cases hc : c = '\n'
    · exact iff_of_true (List.rtakeWhile_concat_neg _ _ _ (by simp [hc])) (.inr hc)
    · rw [List.rtakeWhile_concat_pos _ _ _ (by simpa using hc)]
      simp [hc]

/-- Of the lines of a text, the one with as many lines before it as there are newlines before a
place is the line around that place. -/
theorem getElem?_lines_count (front back : List Char) :
    (lines (front ++ back))[front.count '\n']? =
      if back = [] ∧ LastLineEmpty front then none else some (lineAround front back) := by
  have hfirst : (lines (front ++ back))[front.count '\n']? =
      (lines (front.rtakeWhile (· ≠ '\n') ++ back)).head? := by
    have hlength : ((cutLines front).1.map dropReturn).length = front.count '\n' := by
      rw [List.length_map, length_cutLines]
    rw [lines_append, List.getElem?_append_right hlength.le, hlength, Nat.sub_self,
      ← List.head?_eq_getElem?, snd_cutLines]
  rw [hfirst]
  split_ifs with hend
  · rw [hend.1, (rtakeWhile_eq_nil_iff_lastLineEmpty front).mpr hend.2]
    rfl
  · have hany : front.rtakeWhile (· ≠ '\n') ++ back ≠ [] := by
      rw [Ne, List.append_eq_nil_iff, rtakeWhile_eq_nil_iff_lastLineEmpty, and_comm]
      exact hend
    rw [head?_lines_append (newline_not_mem_rtakeWhile front) hany, lineAround_rtakeWhile]

/-- What stands before an offset decides on the line that the position of the offset names. -/
theorem lineText_positionAt_eq {text : String} {offset : Nat} {back : List Char}
    (h : charsBefore offset text.toList ++ back = text.toList) :
    lineText text (positionAt text offset).line =
      if back = [] ∧ LastLineEmpty text.toList then none
      else some (String.ofList (lineAround (charsBefore offset text.toList) back)) := by
  have hline : (positionAt text offset).line =
      1 + (charsBefore offset text.toList).count '\n' := by
    rw [positionAt, Position.foldl_next]
  have hempty : back = [] ∧ LastLineEmpty text.toList ↔
      back = [] ∧ LastLineEmpty (charsBefore offset text.toList) := by
    constructor <;> rintro ⟨rfl, hlast⟩ <;> rw [List.append_nil] at h <;>
      exact ⟨rfl, by simpa only [h] using hlast⟩
  rw [hline, lineText, if_neg (by omega), Nat.add_sub_cancel_left, if_congr hempty rfl rfl]
  nth_rewrite 1 [← h]
  rw [getElem?_lines_count]
  split_ifs <;> rfl

/-- An offset has no line to show exactly if the text is over there and there is nothing on its last
line. -/
theorem lineText_positionAt_eq_none_iff_of_append {text : String} {offset : Nat} {back : List Char}
    (h : charsBefore offset text.toList ++ back = text.toList) :
    lineText text (positionAt text offset).line = none ↔
      back = [] ∧ LastLineEmpty text.toList := by
  rw [lineText_positionAt_eq h]
  simp

/-- The front is all of the text exactly if the back is empty. -/
theorem eq_whole_iff_of_append {front back whole : List Char} (h : front ++ back = whole) :
    front = whole ↔ back = [] := by
  rw [← h]
  exact List.self_eq_append_right

/-- Where the last line is empty, the last character is a newline, and no offset is inside of it. -/
theorem charsBefore_eq_self_iff {text : List Char} (h : LastLineEmpty text) {offset : Nat} :
    charsBefore offset text = text ↔ byteLength text ≤ offset := by
  refine ⟨fun hall => ?_, charsBefore_of_le⟩
  rcases h with rfl | hlast
  · exact Nat.zero_le _
  · obtain ⟨init, rfl⟩ := List.getLast?_eq_some_iff.mp hlast
    by_contra hbefore
    have hsize : byteLength (init ++ ['\n']) = byteLength init + 1 := byteLength_append _ _
    have hinit := charsBefore_isPrefix_of_le (List.prefix_append init ['\n'])
      (show offset ≤ byteLength init by omega)
    rw [hall] at hinit
    have hlength := hinit.length_le
    rw [List.length_append, List.length_singleton] at hlength
    omega

/-- There is no line at an offset exactly if it is not before the end of a text whose last line is
empty. -/
theorem lineText_positionAt_eq_none_iff {text : String} {offset : Nat} :
    lineText text (positionAt text offset).line = none ↔
      text.utf8ByteSize ≤ offset ∧ LastLineEmpty text.toList := by
  obtain ⟨back, hback⟩ := charsBefore_isPrefix offset text.toList
  rw [lineText_positionAt_eq_none_iff_of_append hback, ← byteLength_toList]
  refine and_congr_left fun hlast => ?_
  rw [← charsBefore_eq_self_iff hlast, eq_whole_iff_of_append hback]

end Text

namespace Concrete

open Text

/-! ### Faults at the end of the source -/

/-- The description of a fault at the end of the source. -/
def endText : String :=
  "syntax error, unexpected end of file"

/-- A description that starts in another way is not the one of the end of the source. -/
theorem append_ne_endText {stem : String} (h : ¬ stem.toList <+: endText.toList) (rest : String) :
    stem ++ rest ≠ endText := by
  intro heq
  rw [← heq, String.toList_append] at h
  exact h (List.prefix_append _ _)

/-- The description is that of the end of the source just if the fault is not missing, has no text
to quote, and stands on no line. -/
theorem description_eq_endText_iff_lineText (source : String) (raw : Concrete) :
    (describe source raw).description = endText ↔
      raw.isMissing = false ∧ snippet? source raw.span = none ∧
        lineText source (positionAt source raw.span.start).line = none := by
  cases hmissing : raw.isMissing with
  | true =>
    rw [description_of_missing source hmissing]
    refine iff_of_false ?_ fun h => Bool.noConfusion h.1
    show "syntax error, missing `" ++ raw.kind ++ "`" ≠ endText
    rw [String.append_assoc]
    exact append_ne_endText (by decide) _
  | false =>
    simp only [describe, hmissing, Bool.false_eq_true, if_false, true_and]
    cases hsnippet : snippet? source raw.span with
    | some shown =>
      refine iff_of_false ?_ fun h => Option.some_ne_none _ h.1
      show "syntax error, unexpected `" ++ shown ++ "`" ≠ endText
      rw [String.append_assoc]
      exact append_ne_endText (by decide) _
    | none =>
      cases hline : lineText source (positionAt source raw.span.start).line with
      | some line =>
        refine iff_of_false ?_ fun h => Option.some_ne_none _ h.2
        show "syntax error near `" ++ _ ++ "`" ≠ endText
        rw [String.append_assoc]
        exact append_ne_endText (by decide) _
      | none => exact iff_of_true rfl ⟨rfl, rfl⟩

/-- At the end of the source there is no text to quote. -/
theorem snippet?_eq_none_of_le {source : String} {span : Span}
    (h : source.utf8ByteSize ≤ span.start) : snippet? source span = none := by
  rw [← byteLength_toList] at h
  cases hslice : slice? source.toList span with
  | none => rw [snippet?, hslice]; rfl
  | some middle =>
    obtain ⟨front, back, hsource, hstart, -⟩ := slice?_eq_some_iff.mp hslice
    have hempty : middle = [] := by
      cases middle with
      | nil => rfl
      | cons c rest =>
        have hpositive := c.utf8Size_pos
        rw [hsource, byteLength_append, byteLength_append, byteLength_cons] at h
        omega
    rw [snippet?, hslice, hempty]
    rfl

/-- A fault is described by the end of the source exactly if it is not missing and starts at or
after the end of a source whose last line is empty. -/
theorem description_eq_endText_iff (source : String) (raw : Concrete) :
    (describe source raw).description = endText ↔
      raw.isMissing = false ∧ source.utf8ByteSize ≤ raw.span.start ∧
        LastLineEmpty source.toList := by
  rw [description_eq_endText_iff_lineText, lineText_positionAt_eq_none_iff]
  refine and_congr_right fun _ => and_iff_right_of_imp fun hend => ?_
  exact snippet?_eq_none_of_le hend.1

/-- What is reported about a source is the description of its first fault, or a general one if no
fault is found in its tree. -/
theorem exists_fault_of_read {source : String} {root : Concrete} {report : SyntaxFault}
    (h : root.read source = .error report) :
    (∃ fault, root.firstFault? = some fault ∧ report = describe source fault) ∨
      root.firstFault? = none ∧ report.description = "syntax error" := by
  unfold read at h
  split_ifs at h
  cases hfault : root.firstFault? with
  | some fault =>
    rw [hfault] at h
    exact .inl ⟨fault, rfl, (Except.error.inj h).symm⟩
  | none =>
    rw [hfault] at h
    obtain rfl := Except.error.inj h
    exact .inr ⟨rfl, rfl⟩

/-- The report of a refused source is that of its end exactly if the first fault is such a fault. -/
theorem report_eq_endText_iff {source : String} {root : Concrete} {report : SyntaxFault}
    (h : root.read source = .error report) :
    report.description = endText ↔
      ∃ fault, root.firstFault? = some fault ∧ fault.isMissing = false ∧
        source.utf8ByteSize ≤ fault.span.start ∧ LastLineEmpty source.toList := by
  rcases exists_fault_of_read h with ⟨fault, hfault, rfl⟩ | ⟨hnone, hplain⟩
  · rw [description_eq_endText_iff, hfault]
    simp only [Option.some.injEq, exists_eq_left']
  · rw [hplain, hnone]
    exact iff_of_false (by decide) (by simp)

end Concrete

namespace Text

/-- The end of a text whose last line is empty is the first place of that line. -/
theorem positionAt_of_lastLineEmpty {text : String} (hlast : LastLineEmpty text.toList)
    {offset : Nat} (h : text.utf8ByteSize ≤ offset) :
    positionAt text offset = ⟨1 + text.toList.count '\n', 1⟩ := by
  rw [← byteLength_toList] at h
  rw [positionAt, charsBefore_of_le h, Position.foldl_next,
    (rtakeWhile_eq_nil_iff_lastLineEmpty _).mpr hlast]
  rfl

/-- A source with both endings of lines and a character of two bytes, which stops after an opening
parenthesis and a newline. -/
def unclosedSource : String :=
  "<?php\r\n$é = (\n"

/-- A concrete tree of that source, with the fault where the source stops. -/
def unclosed : Concrete :=
  { kind := "program", span := ⟨0, 15⟩, hasError := true
    children :=
      [{ kind := "php_tag", span := ⟨0, 5⟩ },
       { kind := "ERROR", span := ⟨15, 15⟩, isError := true, hasError := true }] }

/-- An offset inside of a character, on a line that ends with a carriage return and a newline. -/
example : lineText "é\r\n" (positionAt "é\r\n" 1).line = some "é" := by decide

end Text

end Retouch
