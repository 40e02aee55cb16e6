import Mathlib.Data.List.DropRight
import Mathlib.Data.Prod.Lex
import Mathlib.Order.Bounds.Defs
import Retouch.Proofs.Text.Splice
import Retouch.Text.Position

/-!
# Positions are exact and in order

A position is found by going through the characters before an offset, one after the other. Here it
is said what comes out, without that walk.

* **Which characters count** (`isLeast_charsBefore`). They are a first part of the text, and that
  part ends at the least boundary between characters that is not before the offset. If there is none
  because the offset is past the end, the part is the whole text.
* **What they come to** (`foldl_next`). The line counts the newlines in that part, the column counts
  the characters after the last of them.
* **The order** (`rank_lt_foldl`). Every character moves the position on: a newline to a later line,
  any other character to a later column of the line. So of two boundaries the earlier one has the
  earlier position, and different boundaries have different positions.
-/

namespace Retouch

namespace Position

/-- Where a position stands in the order of a text: by line, and on a line by column. -/
def rank (place : Position) : ℕ ×ₗ ℕ :=
  toLex (place.line, place.column)

/-- Each character moves a position forward. -/
theorem rank_lt_next (place : Position) (c : Char) : place.rank < (place.next c).rank := by
  rw [rank, rank, Prod.Lex.toLex_lt_toLex, next]
  split
  · exact .inl (Nat.lt_succ_self _)
  · exact .inr ⟨rfl, Nat.lt_succ_self _⟩

/-- Any number of characters moves the position on. -/
theorem rank_lt_foldl (place : Position) {chars : List Char} (h : chars ≠ []) :
    place.rank < (chars.foldl next place).rank := by
  induction chars generalizing place with
  | nil => exact absurd rfl h
  | cons c rest ih =>
    rw [List.foldl_cons]
    by_cases hrest : rest = []
    · subst hrest
      exact place.rank_lt_next c
    · exact (place.rank_lt_next c).trans (ih (place.next c) hrest)

/-- Where one gets from the start of a text. -/
theorem foldl_next (chars : List Char) :
    chars.foldl next first =
      ⟨1 + chars.count '\n', 1 + (chars.rtakeWhile (· ≠ '\n')).length⟩ := by
  -- the last character decides on the column, so the induction takes it off first
  induction chars using List.reverseRecOn with
  | nil => rfl
  | append_singleton front c ih =>
    rw [List.foldl_append, ih, List.foldl_cons, List.foldl_nil, next, List.count_append]
    by_cases hnewline : c = '\n'
    · subst hnewline
      rw [if_pos rfl, List.rtakeWhile_concat_neg _ _ _ (by simp)]
      rfl
    · rw [if_neg hnewline, List.rtakeWhile_concat_pos _ _ _ (by simpa using hnewline),
        List.count_singleton, if_neg (by simpa using hnewline), List.length_append,
        List.length_singleton]
      rfl

end Position

namespace Text

/-! ### The characters before an offset -/

/-- The characters before an offset are the first ones of the text. -/
theorem charsBefore_isPrefix (offset : Nat) (chars : List Char) :
    charsBefore offset chars <+: chars := by
  fun_induction charsBefore offset chars with
  | case1 => exact List.nil_prefix
  | case2 => exact List.prefix_rfl
  | case3 n c rest ih => exact List.cons_prefix_cons.mpr ⟨rfl, ih⟩

/-- The characters before an offset inside of the text reach as far as the offset. -/
theorem le_byteLength_charsBefore {offset : Nat} {chars : List Char}
    (h : offset ≤ byteLength chars) : offset ≤ byteLength (charsBefore offset chars) := by
  fun_induction charsBefore offset chars with
  | case1 => exact Nat.zero_le _
  | case2 => exact h
  | case3 n c rest ih =>
    rw [byteLength_cons] at h ⊢
    have hrest := ih (by omega)
    omega

/-- All characters are before an offset at or after the end. -/
theorem charsBefore_of_le {offset : Nat} {chars : List Char} (h : byteLength chars ≤ offset) :
    charsBefore offset chars = chars := by
  fun_induction charsBefore offset chars with
  | case1 chars =>
    cases chars with
    | nil => rfl
    | cons c rest =>
      have hpositive := c.utf8Size_pos
      rw [byteLength_cons] at h
      omega
  | case2 => rfl
  | case3 n c rest ih =>
    rw [byteLength_cons] at h
    rw [ih (by omega)]

/-- No shorter first part of the text reaches the offset. -/
theorem charsBefore_isPrefix_of_le {offset : Nat} {chars front : List Char}
    (hfront : front <+: chars) (h : offset ≤ byteLength front) :
    charsBefore offset chars <+: front := by
  fun_induction charsBefore offset chars generalizing front with
  | case1 => exact List.nil_prefix
  | case2 => exact List.nil_prefix
  | case3 n c rest ih =>
    cases front with
    | nil => simp at h
    | cons d others =>
      obtain ⟨rfl, hothers⟩ := List.cons_prefix_cons.mp hfront
      rw [byteLength_cons] at h
      exact List.cons_prefix_cons.mpr ⟨rfl, ih hothers (by omega)⟩

/-- The characters before the end of the front of a text are the front. -/
theorem charsBefore_append (front back : List Char) :
    charsBefore (byteLength front) (front ++ back) = front := by
  have hshort := charsBefore_isPrefix_of_le (List.prefix_append front back) le_rfl
  obtain ⟨rest, hrest⟩ := hshort
  have hlong : byteLength front ≤ byteLength (charsBefore (byteLength front) (front ++ back)) :=
    le_byteLength_charsBefore (by rw [byteLength_append]; omega)
  have hlength := congrArg byteLength hrest
  rw [byteLength_append] at hlength
  cases rest with
  | nil => rwa [List.append_nil] at hrest
  | cons c others =>
    have hpositive := c.utf8Size_pos
    rw [byteLength_cons] at hlength
    omega

/-! ### Boundaries -/

/-- Before a boundary there is a first part of the text. -/
theorem isBoundary_iff {text : String} {offset : Nat} :
    IsBoundary text offset ↔ ∃ front, front <+: text.toList ∧ byteLength front = offset := by
  rw [isBoundary_iff_exists_append]
  constructor
  · rintro ⟨front, back, rfl, hsize⟩
    refine ⟨front.toList, ?_, ?_⟩
    · rw [String.toList_append]
      exact List.prefix_append _ _
    · rw [byteLength_toList, hsize]
  · rintro ⟨front, ⟨back, hback⟩, rfl⟩
    refine ⟨String.ofList front, String.ofList back, ?_, ?_⟩
    · rw [← String.ofList_append, hback, String.ofList_toList]
    · rw [← byteLength_toList, String.toList_ofList]

/-- The characters before an offset go up to the first boundary from the offset on. -/
theorem isLeast_charsBefore {text : String} {offset : Nat} (h : offset ≤ text.utf8ByteSize) :
    IsLeast {place | IsBoundary text place ∧ offset ≤ place}
      (byteLength (charsBefore offset text.toList)) := by
  constructor
  · refine ⟨isBoundary_iff.mpr ⟨_, charsBefore_isPrefix offset text.toList, rfl⟩, ?_⟩
    exact le_byteLength_charsBefore (by rwa [byteLength_toList])
  · rintro place ⟨hplace, hoffset⟩
    obtain ⟨front, hfront, rfl⟩ := isBoundary_iff.mp hplace
    obtain ⟨rest, hrest⟩ := charsBefore_isPrefix_of_le hfront hoffset
    rw [← hrest, byteLength_append]
    exact Nat.le_add_right _ _

/-- The position of the end of the front of a text is reached by going over the front. -/
theorem positionAt_of_append {text : String} {front back : List Char}
    (h : front ++ back = text.toList) :
    positionAt text (byteLength front) = front.foldl Position.next Position.first := by
  rw [positionAt, ← h, charsBefore_append]

/-- Of two boundaries the earlier one has the earlier position. -/
theorem strictMonoOn_rank_positionAt (text : String) :
    StrictMonoOn (fun offset => (positionAt text offset).rank) {place | IsBoundary text place} := by
  intro a ha b hb hlt
  obtain ⟨front, ⟨back, hback⟩, rfl⟩ := isBoundary_iff.mp ha
  obtain ⟨longer, hlonger, rfl⟩ := isBoundary_iff.mp hb
  -- what comes before the earlier boundary is a first part of what comes before the later one
  have hfront : front <+: longer := by
    have hshort := charsBefore_isPrefix_of_le hlonger (Nat.le_of_lt hlt)
    rwa [← hback, charsBefore_append] at hshort
  obtain ⟨between, rfl⟩ := hfront
  obtain ⟨rest, hrest⟩ := hlonger
  have hbetween : between ≠ [] := by
    rintro rfl
    rw [List.append_nil] at hlt
    exact Nat.lt_irrefl _ hlt
  dsimp only
  rw [positionAt_of_append hback, positionAt_of_append hrest, List.foldl_append]
  exact Position.rank_lt_foldl _ hbetween

/-- The position of an offset counts what comes before the first boundary from the offset on, or the
whole text if the offset is past the end: the line is one more than the newlines there, the column
one more than the characters after the last of them. Neither number exceeds that of the characters
of the text by more than one. On boundaries, positions are in the order of the offsets, so no two of
them have the same position. -/
theorem positionAt_exact (text : String) :
    (∀ offset, ∃ front back : String, text = front ++ back ∧
      (offset ≤ text.utf8ByteSize →
        IsLeast {place | IsBoundary text place ∧ offset ≤ place} front.utf8ByteSize) ∧
      (text.utf8ByteSize < offset → front = text) ∧
      positionAt text offset =
        ⟨1 + front.toList.count '\n', 1 + (front.toList.rtakeWhile (· ≠ '\n')).length⟩ ∧
      (positionAt text offset).line ≤ 1 + text.length ∧
      (positionAt text offset).column ≤ 1 + text.length) ∧
    StrictMonoOn (fun offset => (positionAt text offset).rank) {place | IsBoundary text place} ∧
    Set.InjOn (positionAt text) {place | IsBoundary text place} := by
  have hordered := strictMonoOn_rank_positionAt text
  refine ⟨fun offset => ?_, hordered, fun a ha b hb hsame => ?_⟩
  · obtain ⟨back, hback⟩ := charsBefore_isPrefix offset text.toList
    have hposition : positionAt text offset = _ :=
      Position.foldl_next (charsBefore offset text.toList)
    have hlength := (charsBefore_isPrefix offset text.toList).length_le
    rw [String.length_toList] at hlength
    have hnewlines := (charsBefore offset text.toList).count_le_length (a := '\n')
    have hcolumn := (List.rtakeWhile_suffix (· ≠ '\n') (charsBefore offset text.toList)).length_le
    refine ⟨String.ofList (charsBefore offset text.toList), String.ofList back, ?_, ?_, ?_, ?_, ?_,
      ?_⟩
    · rw [← String.ofList_append, hback, String.ofList_toList]
    · intro hoffset
      rw [← byteLength_toList, String.toList_ofList]
      exact isLeast_charsBefore hoffset
    · intro hoffset
      rw [charsBefore_of_le (by rw [byteLength_toList]; omega), String.ofList_toList]
    · rw [hposition, String.toList_ofList]
    · rw [hposition]
      dsimp only
      omega
    · rw [hposition]
      dsimp only
      omega
  · exact hordered.injOn ha hb (congrArg Position.rank hsame)

/-- An offset inside of a character counts that character. -/
example : positionAt "a\né!" 3 = ⟨2, 2⟩ := by decide

end Text

end Retouch
