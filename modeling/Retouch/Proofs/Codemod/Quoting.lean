import Mathlib.Data.List.Induction
import Retouch.Codemod.StringLiterals

/-!
# Quoted values are read back as they are

A value that is put between double quotes comes back when PHP reads the literal, whatever characters
it has. Both sides of this are about the *body* of the literal, which is the text between its two
quotes.

* **Reading.** `untilQuote?` finds the end of a literal, which is the first quote that is not
  escaped, and refuses a `$` that is not escaped because it may start an interpolation. `decode`
  turns the body into the value.
* **Being escaped** (`Escaped`) is a matter of parity: a character is escaped when an odd number of
  backslashes stands right before it. A text at the end of which nothing is escaped has no bearing
  on what comes behind it (`escaped_append`).
* **Writing** (`Spells`): a body is a row of escapes and of characters that need none. This is all
  that is known about a quoted value below (`spells_flatMap`), and each fact about reading follows
  by induction over such a row.

`doubleQuoted_verbatim` puts the facts together.
-/

namespace Retouch.StringLiterals

/-! ### How a literal is read -/

/-- The character that an escape stands for, from the character behind its backslash. -/
def escapedChar? : Char → Option Char
  | '\\' => some '\\'
  | '"' => some '"'
  | '$' => some '$'
  | 'n' => some '\n'
  | 't' => some '\t'
  | _ => none

/-- The value of a body. A character that is no part of an escape stands for itself. -/
def decode : List Char → List Char
  | [] => []
  | '\\' :: c :: rest =>
    match escapedChar? c with
    | some d => d :: decode rest
    | none => '\\' :: decode (c :: rest)
  | c :: rest => c :: decode rest

/-- A character that is no backslash stands for itself. -/
theorem decode_cons_of_ne {c : Char} (h : c ≠ '\\') (rest : List Char) :
    decode (c :: rest) = c :: decode rest := by
  rw [decode]
  exact fun _ _ hc _ => h hc

/-- Splits what follows an opening quote into the body and the text behind the closing quote. None
when no quote closes the literal, or when a `$` that is not escaped stands before it. -/
def untilQuote? : List Char → Option (List Char × List Char)
  | [] => none
  | '"' :: rest => some ([], rest)
  | '$' :: _ => none
  | '\\' :: c :: rest => (untilQuote? rest).map fun (body, behind) => ('\\' :: c :: body, behind)
  | c :: rest => (untilQuote? rest).map fun (body, behind) => (c :: body, behind)

/-- A character without a meaning of its own does not end the literal. -/
theorem untilQuote?_cons_of_ne {c : Char} (hquote : c ≠ '"') (hdollar : c ≠ '$')
    (hbackslash : c ≠ '\\') (rest : List Char) :
    untilQuote? (c :: rest) =
      (untilQuote? rest).map fun (body, behind) => (c :: body, behind) := by
  rw [untilQuote?]
  · exact hquote
  · exact hdollar
  · exact fun _ _ hc _ => hbackslash hc

/-- Whether a character behind `front` is escaped: `front` ends in an odd number of backslashes. -/
def Escaped (front : List Char) : Prop :=
  (front.reverse.takeWhile (· = '\\')).length % 2 = 1

instance (front : List Char) : Decidable (Escaped front) :=
  inferInstanceAs (Decidable (_ = 1))

/-- Nothing is in front of the first character, so it is not escaped. -/
theorem not_escaped_nil : ¬ Escaped [] := by
  decide

/-- A character escapes the next one if it is a backslash that is not escaped itself. -/
theorem escaped_concat (front : List Char) (c : Char) :
    Escaped (front ++ [c]) ↔ c = '\\' ∧ ¬ Escaped front := by
  unfold Escaped
  rw [List.reverse_append, List.reverse_singleton, List.singleton_append, List.takeWhile_cons]
  by_cases hc : c = '\\'
  · simp only [hc, decide_true, if_true, List.length_cons, true_and]
    omega
  · simp [hc]

/-- Behind a text at the end of which nothing is escaped, escaping starts anew. -/
theorem escaped_append {front : List Char} (hfront : ¬ Escaped front) (more : List Char) :
    Escaped (front ++ more) ↔ Escaped more := by
  induction more using List.reverseRecOn with
  | nil => simp [hfront, not_escaped_nil]
  | append_singleton more c ih =>
    rw [← List.append_assoc, escaped_concat, escaped_concat, ih]

/-! ### How a value is written -/

/-- A character that may stand for itself between double quotes. -/
def Plain (c : Char) : Prop :=
  c ≠ '\\' ∧ c ≠ '"' ∧ c ≠ '$' ∧ c ≠ '\n' ∧ c ≠ '\t'

/-- The body writes the value: some characters by escapes, all others as they are. -/
inductive Spells : (body value : List Char) → Prop
  | nil : Spells [] []
  | plain {c : Char} {body value : List Char} (hplain : Plain c) (hrest : Spells body value) :
      Spells (c :: body) (c :: value)
  | escape {c d : Char} {body value : List Char} (hescape : escapedChar? c = some d)
      (hrest : Spells body value) : Spells ('\\' :: c :: body) (d :: value)

/-- What a character is written as spells that character. -/
theorem Spells.escapeChar {body value : List Char} (h : Spells body value) (c : Char) :
    Spells (escapeChar c ++ body) (c :: value) := by
  unfold StringLiterals.escapeChar
  split
  case isTrue hself =>
    simp only [Bool.or_eq_true, decide_eq_true_eq] at hself
    rcases hself with (rfl | rfl) | rfl <;> exact .escape rfl h
  case isFalse hself =>
    simp only [Bool.or_eq_true, decide_eq_true_eq, not_or] at hself
    obtain ⟨⟨hbackslash, hquote⟩, hdollar⟩ := hself
    split
    case isTrue hnewline =>
      subst hnewline
      exact .escape rfl h
    case isFalse hnewline =>
      split
      case isTrue htab =>
        subst htab
        exact .escape rfl h
      case isFalse htab => exact .plain ⟨hbackslash, hquote, hdollar, hnewline, htab⟩ h

/-- What is put between the quotes writes the value. -/
theorem spells_flatMap (value : List Char) : Spells (value.flatMap escapeChar) value := by
  induction value with
  | nil => exact .nil
  | cons c rest ih =>
    rw [List.flatMap_cons]
    exact ih.escapeChar c

/-! ### Reading what is written -/

/-- What follows the backslash of an escape is neither a line break nor a tab. -/
theorem ne_lineBreak_of_escapedChar? {c d : Char} (h : escapedChar? c = some d) :
    c ≠ '\n' ∧ c ≠ '\t' := by
  constructor
  · rintro rfl
    cases h
  · rintro rfl
    cases h

/-- After an escape, the next character is not escaped. -/
theorem not_escaped_escape {c : Char} : ¬ Escaped ['\\', c] := by
  have hfirst : Escaped ['\\'] := by decide
  have hconcat := escaped_concat ['\\'] c
  simp only [List.singleton_append] at hconcat
  rw [hconcat]
  exact fun h => h.2 hfirst

/-- After a plain character, the next one is not escaped. -/
theorem Plain.not_escaped {c : Char} (h : Plain c) : ¬ Escaped [c] := by
  have hconcat := escaped_concat [] c
  rw [List.nil_append] at hconcat
  rw [hconcat]
  exact fun hescaped => h.1 hescaped.1

namespace Spells

variable {body value : List Char}

/-- A body that spells a value is read back as that value. -/
theorem decode_eq (h : Spells body value) : decode body = value := by
  induction h with
  | nil => rfl
  | @plain c body value hplain _ ih =>
    rw [decode_cons_of_ne hplain.1, ih]
  | escape hescape _ ih =>
    rw [decode, hescape]
    simp only [ih]

/-- The literal ends behind its body and not before. -/
theorem untilQuote?_append (h : Spells body value) (rest : List Char) :
    untilQuote? (body ++ '"' :: rest) = some (body, rest) := by
  induction h with
  | nil => rfl
  | @plain c body value hplain _ ih =>
    obtain ⟨hbackslash, hquote, hdollar, -, -⟩ := hplain
    rw [List.cons_append, untilQuote?_cons_of_ne hquote hdollar hbackslash, ih, Option.map_some]
  | escape _ _ ih =>
    rw [List.cons_append, List.cons_append, untilQuote?, ih, Option.map_some]

/-- At the end of a body nothing is escaped, so the quote behind it closes the literal. -/
theorem not_escaped (h : Spells body value) : ¬ Escaped body := by
  induction h with
  | nil => exact not_escaped_nil
  | @plain c body value hplain _ ih =>
    rwa [← List.singleton_append, escaped_append hplain.not_escaped]
  | @escape c d body value _ _ ih =>
    have hsplit : '\\' :: c :: body = ['\\', c] ++ body := rfl
    rwa [hsplit, escaped_append not_escaped_escape]

/-- What may stand at a place of a body: no line break and no tab at all, and no quote, no `$` and
no backslash without its escape unless it is escaped. -/
theorem at_place (h : Spells body value) {front back : List Char} {c : Char}
    (hsplit : body = front ++ c :: back) :
    c ≠ '\n' ∧ c ≠ '\t' ∧ (¬ Escaped front → c ≠ '"' ∧ c ≠ '$' ∧
      (c = '\\' → ∃ d rest, back = d :: rest ∧ (escapedChar? d).isSome)) := by
  -- the place is in the first part of the row, or the row without that part is split there
  induction h generalizing front with
  | nil => simp at hsplit
  | plain hplain _ ih =>
    rcases List.cons_eq_append_iff.mp hsplit with ⟨rfl, hfirst⟩ | ⟨others, rfl, hothers⟩
    · obtain ⟨rfl, -⟩ := List.cons.inj hfirst
      obtain ⟨hbackslash, hquote, hdollar, hnewline, htab⟩ := hplain
      exact ⟨hnewline, htab, fun _ => ⟨hquote, hdollar, fun h => absurd h hbackslash⟩⟩
    · rw [← List.singleton_append, escaped_append hplain.not_escaped]
      exact ih hothers
  | @escape e d body value hescape _ ih =>
    rcases List.cons_eq_append_iff.mp hsplit with ⟨rfl, hfirst⟩ | ⟨others, rfl, hothers⟩
    · obtain ⟨rfl, rfl⟩ := List.cons.inj hfirst
      refine ⟨by decide, by decide, fun _ => ⟨by decide, by decide, fun _ => ?_⟩⟩
      exact ⟨e, body, rfl, by rw [hescape, Option.isSome_some]⟩
    · rcases List.cons_eq_append_iff.mp hothers with ⟨rfl, hsecond⟩ | ⟨more, rfl, hmore⟩
      · obtain ⟨rfl, -⟩ := List.cons.inj hsecond
        obtain ⟨hnewline, htab⟩ := ne_lineBreak_of_escapedChar? hescape
        refine ⟨hnewline, htab, fun hno => ?_⟩
        exact absurd (by decide : Escaped ['\\']) hno
      · have hparts : '\\' :: e :: more = ['\\', e] ++ more := rfl
        rw [hparts, escaped_append not_escaped_escape]
        exact ih hmore

end Spells

/-- A quoted text is what its characters are written as, between two quotes. -/
theorem toList_doubleQuoted (value : String) :
    (doubleQuoted value).toList = '"' :: (value.toList.flatMap escapeChar ++ ['"']) := by
  rw [doubleQuoted, String.toList_ofList]

/-- A value comes back from between its double quotes. The quoted text is a body between two quotes.
In the body no line break and no tab stand as they are, every quote and every `$` is escaped, and
every backslash that is not escaped itself starts one of the five escapes; decoding the body gives
the value. So different values are quoted differently, the closing quote is the first one that is
not escaped, and no text behind the literal changes where it ends. -/
theorem doubleQuoted_verbatim :
    Function.Injective doubleQuoted ∧
      ∀ value : String, ∃ body, (doubleQuoted value).toList = '"' :: (body ++ ['"']) ∧
        (∀ front c back, body = front ++ c :: back → c ≠ '\n' ∧ c ≠ '\t' ∧
          (¬ Escaped front → c ≠ '"' ∧ c ≠ '$' ∧
            (c = '\\' → ∃ d rest, back = d :: rest ∧ (escapedChar? d).isSome))) ∧
        decode body = value.toList ∧
        ¬ Escaped body ∧
        ∀ rest, untilQuote? (body ++ '"' :: rest) = some (body, rest) := by
  constructor
  · intro value other hquoted
    have hbodies : value.toList.flatMap escapeChar = other.toList.flatMap escapeChar := by
      have htexts := congrArg String.toList hquoted
      rw [toList_doubleQuoted, toList_doubleQuoted] at htexts
      exact List.append_cancel_right (List.cons.inj htexts).2
    apply String.toList_inj.mp
    calc value.toList
        = decode (value.toList.flatMap escapeChar) := (spells_flatMap _).decode_eq.symm
      _ = decode (other.toList.flatMap escapeChar) := by rw [hbodies]
      _ = other.toList := (spells_flatMap _).decode_eq
  · intro value
    have hspells := spells_flatMap value.toList
    exact ⟨_, toList_doubleQuoted value, fun front c back => hspells.at_place, hspells.decode_eq,
      hspells.not_escaped, hspells.untilQuote?_append⟩

-- The two backslashes stand for one, so the quote behind them needs a backslash of its own.
example : doubleQuoted "\\\"$a" = "\"\\\\\\\"\\$a\"" := by decide

end Retouch.StringLiterals
