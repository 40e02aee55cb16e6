import Retouch.Files.Path

/-!
# Contexts

What a codemod is told about the text that it transforms: named attributes, ordered by name. For a
file they are the paths of the input and of the output.

Two laws say all about setting an attribute: it has the new value afterwards (`get?_set_self`), and
every other attribute is as before (`get?_set_of_ne`).
-/

namespace Retouch

/-- Attributes by name, in the order of their names. -/
structure Context where
  attributes : List (String × String) := []
deriving DecidableEq, Repr, Inhabited

namespace Context

/-- The context without attributes. -/
def empty : Context := {}

/-- The name of the attribute with the path of the input. -/
def inputName : String := "input_file"

/-- The name of the attribute with the path of the output. -/
def outputName : String := "output_file"

/-- Puts an attribute in its place in the order of names. -/
def setIn (name value : String) : List (String × String) → List (String × String)
  | [] => [(name, value)]
  | (other, old) :: rest =>
    if name = other then (name, value) :: rest
    else if name < other then (name, value) :: (other, old) :: rest
    else (other, old) :: setIn name value rest

/-- The context with an attribute set. -/
def set (context : Context) (name value : String) : Context :=
  ⟨setIn name value context.attributes⟩

/-- The value of an attribute. -/
def get? (context : Context) (name : String) : Option String :=
  context.attributes.lookup name

/-- The path of the input. -/
def inputFile? (context : Context) : Option Path :=
  (context.get? inputName).map Path.mk

/-- The path of the output. -/
def outputFile? (context : Context) : Option Path :=
  (context.get? outputName).map Path.mk

/-- Whether there are no attributes. -/
def isEmpty (context : Context) : Bool :=
  context.attributes.isEmpty

/-- An attribute that is set has its value. -/
theorem lookup_setIn_self (name value : String) (attributes : List (String × String)) :
    (setIn name value attributes).lookup name = some value := by
  induction attributes with
  | nil => simp [setIn]
  | cons head rest ih =>
    obtain ⟨other, old⟩ := head
    by_cases same : name = other
    · simp [setIn, same]
    · have differ : (name == other) = false := by simp [same]
      by_cases before : name < other
      · simp [setIn, same, before]
      · simp [setIn, same, before, List.lookup_cons, differ, ih]

/-- To set an attribute does not change the others. -/
theorem lookup_setIn_of_ne {name other : String} (h : other ≠ name) (value : String)
    (attributes : List (String × String)) :
    (setIn name value attributes).lookup other = attributes.lookup other := by
  have differ : (other == name) = false := by simp [h]
  induction attributes with
  | nil => simp [setIn, List.lookup_cons, differ]
  | cons head rest ih =>
    obtain ⟨place, old⟩ := head
    by_cases same : name = place
    · subst same
      simp [setIn, List.lookup_cons, differ]
    · by_cases before : name < place
      · simp [setIn, same, before, List.lookup_cons, differ]
      · simp [setIn, same, before, List.lookup_cons, ih]

/-- An attribute that was set has its value. -/
@[simp] theorem get?_set_self (context : Context) (name value : String) :
    (context.set name value).get? name = some value :=
  lookup_setIn_self name value context.attributes

/-- Setting an attribute leaves the others alone. -/
theorem get?_set_of_ne (context : Context) {name other : String} (h : other ≠ name)
    (value : String) : (context.set name value).get? other = context.get? other :=
  lookup_setIn_of_ne h value context.attributes

/-- The path of the input is what the attribute of that name says. -/
theorem inputFile?_eq_some_iff {context : Context} {path : Path} :
    context.inputFile? = some path ↔ context.get? inputName = some path.raw := by
  rw [inputFile?, Option.map_eq_some_iff]
  constructor
  · rintro ⟨value, hvalue, rfl⟩
    exact hvalue
  · intro hvalue
    exact ⟨path.raw, hvalue, rfl⟩

/-- The context of a file. -/
def forFile (input output : Path) : Context :=
  (empty.set inputName input.raw).set outputName output.raw

end Context

end Retouch
