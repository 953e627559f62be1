import Phrasebook.Catalog.Basic
import Phrasebook.Number.Notation
import Phrasebook.Number.Read
import Phrasebook.Plural.Basic

/-!
# Lookups

A lookup turns a key and arguments into the text that a reader sees. The template of the key comes
from the catalog of a locale; a key without one is its own template. If the template holds a plural
expression, the argument that it counts chooses a branch. Then every placeholder that names an
argument is replaced by its value. A lookup never fails.
-/

namespace Phrasebook

/-- The value of an argument. -/
inductive ArgumentValue where
  | text (value : String)
  | whole (value : Int)
  | number (value : Number)
deriving DecidableEq, Repr

/-- An argument of a lookup. -/
structure Argument where
  name : String
  value : ArgumentValue
deriving DecidableEq, Repr

namespace ArgumentValue

/-- The number that a value counts as. A text counts if it is a number between blanks. -/
def number? : ArgumentValue → Option Number
  | text value => Number.read? (Text.trim value)
  | whole value => some (Number.ofInt value)
  | number value => some value

def render : ArgumentValue → String
  | text value => value
  | whole value => toString value
  | number value => value.render

end ArgumentValue

namespace Lookup

def argument? (arguments : List Argument) (name : String) : Option ArgumentValue :=
  (arguments.find? fun argument ↦ argument.name == name).map (·.value)

/-- The argument that counts when a template names one that is not given. -/
def countArgument : String :=
  "count"

/-- A body with every number sign replaced by a text. -/
def fillCount (count : List Char) (body : List Char) : List Char :=
  body.flatMap fun c ↦ if c = '#' then count else [c]

/-- The body of the branch for a number: the one for exactly this number, else the one for one,
else the one for all others. -/
def branchFor? (plural : Plural) (number : Number) : Option String :=
  (plural.body? ("=" ++ number.render)).or <|
    (if number.isOne then plural.body? "one" else none).or (plural.body? "other")

/-- The number that a plural expression chooses by. -/
def countFor? (plural : Plural) (arguments : List Argument) : Option Number :=
  ((argument? arguments plural.argument).or (argument? arguments countArgument)).bind (·.number?)

/-- A template with the branch of its plural expression in the place of the expression; nothing
when it has none or no branch can be chosen. -/
def selectBranch? (template : String) (arguments : List Argument) : Option String :=
  (Plural.find? template).bind fun located ↦
    if located.plural.kind == "plural" then
      (countFor? located.plural arguments).bind fun number ↦
        (branchFor? located.plural number).map fun body ↦
          located.before ++ String.ofList (fillCount number.render.toList body.toList) ++
            located.after
    else none

def startsName (c : Char) : Bool :=
  c.isAlpha || c == '_' || c == '$'

/-- Whether a character may stand within the name of a placeholder. -/
def continuesName (c : Char) : Bool :=
  startsName c || c.isDigit

/-- The placeholder that a text begins with: the name between two pairs of braces, with blanks
around it, and the text behind. -/
def placeholder? : List Char → Option (String × List Char)
  | '{' :: '{' :: rest =>
    let inner := rest.dropWhile Text.isBlank
    let name := inner.takeWhile continuesName
    match name, (inner.dropWhile continuesName).dropWhile Text.isBlank with
    | first :: _, '}' :: '}' :: after =>
      if startsName first then some (String.ofList name, after) else none
    | _, _ => none
  | _ => none

theorem length_after_placeholder {text after : List Char} {name : String}
    (h : placeholder? text = some (name, after)) : after.length < text.length := by
  unfold placeholder? at h
  split at h
  · next rest =>
    simp only at h
    split at h
    · next hrest =>
      split at h
      · simp only [Option.some.injEq, Prod.mk.injEq] at h
        obtain ⟨-, rfl⟩ := h
        have h₁ := (List.dropWhile_sublist Text.isBlank
          (l := (rest.dropWhile Text.isBlank).dropWhile continuesName)).length_le
        have h₂ := (List.dropWhile_sublist continuesName
          (l := rest.dropWhile Text.isBlank)).length_le
        have h₃ := (List.dropWhile_sublist Text.isBlank (l := rest)).length_le
        rw [hrest] at h₁
        simp only [List.length_cons] at h₁ ⊢
        omega
      · simp at h
    · simp at h
  · simp at h

/-- A text with its placeholders replaced by the values of arguments. A placeholder without an
argument stays as it is, and a value is not searched for placeholders. -/
def fill (arguments : List Argument) (text : List Char) : List Char :=
  match h : placeholder? text with
  | some (name, after) =>
    have := length_after_placeholder h
    let written := text.take (text.length - after.length)
    ((argument? arguments name).map fun value ↦ value.render.toList).getD written ++
      fill arguments after
  | none =>
    match text with
    | [] => []
    | c :: rest => c :: fill arguments rest
termination_by text.length

/-- The template of a key. A key that is missing or has no text is its own template. -/
def templateOf (catalog : Catalog) (key : String) : String :=
  match catalog.get? key with
  | some template => if template.isEmpty then key else template
  | none => key

/-- The text for a key and arguments. -/
def resolve (catalog : Catalog) (key : String) (arguments : List Argument) : String :=
  let template := templateOf catalog key
  let selected := (selectBranch? template arguments).getD template
  if arguments.isEmpty then selected
  else String.ofList (fill arguments selected.toList)

end Lookup

end Phrasebook
