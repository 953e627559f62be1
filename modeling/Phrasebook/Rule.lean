import Phrasebook.Plural.Basic

/-!
# Rules for text that a reader sees

Which pieces of a source hold text for a reader, and under which template they are stored. The
rules look at candidates, not at syntax: the text between two tags, a quoted attribute, a template
literal, and a comparison that chooses between two texts.
-/

namespace Phrasebook

/-- The kinds of text that get keys of their own. -/
inductive KeyKind where
  | text
  | plural
deriving DecidableEq, Repr

def KeyKind.word : KeyKind → String
  | .text => "text"
  | .plural => "plural"

/-- A part of a template literal. -/
inductive TemplatePart where
  | literal (text : String)
  | identifier (name : String)
  /-- Any interpolation that is not a bare identifier. -/
  | other
deriving DecidableEq, Repr

/-- How two values are compared. -/
inductive Comparison where
  | loose
  | strict
  | other
deriving DecidableEq, Repr

/-- What the left side of a comparison is. -/
inductive OperandShape where
  | identifier
  | member
  | number
  | other
deriving DecidableEq, Repr

/-- The test of a conditional that compares, with the left side and its source text. -/
structure EqualityTest where
  comparison : Comparison
  shape : OperandShape
  source : String
deriving DecidableEq, Repr

/-- A piece of a source that may hold text for a reader. -/
inductive Candidate where
  /-- The text between two tags. -/
  | text (value : String)
  /-- An attribute with a quoted value. -/
  | attribute (name value : String)
  /-- A template literal where markup holds an expression. -/
  | template (parts : List TemplatePart)
  /-- A conditional expression. The test is absent when it is no comparison, a branch when it is
  no string. -/
  | conditional (test : Option EqualityTest) (consequent alternate : Option String)
deriving DecidableEq, Repr

/-- An argument of a lookup: a name and the expression for its value. -/
structure LookupArgument where
  name : String
  expression : String
deriving DecidableEq, Repr

/-- What a rule finds: the kind of the text, its template and the arguments of the lookup. -/
structure Match where
  kind : KeyKind
  template : String
  arguments : List LookupArgument
deriving DecidableEq, Repr

namespace Rule

/-- Text between two tags counts if it holds a letter once it is normalized. -/
def matchText (value : String) : Option Match :=
  let text := Text.normalizeMarkupText value
  if Text.containsAlphabetic text then some ⟨.text, text, []⟩ else none

/-- A quoted attribute counts if its trimmed value holds a letter, unless its name is excluded. -/
def matchAttribute (excluded : List String) (name value : String) : Option Match :=
  let text := Text.trim value
  if !excluded.contains name && Text.containsAlphabetic text then some ⟨.text, text, []⟩ else none

def placeholder (name : String) : String :=
  "\x7b\x7b" ++ name ++ "\x7d\x7d"

/-- The template of the parts of a literal, if every interpolation is an identifier. -/
def templateText? : List TemplatePart → Option String
  | [] => some ""
  | .literal text :: rest => (templateText? rest).map (text ++ ·)
  | .identifier name :: rest => (templateText? rest).map (placeholder name ++ ·)
  | .other :: _ => none

/-- The identifiers among the parts of a literal, each once, in the order of their first use. -/
def identifiers (parts : List TemplatePart) : List String :=
  parts.foldl
    (fun names part ↦
      match part with
      | .identifier name => if names.contains name then names else names ++ [name]
      | _ => names)
    []

/-- Whether the written characters of a literal hold a letter. -/
def hasLetters (parts : List TemplatePart) : Bool :=
  parts.any fun part ↦
    match part with
    | .literal text => Text.containsAlphabetic text
    | _ => false

/-- A template literal counts if it holds a letter and interpolates identifiers only. It is
replaced as a whole, so blanks at its edges stay in the template. -/
def matchTemplate (parts : List TemplatePart) : Option Match :=
  match templateText? parts with
  | some template =>
    if hasLetters parts then
      some ⟨.text, template, (identifiers parts).map fun name ↦ ⟨name, name⟩⟩
    else none
  | none => none

def countArgument : String :=
  "count"

/-- A conditional counts as a plural if it tests for equality, compares a name, a property or a
number and chooses between two strings one of which holds a letter. -/
def matchConditional (test : Option EqualityTest) (consequent alternate : Option String) :
    Option Match :=
  match test, consequent, alternate with
  | some test, some one, some other =>
    let one := Text.trim one
    let other := Text.trim other
    if test.comparison != .other && test.shape != .other &&
        (Text.containsAlphabetic one || Text.containsAlphabetic other) then
      some
        { kind := .plural
          template := (Plural.oneOther countArgument one other).render
          arguments := [⟨countArgument, test.source⟩] }
    else none
  | _, _, _ => none

/-- What a candidate is found to be, given the names of the attributes that are excluded. -/
def evaluate (excluded : List String) : Candidate → Option Match
  | .text value => matchText value
  | .attribute name value => matchAttribute excluded name value
  | .template parts => matchTemplate parts
  | .conditional test consequent alternate => matchConditional test consequent alternate

end Rule

end Phrasebook
