import Phrasebook.Syntax.Grammar.Item

/-!
# Modules

A source text is read as a module. The productions of the grammar are tied together here:
`grammar depth` reads goals that nest no deeper than `depth`, and `Module.parse?` allows a depth
that no text of the given length can exceed, since between two goals that nest at the same place
of the source there is only a bounded number of others.

Whether angle brackets write markup or types depends on the extension of the file: only in a file
with the extension `ts` they write types.
-/

namespace Phrasebook.Syntax

/-- The production of a goal, given how the goals inside it are read. -/
def production (self : Grammar) (setting : Setting) : Goal → Reader Node
  | .expression => Expression.expression self setting
  | .assignment => Expression.assignment self setting
  | .unary => Expression.unary self setting
  | .operators level => Expression.operators self setting level
  | .operand => Expression.operand self setting true
  | .constructed => Expression.operand self setting false
  | .pattern => Pattern.pattern self setting
  | .type => Annotation.type self setting
  | .unaryType => Annotation.unaryType self setting
  | .statement => Statement.statement self setting
  | .substatement => Statement.substatement self setting
  | .element => Markup.element self setting
  | .item => Item.item self setting

/-- The grammar for goals that nest no deeper than the given depth. -/
def grammar : Nat → Grammar
  | 0, _, _ => failure
  | depth + 1, setting, goal => production (fun inner ↦ grammar depth inner) setting goal

/-- A source text with its syntax tree. Offsets in the tree count from the start of the text, or
from behind the byte order mark if the text begins with one. -/
structure Module where
  text : List Char
  items : List Node
deriving Inhabited

namespace Module

/-- The first line of a script that names its interpreter is skipped. -/
def skipInterpreter (place : Place) : Place :=
  match place.text with
  | '#' :: '!' :: _ => (place.span fun c ↦ !isLineEnd c).2
  | _ => place

/-- The items of a text without a byte order mark. -/
def readItems? (markup : Bool) (text : List Char) : Option (List Node) :=
  let setting : Setting := { room := text.length + 1, markup := markup }
  let read := grammar (32 * (text.length + 2))
  let items : Reader (List Node) := Reader.many
    (do
      if (← Reader.token) == .finish then return none
      return some (← read setting .item))
    setting.room
  let cursor : Cursor :=
    { lexeme := Lexeme.read (skipInterpreter ⟨0, text⟩)
      previousStop := 0
      flawed := false
      lenient := false }
  match items cursor with
  | some (nodes, after) => if after.flawed then none else some nodes
  | none => none

/-- A text without the byte order mark that it may begin with. -/
def withoutMark : List Char → List Char
  | '\uFEFF' :: rest => rest
  | text => text

/-- Reads a source text; nothing when it is no module. -/
def parse? (markup : Bool) (source : String) : Option Module :=
  let text := source.toList
  (readItems? markup (withoutMark text)).map fun items ↦ ⟨text, items⟩

end Module

end Phrasebook.Syntax
