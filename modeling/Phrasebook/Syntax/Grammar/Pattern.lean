import Phrasebook.Syntax.Reader

/-!
# Patterns and parameters

What binds names: patterns that take arrays and objects apart, and the parameter lists of
functions. A pattern may carry a type; its node then has the type as its last part.
-/

namespace Phrasebook.Syntax.Pattern

open Reader

/-- The chunks and interpolations of a template whose opening quote comes next. -/
def templateParts (hole : Reader Node) : Nat → Place →
    Reader (List TemplateChunk × List Node)
  | 0, _ => failure
  | room + 1, place =>
    match readTemplateChunk? place with
    | none => failure
    | some chunk => do
      resumeAt chunk.stop
      if chunk.opensInterpolation then
        let node ← hole
        if ← isMark "\x7d" then
          let (chunks, nodes) ← templateParts hole room (← get).lexeme.stop
          return (chunk :: chunks, node :: nodes)
        else failure
      else return ([chunk], [])

/-- The key of a property: a word, a string, a number or an expression in brackets. -/
def propertyKey (self : Grammar) (setting : Setting) : Reader Node := do
  let start ← position
  match ← token with
  | .name text _ => advance; nodeFrom start (.name text) []
  | .string value _ => advance; nodeFrom start (.string value) []
  | .number _ => advance; nodeFrom start .number []
  | .bigInteger => advance; nodeFrom start .number []
  | .privateName => advance; nodeFrom start .other []
  | .mark "[" =>
    advance
    let inner ← self setting.bracketed .assignment
    expectMark "]"
    nodeFrom start .other [inner]
  | _ => failure

/-- The type after a colon, if one is written. -/
def annotation (self : Grammar) (setting : Setting) : Reader (List Node) := do
  if ← eatMark ":" then return [← self { setting with conditionalTypes := true } .type]
  else return []

/-- A node with more parts, up to the last token read. -/
def withParts (node : Node) (parts : List Node) : Reader Node := do
  if parts.isEmpty then return node
  return .mk node.kind ⟨node.start, ← previousStop⟩ (node.parts ++ parts)

/-- The default value after an equals sign, if one is written. -/
def initializer (self : Grammar) (setting : Setting) : Reader (List Node) := do
  if ← eatMark "=" then return [← self setting .assignment] else return []

def element (self : Grammar) (setting : Setting) : Reader Node := do
  let target ← self setting .pattern
  match ← initializer self setting.bracketed with
  | [] => return target
  | values => nodeFrom target.start .other (target :: values)

/-- The pattern after the dots that collect what is left. -/
def rest (self : Grammar) (setting : Setting) : Reader Node := do
  let start ← position
  expectMark "..."
  let target ← self setting .pattern
  nodeFrom start .other [target]

/-- The elements of an array pattern after its opening bracket; a place may be left empty. -/
def arrayElements (self : Grammar) (setting : Setting) : Reader (List Node) := do
  let items ← manyUntil setting "]" do
    if ← eatMark "," then return none
    let node ← if ← isMark "..." then rest self setting else element self setting
    if ← isMark "]" then return some node
    expectMark ","
    return some node
  return items.filterMap id

def property (self : Grammar) (setting : Setting) : Reader Node := do
  if ← isMark "..." then return ← rest self setting
  let start ← position
  let before ← token
  let key ← propertyKey self setting
  if ← eatMark ":" then
    let value ← element self setting
    nodeFrom start .property [key, value]
  else
    match before with
    | .name text _ =>
      if isUsableName text then
        noteIf (Node.isRestrictedName text)
        nodeFrom start .other (← initializer self setting.bracketed)
      else failure
    | _ => failure

def pattern (self : Grammar) (setting : Setting) : Reader Node := do
  let start ← position
  if ← eatMark "[" then
    let elements ← arrayElements self setting
    nodeFrom start .other elements
  else if ← eatMark "\x7b" then
    let properties ← commaUntil setting "\x7d" (property self setting)
    nodeFrom start .other properties
  else boundNameNode

/-- The words that may stand before a parameter of a constructor. -/
def parameterModifiers : List String :=
  ["public", "private", "protected", "readonly", "override"]

/-- Consumes the modifiers of a parameter, and says whether there are any. -/
def eatModifiers (setting : Setting) : Reader Bool := do
  let eaten ← many
    (do
      match ← token with
      | .name text false =>
        if parameterModifiers.contains text then
          match (← lookahead).kind with
          | .name _ _ | .mark "\x7b" | .mark "[" => advance; return some ()
          | _ => return none
        else return none
      | _ => return none)
    setting.room
  return !eaten.isEmpty

def parameter (self : Grammar) (setting : Setting) (ofConstructor : Bool) : Reader Node := do
  let start ← position
  if ← isMark "..." then
    let node ← rest self setting
    let node ← withParts node (← annotation self setting)
    if ← isMark "=" then failure
    return node
  let modified ← eatModifiers setting
  noteIf (modified && !ofConstructor)
  let target ←
    if ← isWord "this" then do advance; nodeFrom start (.name "this") []
    else self setting .pattern
  let optional ← eatMark "?"
  let target ← withParts target (← annotation self setting)
  match ← initializer self setting.bracketed with
  | [] => return target
  | values =>
    noteIf optional
    nodeFrom start .other (target :: values)

def parameters (self : Grammar) (setting : Setting) (ofConstructor : Bool := false) :
    Reader (List Node) := do
  expectMark "("
  commaUntil setting ")" do
    let collects ← isMark "..."
    let node ← parameter self setting.bracketed ofConstructor
    if collects then
      if ← isMark ")" then return node else failure
    return node

end Phrasebook.Syntax.Pattern
