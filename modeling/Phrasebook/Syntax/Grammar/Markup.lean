import Phrasebook.Syntax.Grammar.Annotation

/-!
# Markup

Elements and fragments with their attributes and children. The tokens of markup overlap with the
others: text between tags, quoted values without escape sequences, names with hyphens. So the
readers here choose how the place after a token is read.
-/

namespace Phrasebook.Syntax.Markup

open Reader Pattern Annotation

/-- Consumes a word that may hold hyphens. -/
def hyphenated : Reader String := do
  reread Lexeme.extendMarkupName
  anyWord

/-- The name of an element: a word, a word in a namespace, or words joined by dots. -/
def elementName (setting : Setting) : Reader String := do
  let first ← hyphenated
  if ← eatMark ":" then return first ++ ":" ++ (← hyphenated)
  let others ← many (do if ← eatMark "." then return some (← hyphenated) else return none)
    setting.room
  return ".".intercalate (first :: others)

/-- The node of a kind from an offset to the end of the token that comes next. -/
def nodeThrough (start : Nat) (kind : Kind) (parts : List Node) : Reader Node := do
  return .mk kind ⟨start, (← get).lexeme.stop.offset⟩ parts

/-- Fails unless the given mark comes next. It is not consumed. -/
def requireMark (text : String) : Reader Unit := do
  if ← isMark text then return else failure

def attributeValue (self : Grammar) (setting : Setting) : Reader Node := do
  let start ← position
  match ← token with
  | .string value _ => advance; nodeFrom start (.string value) []
  | .mark "\x7b" =>
    advance
    let inner ← self setting.bracketed .expression
    expectMark "\x7d"
    nodeFrom start .container [inner]
  | .mark "<" =>
    let node ← self setting.bracketed .element
    advance
    return node
  | _ => failure

/-- One attribute, or an object spread over the attributes. -/
def tagAttribute (self : Grammar) (setting : Setting) : Reader Node := do
  let start ← position
  if ← eatMark "\x7b" then
    expectMark "..."
    let inner ← self setting.bracketed .assignment
    expectMark "\x7d"
    nodeFrom start .spread [inner]
  else
    let first ← hyphenated
    let name ← if ← eatMark ":" then pure (first ++ ":" ++ (← hyphenated)) else pure first
    if ← isMark "=" then
      advanceWith Lexeme.readAttributeValue
      let value ← attributeValue self setting
      nodeFrom start (.attribute name) [value]
    else nodeFrom start (.attribute name) []

/-- A container among children, up to its closing brace, which is not consumed. -/
def childContainer (self : Grammar) (setting : Setting) : Reader Node := do
  let start ← position
  expectMark "\x7b"
  if ← isMark "\x7d" then nodeThrough start .container []
  else if ← eatMark "..." then
    let inner ← self setting.bracketed .expression
    requireMark "\x7d"
    nodeThrough start .other [inner]
  else
    let inner ← self setting.bracketed .expression
    requireMark "\x7d"
    nodeThrough start .container [inner]

def child (self : Grammar) (setting : Setting) : Reader (Option Node) := do
  match ← token with
  | .text value =>
    let node ← nodeThrough (← position) (.text value) []
    advanceWith Lexeme.readChild
    return some node
  | .mark "\x7b" =>
    let node ← childContainer self setting
    advanceWith Lexeme.readChild
    return some node
  | .mark "<" =>
    if isMarkOf "/" (← lookahead).kind then return none
    let node ← self setting.bracketed .element
    advanceWith Lexeme.readChild
    return some node
  | _ => failure

/-- The children after an opening tag, whose last bracket comes next, and the closing tag up to
its last bracket. -/
def childrenAndClose (self : Grammar) (setting : Setting) (name : String) :
    Reader (List Node) := do
  requireMark ">"
  advanceWith Lexeme.readChild
  let children ← many (child self setting) (setting.room + 1)
  expectMark "<"
  expectMark "/"
  if name != "" then
    let closing ← elementName setting
    if closing != name then failure
  requireMark ">"
  return children

/-- An element or a fragment up to its last bracket. -/
def element (self : Grammar) (setting : Setting) : Reader Node := do
  let start ← position
  expectMark "<"
  if ← isMark ">" then
    let children ← childrenAndClose self setting ""
    nodeThrough start .other children
  else
    let name ← elementName setting
    let types ← if ← atAngle then pure [← typeArguments self setting] else pure []
    let attributes ← many
      (do
        if (← isMark ">") || (← isMark "/") then return none
        return some (← tagAttribute self setting))
      (setting.room + 1)
    if ← eatMark "/" then
      requireMark ">"
      nodeThrough start .other (attributes ++ types)
    else
      let children ← childrenAndClose self setting name
      nodeThrough start .other (attributes ++ types ++ children)

end Phrasebook.Syntax.Markup
