import Phrasebook.Syntax.Grammar.Statement

/-!
# Items of a module

What stands at the top of a module besides statements: imports and exports.
-/

namespace Phrasebook.Syntax.Item

open Reader Pattern Annotation Statement

/-- The name under which a module exports something: a word or a string, with whether it could be
the name of a variable. -/
def exchangedName : Reader (String × Bool) := do
  match ← token with
  | .name text _ => advance; return (text, isUsableName text)
  | .string (some text) _ => advance; return (text, false)
  | .string none _ => advance; return ("\uFFFD", false)
  | _ => failure

def moduleName : Reader String := do
  return (← stringLiteral).getD ""

def importAttributes (self : Grammar) (setting : Setting) : Reader Unit := do
  if ((← isWord "with") || (← isWord "assert")) && !(← onNewLine) then
    advance
    expectMark "\x7b"
    let _ ← commaUntil setting "\x7d" do
      let _ ← propertyKey self setting
      expectMark ":"
      stringLiteral

def importBinding (typeOnlyImport : Bool) : Reader Node := do
  let start ← position
  match ← token with
  | .string _ _ =>
    let (imported, _) ← exchangedName
    expectWord "as"
    let bound ← boundName
    nodeFrom start (.importNamed imported bound false) []
  | _ =>
    let first ← anyWord
    if first == "type" && isAnyWord (← token) then
      typeBinding start
    else
      finish start first false
where
  /-- The rest of a binding after the name that is imported. -/
  finish (start : Nat) (imported : String) (typeOnly : Bool) : Reader Node := do
    if ← eatWord "as" then
      let bound ← boundName
      nodeFrom start (.importNamed imported bound typeOnly) []
    else if isUsableName imported then
      noteIf (Node.isRestrictedName imported)
      nodeFrom start (.importNamed imported imported typeOnly) []
    else failure
  /-- The rest of a binding after the word `type`, which may be a mark or a name. -/
  typeBinding (start : Nat) : Reader Node := do
    let second ← anyWord
    if second == "as" then
      if !isAnyWord (← token) then
        noteIf typeOnlyImport
        nodeFrom start (.importNamed "as" "as" true) []
      else
        let third ← anyWord
        if third == "as" then
          if isAnyWord (← token) then
            let bound ← boundName
            noteIf typeOnlyImport
            nodeFrom start (.importNamed "as" bound true) []
          else nodeFrom start (.importNamed "type" "as" false) []
        else nodeFrom start (.importNamed "type" third false) []
    else
      noteIf typeOnlyImport
      finish start second true

/-- The bindings of an import that are not its default: a namespace or a list in braces. -/
def otherBindings (setting : Setting) (typeOnly : Bool) : Reader (List Node) := do
  let start ← position
  if ← eatMark "*" then
    expectWord "as"
    let bound ← boundName
    return [← nodeFrom start (.importNamespace bound) []]
  else
    expectMark "\x7b"
    commaUntil setting "\x7d" (importBinding typeOnly)

/-- The module and the end of an import with the given bindings. -/
def importFrom (self : Grammar) (setting : Setting) (start : Nat) (typeOnly : Bool)
    (bindings : List Node) : Reader Node := do
  expectWord "from"
  let source ← moduleName
  importAttributes self setting
  expectEnd
  nodeFrom start (.importing source typeOnly) bindings

/-- What a name for a module or a member of a namespace stands for. -/
def aliasTarget (setting : Setting) : Reader Unit := do
  if (← isWord "require") && isMarkOf "(" (← lookahead).kind then
    advance
    advance
    let _ ← stringLiteral
    expectMark ")"
  else
    let _ ← usedName
    let _ ← many (do if ← eatMark "." then return some (← anyWord) else return none) setting.room
  expectEnd

/-- Whether the word `type` marks an import as one of types and is not a name that it binds. -/
def marksTypes : Reader Bool := do
  if ← isWord "type" then
    let next ← lookahead
    match next.kind with
    | .mark "\x7b" | .mark "*" => return true
    | .name "from" false =>
      let after := (Lexeme.read next.stop).kind
      return isWordOf "from" after || isMarkOf "=" after
    | .name text _ => return isUsableName text
    | _ => return false
  else return false

def bindingImport (self : Grammar) (setting : Setting) (start : Nat) : Reader Node := do
  let typeOnly ← marksTypes
  if typeOnly then advance
  if isAnyWord (← token) then
    let place ← position
    let bound ← boundName
    if ← eatMark "=" then
      aliasTarget setting
      nodeFrom start .other []
    else
      let first ← nodeFrom place (.importDefault bound) []
      if ← eatMark "," then
        let others ← otherBindings setting typeOnly
        noteIf typeOnly
        importFrom self setting start typeOnly (first :: others)
      else importFrom self setting start typeOnly [first]
  else
    let bindings ← otherBindings setting typeOnly
    importFrom self setting start typeOnly bindings

def importItem (self : Grammar) (setting : Setting) (start : Nat) : Reader Node := do
  expectWord "import"
  match ← token with
  | .string _ _ =>
    let source ← moduleName
    importAttributes self setting
    expectEnd
    nodeFrom start (.importing source false) []
  | _ => bindingImport self setting start

/-- One name between the braces of an export, with whether it could be a variable. -/
def exportBinding : Reader Bool := do
  let (first, usable) ← exchangedName
  if first == "type" && isAnyWord (← token) && !(← isWord "as") then
    let (_, typeUsable) ← exchangedName
    if ← eatWord "as" then
      let _ ← exchangedName
    return typeUsable
  if first == "type" && (← isWord "as") && isAnyWord (← lookahead).kind then
    let after := Lexeme.read (← lookahead).stop
    if isWordOf "as" (← lookahead).kind && isAnyWord after.kind then
      advance
      advance
      let _ ← exchangedName
      return true
  if ← eatWord "as" then
    let _ ← exchangedName
  return usable

/-- The module after an export and the end of the export. -/
def exportFrom (self : Grammar) (setting : Setting) (start : Nat) : Reader Node := do
  expectWord "from"
  let _ ← stringLiteral
  importAttributes self setting
  expectEnd
  nodeFrom start .other []

def exportAll (self : Grammar) (setting : Setting) (start : Nat) : Reader Node := do
  expectMark "*"
  if ← eatWord "as" then
    let _ ← exchangedName
  exportFrom self setting start

def exportNames (self : Grammar) (setting : Setting) (start : Nat) : Reader Node := do
  expectMark "\x7b"
  let usable ← commaUntil setting "\x7d" exportBinding
  if ← isWord "from" then exportFrom self setting start
  else if usable.all id then
    expectEnd
    nodeFrom start .other []
  else failure

/-- The declaration or the value that a module exports by default. -/
def exportDefault (self : Grammar) (setting : Setting) (start : Nat) : Reader Node := do
  expectWord "default"
  let place ← position
  let next ← lookahead
  if (← isWord "async") && isWordOf "function" next.kind && !next.onNewLine then
    advance
    let node ← defaultFunction place true
    nodeFrom start .exportDefault [node]
  else if ← isWord "function" then
    let node ← defaultFunction place false
    nodeFrom start .exportDefault [node]
  else if (← isWord "abstract") && isWordOf "class" next.kind && !next.onNewLine then
    advance
    let node ← defaultClass place
    nodeFrom start .exportDefault [node]
  else if ← isWord "class" then
    let node ← defaultClass place
    nodeFrom start .exportDefault [node]
  else if (← isWord "interface") && isNameToken next.kind && !next.onNewLine then
    let node ← interfaceDeclaration self setting place
    nodeFrom start .exportDefault [node]
  else
    let node ← self setting.bracketed .assignment
    expectEnd
    nodeFrom start .exportDefault [node]
where
  /-- A function that may lack a name. -/
  defaultFunction (place : Nat) (isAsync : Bool) : Reader Node := do
    expectWord "function"
    let isGenerator ← eatMark "*"
    let name ← if isNameToken (← token) then pure [← boundNameNode] else pure []
    let parts ← Function.rest self setting isAsync isGenerator true false
    nodeFrom place .function (name ++ parts)
  /-- A class that may lack a name. -/
  defaultClass (place : Nat) : Reader Node := do
    expectWord "class"
    let parts ← Function.classRest self setting false
    nodeFrom place .other parts

/-- Whether a declaration that can be exported begins here. -/
def atDeclaration : Reader Bool := do
  match ← token with
  | .name word false =>
    if ["var", "let", "const", "function", "class", "enum"].contains word then return true
    if word == "async" then
      let next ← lookahead
      return isWordOf "function" next.kind && !next.onNewLine
    return (← wordDeclaration?).isSome
  | _ => return false

def exportItem (self : Grammar) (setting : Setting) (start : Nat) : Reader Node := do
  expectWord "export"
  let next ← lookahead
  if ← isWord "default" then exportDefault self setting start
  else if ← isMark "*" then exportAll self setting start
  else if ← isMark "\x7b" then exportNames self setting start
  else if (← isWord "type") && isMarkOf "\x7b" next.kind then
    advance
    exportNames self setting start
  else if (← isWord "type") && isMarkOf "*" next.kind then
    advance
    exportAll self setting start
  else if ← eatMark "=" then
    let node ← self setting.bracketed .expression
    expectEnd
    nodeFrom start .other [node]
  else if (← isWord "as") && isWordOf "namespace" next.kind then
    advance
    advance
    let _ ← boundName
    expectEnd
    nodeFrom start .other []
  else if ← eatWord "import" then
    if (← isWord "type") && isAnyWord next.kind && !isMarkOf "=" (← lookahead).kind then advance
    let _ ← boundName
    expectMark "="
    aliasTarget setting
    nodeFrom start .other []
  else if ← atDeclaration then
    let node ← self setting .statement
    nodeFrom start .other [node]
  else failure

/-- An item at the top of a module or of a namespace. -/
def item (self : Grammar) (setting : Setting) : Reader Node := do
  let start ← position
  if ← isWord "import" then
    match (← lookahead).kind with
    | .mark "(" | .mark "." => self setting .statement
    | _ => importItem self setting start
  else if ← isWord "export" then exportItem self setting start
  else self setting .statement

end Phrasebook.Syntax.Item
