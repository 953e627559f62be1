import Phrasebook.Syntax.Grammar.Expression

/-!
# Statements and declarations

Statements, the declarations of variables, and the declarations that only describe types.
-/

namespace Phrasebook.Syntax.Statement

open Reader Pattern Annotation

/-- A variable of a declaration, with what was written beside its name. -/
structure Declared where
  node : Node
  hasType : Bool
  hasValue : Bool
  /-- Whether a value has to be written outside of the heads of loops. -/
  needsValue : Bool

/-- One variable of a declaration. A constant and a pattern need a value unless the declaration
stands at the head of a loop or describes what exists elsewhere. -/
def declarator (self : Grammar) (setting : Setting) (constant inHead : Bool) :
    Reader Declared := do
  let target ← self setting .pattern
  if (← isMark "!") && !(← onNewLine) then advance
  let types ← annotation self setting
  let target ← withParts target types
  let value ← initializer self setting
  let needsValue := constant || !target.isName
  noteIf (value.any Node.hasStrayDefault)
  noteIf (value.isEmpty && needsValue && !inHead && !setting.ambient)
  return ⟨← nodeFrom target.start .declarator (target :: value), !types.isEmpty, !value.isEmpty,
    needsValue⟩

/-- The variables after the keyword of a declaration. -/
def declarators (self : Grammar) (setting : Setting) (constant inHead : Bool) :
    Reader (List Declared) := do
  let first ← declarator self setting constant inHead
  let others ← many
    (do
      if ← eatMark "," then return some (← declarator self setting constant inHead)
      else return none)
    (setting.room + 1)
  return first :: others

def variableList (self : Grammar) (setting : Setting) (start : Nat) (constant : Bool) :
    Reader Node := do
  advance
  let bound ← declarators self setting constant false
  expectEnd
  nodeFrom start .other (bound.map (·.node))

/-- Whether resources are declared here with `using`. -/
def atUsing : Reader Bool := do
  if ← isWord "using" then
    let next ← lookahead
    return isNameToken next.kind && !next.onNewLine
  else return false

/-- Whether resources are declared here whose release is awaited. -/
def atAwaitUsing : Reader Bool :=
  wouldRead do
    expectWord "await"
    if (← onNewLine) || !(← atUsing) then failure

def enumMember (self : Grammar) (setting : Setting) : Reader Node := do
  let start ← position
  let key ← propertyKey self setting
  noteIf (match key.kind with
    | .name _ => false
    | .string _ => false
    | _ => true)
  let value ← initializer self setting.bracketed
  nodeFrom start .other (key :: value)

def enumeration (self : Grammar) (setting : Setting) (start : Nat) : Reader Node := do
  expectWord "enum"
  let _ ← boundName
  expectMark "\x7b"
  let members ← commaUntil setting "\x7d" (enumMember self setting)
  nodeFrom start .other members

/-- The names of types that an interface cannot take. -/
def basicTypeNames : List String :=
  ["string", "null", "number", "object", "any", "unknown", "boolean", "bigint", "symbol", "void",
    "never", "intrinsic"]

def interfaceDeclaration (self : Grammar) (setting : Setting) (start : Nat) : Reader Node := do
  expectWord "interface"
  noteIf (basicTypeNames.contains (← usedName))
  let types ← typeParametersHere self setting
  let parents ← if ← eatWord "extends" then Function.heritage self setting else pure []
  let body ← members self setting
  nodeFrom start .other (types ++ parents ++ body)

def typeAlias (self : Grammar) (setting : Setting) (start : Nat) : Reader Node := do
  expectWord "type"
  let _ ← usedName
  let types ← typeParametersHere self setting
  expectMark "="
  let value ← self { setting with conditionalTypes := true } .type
  expectEnd
  nodeFrom start .other (types ++ [value])

def namespaceBody (self : Grammar) (setting : Setting) : Reader (List Node) := do
  expectMark "\x7b"
  manyUntil setting "\x7d" (self setting .item)

def namespaceDeclaration (self : Grammar) (setting : Setting) (start : Nat) : Reader Node := do
  advance
  match ← token with
  | .string _ _ =>
    advance
    if ← isMark "\x7b" then
      let items ← namespaceBody self setting
      nodeFrom start .other items
    else
      expectEnd
      nodeFrom start .other []
  | _ =>
    let _ ← boundName
    let _ ← many (do if ← eatMark "." then return some (← boundName) else return none)
      setting.room
    let items ← namespaceBody self setting
    nodeFrom start .other items

def classDeclaration (self : Grammar) (setting : Setting) (start : Nat) : Reader Node := do
  expectWord "class"
  let parts ← Function.classRest self setting true
  nodeFrom start .other parts

/-- The declarations that begin with a word which is a name elsewhere. -/
inductive WordDeclaration where
  | type
  | interface
  | namespace
  | abstractClass
  | ambient
  | globals

def ambientWords : List String :=
  ["function", "class", "const", "let", "var", "enum", "namespace", "module", "global",
    "interface", "type", "abstract", "async"]

/-- The declaration that the next word begins, if it does not stand for itself. -/
def wordDeclaration? : Reader (Option WordDeclaration) := do
  match ← token with
  | .name text false =>
    let next ← lookahead
    if next.onNewLine then return none
    match text, next.kind with
    | "type", .name name _ => return if isUsableName name then some .type else none
    | "interface", .name name _ => return if isUsableName name then some .interface else none
    | "namespace", .name name _ => return if isUsableName name then some .namespace else none
    | "module", .name name _ => return if isUsableName name then some .namespace else none
    | "module", .string _ _ => return some .namespace
    | "abstract", .name "class" false => return some .abstractClass
    | "global", .mark "\x7b" => return some .globals
    | "declare", .name name false =>
      return if ambientWords.contains name then some .ambient else none
    | _, _ => return none
  | _ => return none

/-- A declaration that begins with a word which is a name elsewhere. -/
def wordDeclaration (self : Grammar) (setting : Setting) (start : Nat) :
    WordDeclaration → Reader Node
  | .type => typeAlias self setting start
  | .interface => interfaceDeclaration self setting start
  | .namespace => namespaceDeclaration self setting start
  | .abstractClass => do
    advance
    classDeclaration self setting start
  | .ambient => do
    advance
    let node ← self { setting with ambient := true } .statement
    nodeFrom start .other [node]
  | .globals => do
    advance
    let items ← namespaceBody self setting
    nodeFrom start .other items

def loopSetting (setting : Setting) : Setting :=
  { setting with breakable := true, continuable := true }

/-- The rest of a loop over the elements or the keys of a value, after what is bound to each. -/
def eachRest (self : Grammar) (setting : Setting) (start : Nat) (bound : Node)
    (isAwait : Bool) : Reader Node := do
  let value ←
    if ← eatWord "of" then self setting.bracketed .assignment
    else if isAwait then failure
    else do
      expectWord "in"
      self setting.bracketed .expression
  expectMark ")"
  let body ← self (loopSetting setting) .substatement
  nodeFrom start .other [bound, value, body]

/-- An expression before a closing mark, unless the mark comes at once. -/
def expressionBefore (self : Grammar) (setting : Setting) (close : String) :
    Reader (List Node) := do
  if ← eatMark close then return []
  let node ← self setting.bracketed .expression
  expectMark close
  return [node]

/-- The rest of a counting loop, after its initial part. -/
def countRest (self : Grammar) (setting : Setting) (start : Nat) (initial : List Node) :
    Reader Node := do
  expectMark ";"
  let test ← expressionBefore self setting ";"
  let update ← expressionBefore self setting ")"
  let body ← self (loopSetting setting) .substatement
  nodeFrom start .other (initial ++ test ++ update ++ [body])

/-- Whether the head of a loop goes on with the value that is looped over. -/
def atEach : Reader Bool := do
  return (← isWord "of") || (← isWord "in")

def forLoop (self : Grammar) (setting : Setting) (start : Nat) : Reader Node := do
  expectWord "for"
  let isAwait ← eatWord "await"
  noteIf (isAwait && setting.inFunction && !setting.inAsync)
  expectMark "("
  let inner := { setting.bracketed with allowIn := false }
  if ← isMark ";" then
    if isAwait then failure
    countRest self setting start []
  else
    let declares ← pure ((← isWord "var") || (← isWord "let") || (← isWord "const") ||
      ((← atUsing) && !isWordOf "of" (← lookahead).kind))
    if declares then
      let from_ ← position
      let constant ← isWord "const"
      advance
      let bound ← declarators self inner constant true
      let node ← nodeFrom from_ .other (bound.map (·.node))
      if ← atEach then
        if bound.length != 1 then failure
        noteIf (bound.any fun declared ↦ declared.hasType || declared.hasValue)
        eachRest self setting start node isAwait
      else
        noteIf (bound.any fun declared ↦ declared.needsValue && !declared.hasValue)
        if isAwait then failure
        countRest self setting start [node]
    else
      let node ← self inner .expression
      if ← atEach then
        if !node.isPattern then failure
        noteIf ((← isWord "of") && !isAwait && node.isNamed "async")
        eachRest self setting start node isAwait
      else
        if isAwait then failure
        noteIf node.hasStrayDefault
        countRest self setting start [node]

def condition (self : Grammar) (setting : Setting) : Reader Node := do
  expectMark "("
  let node ← self setting.bracketed .expression
  expectMark ")"
  return node

/-! ## Other statements -/

def switchCase (self : Grammar) (setting : Setting) : Reader (Node × Bool) := do
  let start ← position
  let isDefault ← eatWord "default"
  let test ←
    if isDefault then pure []
    else do
      expectWord "case"
      pure [← self setting.bracketed .expression]
  expectMark ":"
  let statements ← many
    (do
      if (← isWord "case") || (← isWord "default") || (← isMark "\x7d") then return none
      return some (← self setting .statement))
    (setting.room + 1)
  return (← nodeFrom start .other (test ++ statements), isDefault)

def switchStatement (self : Grammar) (setting : Setting) (start : Nat) : Reader Node := do
  expectWord "switch"
  let value ← condition self setting
  expectMark "\x7b"
  let cases ← manyUntil setting "\x7d" (switchCase self { setting with breakable := true })
  noteIf ((cases.filter (·.2)).length > 1)
  nodeFrom start .other (value :: cases.map (·.1))

def handler (self : Grammar) (setting : Setting) : Reader Node := do
  let start ← position
  expectWord "catch"
  let bound ←
    if ← eatMark "(" then do
      let target ← self setting.bracketed .pattern
      let target ← withParts target (← annotation self setting)
      expectMark ")"
      pure [target]
    else pure []
  let node ← Function.block self setting
  nodeFrom start .other (bound ++ [node])

def tryStatement (self : Grammar) (setting : Setting) (start : Nat) : Reader Node := do
  expectWord "try"
  let body ← Function.block self setting
  let caught ← if ← isWord "catch" then pure [← handler self setting] else pure []
  let last ← if ← eatWord "finally" then pure [← Function.block self setting] else pure []
  if caught.isEmpty && last.isEmpty then failure
  nodeFrom start .other (body :: caught ++ last)

/-- The label of a statement that leaves a loop or goes on with its next round. -/
def labelHere? : Reader (Option String) := do
  if isNameToken (← token) && !(← onNewLine) then return some (← usedName) else return none

/-- A statement that leaves a loop, or what a label names. -/
def breakStatement (setting : Setting) (start : Nat) : Reader Node := do
  advance
  match ← labelHere? with
  | some label => noteIf !(setting.labels.contains label)
  | none => noteIf !setting.breakable
  expectEnd
  nodeFrom start .other []

/-- A statement that goes on with the next round of a loop. -/
def continueStatement (setting : Setting) (start : Nat) : Reader Node := do
  advance
  noteIf !setting.continuable
  match ← labelHere? with
  | some label => noteIf !(setting.labels.contains label)
  | none => pure ()
  expectEnd
  nodeFrom start .other []

def atEnd : Reader Bool := do
  return (← isMark ";") || (← isMark "\x7d") || (← onNewLine) || (← token) == .finish

def expressionStatement (self : Grammar) (setting : Setting) (start : Nat) : Reader Node := do
  let node ← self setting.bracketed .expression
  noteIf node.hasStrayDefault
  expectEnd
  nodeFrom start .statement [node]

/-- A statement that begins with a word which is a name elsewhere, or with an expression. -/
def openStatement (self : Grammar) (setting : Setting) (start : Nat) : Reader Node := do
  match ← wordDeclaration? with
  | some declared => wordDeclaration self setting start declared
  | none =>
    let next ← lookahead
    if ← atUsing then
      if isWordOf "of" next.kind || isWordOf "in" next.kind then
        expressionStatement self setting start
      else variableList self setting start true
    else if ← atAwaitUsing then
      noteIf (setting.inFunction && !setting.inAsync)
      advance
      variableList self setting start true
    else if (← isWord "async") && isWordOf "function" next.kind && !next.onNewLine then
      advance
      Function.declaration self setting start true
    else if isNameToken (← token) && isMarkOf ":" next.kind then
      let label ← usedName
      advance
      noteIf (setting.labels.contains label)
      let inner := { setting with breakable := true, labels := label :: setting.labels }
      let body ← self inner .substatement
      nodeFrom start .other [body]
    else expressionStatement self setting start

def keywordStatement (self : Grammar) (setting : Setting) (start : Nat) (word : String) :
    Reader Node := do
  match word with
  | "var" | "let" => variableList self setting start false
  | "const" =>
    if isWordOf "enum" (← lookahead).kind then
      advance
      enumeration self setting start
    else variableList self setting start true
  | "function" => Function.declaration self setting start false
  | "class" => classDeclaration self setting start
  | "enum" => enumeration self setting start
  | "if" =>
    advance
    let test ← condition self setting
    let yes ← self setting .substatement
    let no ← if ← eatWord "else" then pure [← self setting .substatement] else pure []
    nodeFrom start .other (test :: yes :: no)
  | "for" => forLoop self setting start
  | "while" =>
    advance
    let test ← condition self setting
    let body ← self (loopSetting setting) .substatement
    nodeFrom start .other [test, body]
  | "do" =>
    advance
    let body ← self (loopSetting setting) .substatement
    expectWord "while"
    let test ← condition self setting
    let _ ← eatMark ";"
    nodeFrom start .other [test, body]
  | "break" => breakStatement setting start
  | "continue" => continueStatement setting start
  | "return" =>
    noteIf !setting.inFunction
    advance
    let value ← if ← atEnd then pure [] else pure [← self setting.bracketed .expression]
    expectEnd
    nodeFrom start .other value
  | "throw" =>
    advance
    if ← onNewLine then failure
    let value ← self setting.bracketed .expression
    expectEnd
    nodeFrom start .other [value]
  | "try" => tryStatement self setting start
  | "switch" => switchStatement self setting start
  | "debugger" =>
    advance
    expectEnd
    nodeFrom start .other []
  | _ => expressionStatement self setting start

/-- The keywords that begin a statement of their own. -/
def statementWords : List String :=
  ["var", "let", "const", "function", "class", "enum", "if", "for", "while", "do", "break",
    "continue", "return", "throw", "try", "switch", "debugger"]

def statement (self : Grammar) (setting : Setting) : Reader Node := do
  let start ← position
  match ← token with
  | .mark "\x7b" => Function.block self setting
  | .mark ";" => advance; nodeFrom start .other []
  | .name word false =>
    if statementWords.contains word then keywordStatement self setting start word
    else openStatement self setting start
  | _ => openStatement self setting start

def substatement (self : Grammar) (setting : Setting) : Reader Node := do
  for word in ["let", "const", "function", "class"] do
    noteIf (← isWord word)
  statement self setting

end Phrasebook.Syntax.Statement
