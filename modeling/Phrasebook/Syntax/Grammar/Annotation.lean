import Phrasebook.Syntax.Grammar.Pattern

/-!
# Types

The types that are written beside names and values. A type node is `other` throughout; its parts
are the types inside it and the few expressions that a type may hold, such as the key of a
property in brackets.
-/

namespace Phrasebook.Syntax.Annotation

open Reader Pattern

/-- The setting inside brackets of a type, where a conditional type may stand again. -/
def inBrackets (setting : Setting) : Setting :=
  { setting with conditionalTypes := true }

/-- Consumes the bracket that opens a list of types, cut from a longer operator if needed. -/
def openAngle : Reader Unit := do
  match ← token with
  | .mark "<" => advance
  | .mark "<<" => reread Lexeme.cutToFirst; advance
  | _ => failure

/-- Whether a list of types may begin here. -/
def atAngle : Reader Bool := do
  return (← isMark "<") || (← isMark "<<")

def typeArguments (self : Grammar) (setting : Setting) : Reader Node := do
  let start ← position
  openAngle
  let types ← commaUntil setting ">" (self (inBrackets setting) .type)
  noteIf types.isEmpty
  nodeFrom start .typeArguments types

def typeArgumentsHere (self : Grammar) (setting : Setting) : Reader (List Node) := do
  if (← atAngle) && !(← onNewLine) then return [← typeArguments self setting] else return []

def typeParameter (self : Grammar) (setting : Setting) : Reader Node := do
  let start ← position
  let _ ← many
    (do
      match ← token with
      | .name "const" false => advance; return some ()
      | .name "in" false => advance; return some ()
      | .name "out" false =>
        match (← lookahead).kind with
        | .name "extends" false => return none
        | .name _ _ => advance; return some ()
        | _ => return none
      | _ => return none)
    setting.room
  let _ ← usedName
  let bound ← if ← eatWord "extends" then pure [← self (inBrackets setting) .type] else pure []
  let standard ← if ← eatMark "=" then pure [← self (inBrackets setting) .type] else pure []
  nodeFrom start .other (bound ++ standard)

def typeParameters (self : Grammar) (setting : Setting) : Reader Node := do
  let start ← position
  openAngle
  let parameters ← commaUntil setting ">" (typeParameter self setting)
  noteIf parameters.isEmpty
  nodeFrom start .other parameters

def typeParametersHere (self : Grammar) (setting : Setting) : Reader (List Node) := do
  if ← atAngle then return [← typeParameters self setting] else return []

/-- A name with further names after dots, and its type arguments. -/
def reference (self : Grammar) (setting : Setting) : Reader Node := do
  let start ← position
  let _ ← anyWord
  let _ ← many (do if ← eatMark "." then return some (← anyWord) else return none) setting.room
  nodeFrom start .other (← typeArgumentsHere self setting)

/-- What a function returns: a type, or what it says about one of its parameters. -/
def result (self : Grammar) (setting : Setting) : Reader Node := do
  let start ← position
  let setting := inBrackets setting
  let next ← lookahead
  if (← isWord "asserts") && isAnyWord next.kind && !next.onNewLine &&
      !isWordOf "is" next.kind then
    advance
    let _ ← anyWord
    if (← isWord "is") && !(← onNewLine) then
      advance
      nodeFrom start .other [← self setting .type]
    else nodeFrom start .other []
  else if isAnyWord (← token) && isWordOf "is" next.kind && !next.onNewLine then
    advance
    advance
    nodeFrom start .other [← self setting .type]
  else self setting .type

def resultHere (self : Grammar) (setting : Setting) : Reader (List Node) := do
  if ← eatMark ":" then return [← result self setting] else return []

/-- Type parameters, parameters and result of a signature, in the order of a visit. -/
def signature (self : Grammar) (setting : Setting) : Reader (List Node) := do
  let types ← typeParametersHere self setting
  let bound ← parameters self setting
  let returned ← resultHere self setting
  return bound ++ types ++ returned

/-- A function type after what may stand before it. -/
def functionType (self : Grammar) (setting : Setting) (start : Nat) : Reader Node := do
  let types ← typeParametersHere self setting
  let bound ← parameters self setting
  expectMark "=>"
  nodeFrom start .other (bound ++ types ++ [← result self setting])

/-- Consumes what ends a member of an object type. -/
def memberEnd : Reader Unit := do
  if ← eatMark "," then return
  expectEnd

def atIndexSignature : Reader Bool :=
  wouldRead do
    expectMark "["
    let _ ← anyWord
    expectMark ":"

/-- An index signature such as `[key: string]: number`. -/
def indexSignature (self : Grammar) (setting : Setting) (start : Nat) : Reader Node := do
  expectMark "["
  let _ ← anyWord
  expectMark ":"
  let key ← self (inBrackets setting) .type
  expectMark "]"
  let value ← annotation self setting
  nodeFrom start .other (key :: value)

/-- Whether a word is a modifier here and not itself the key of a member. -/
def atModifier (word : String) : Reader Bool := do
  if ← isWord word then
    match (← lookahead).kind with
    | .name _ _ | .string _ _ | .number _ | .mark "[" => return true
    | _ => return false
  else return false

/-- A property or a method after its modifiers. -/
def namedMember (self : Grammar) (setting : Setting) (start : Nat) : Reader Node := do
  let key ← propertyKey self setting
  let _ ← eatMark "?"
  if (← isMark "(") || (← atAngle) then
    let parts ← signature self setting
    nodeFrom start .other (key :: parts)
  else
    let value ← annotation self setting
    nodeFrom start .other (key :: value)

/-- One member of an object type, with what ends it. -/
def member (self : Grammar) (setting : Setting) : Reader Node := do
  let setting := inBrackets setting
  let start ← position
  let node ←
    if (← isMark "(") || (← atAngle) then do
      nodeFrom start .other (← signature self setting)
    else if (← isWord "new") &&
        (isMarkOf "(" (← lookahead).kind || isMarkOf "<" (← lookahead).kind) then do
      advance
      nodeFrom start .other (← signature self setting)
    else do
      if ← atModifier "readonly" then advance
      if ← atIndexSignature then indexSignature self setting start
      else
        if (← atModifier "get") || (← atModifier "set") then advance
        namedMember self setting start
  memberEnd
  return node

/-- The members of an object type, with their braces. -/
def members (self : Grammar) (setting : Setting) : Reader (List Node) := do
  expectMark "\x7b"
  manyUntil setting "\x7d" (member self setting)

/-- Consumes a sign before a modifier of a mapped type and says whether there is one. -/
def eatSign : Reader Bool := do
  if ← eatMark "+" then return true else eatMark "-"

/-- Whether a mapped type begins after the brace that comes next. -/
def atMapped : Reader Bool :=
  wouldRead do
    expectMark "\x7b"
    if ← eatSign then expectWord "readonly"
    else
      let _ ← eatWord "readonly"
    expectMark "["
    let _ ← anyWord
    expectWord "in"

/-- A mapped type such as `{ [K in T]?: U }`. -/
def mapped (self : Grammar) (setting : Setting) : Reader Node := do
  let setting := inBrackets setting
  let start ← position
  expectMark "\x7b"
  let _ ← eatSign
  let _ ← eatWord "readonly"
  expectMark "["
  let _ ← anyWord
  expectWord "in"
  let keys ← self setting .type
  let renamed ← if ← eatWord "as" then pure [← self setting .type] else pure []
  expectMark "]"
  if ← eatSign then expectMark "?"
  else
    let _ ← eatMark "?"
  let value ← annotation self setting
  if !(← eatMark ",") then
    let _ ← eatMark ";"
  expectMark "\x7d"
  nodeFrom start .other (keys :: renamed ++ value)

def tupleElement (self : Grammar) (setting : Setting) : Reader Node := do
  let start ← position
  let _ ← eatMark "..."
  let named ← wouldRead do
    let _ ← anyWord
    let _ ← eatMark "?"
    expectMark ":"
  if named then
    let _ ← anyWord
    let _ ← eatMark "?"
    expectMark ":"
    nodeFrom start .other [← self setting .type]
  else
    let node ← self setting .type
    let _ ← eatMark "?"
    nodeFrom start .other [node]

/-! ## Primary types -/

def importType (self : Grammar) (setting : Setting) : Reader Node := do
  let start ← position
  expectWord "import"
  expectMark "("
  let _ ← stringLiteral
  let options ← if ← eatMark "," then
      if ← isMark ")" then pure [] else pure [← self setting.bracketed .assignment]
    else pure []
  let _ ← eatMark ","
  expectMark ")"
  let _ ← many (do if ← eatMark "." then return some (← anyWord) else return none) setting.room
  nodeFrom start .other (options ++ (← typeArgumentsHere self setting))

def primary (self : Grammar) (setting : Setting) : Reader Node := do
  let start ← position
  match ← token with
  | .string _ _ | .number _ | .bigInteger => advance; nodeFrom start .other []
  | .mark "-" =>
    advance
    match ← token with
    | .number _ | .bigInteger => advance; nodeFrom start .other []
    | _ => failure
  | .mark "\x60" =>
    let (_, types) ←
      templateParts (self (inBrackets setting) .type) setting.room (← get).lexeme.stop
    nodeFrom start .other types
  | .mark "\x7b" =>
    if ← atMapped then mapped self setting
    else
      let parts ← members self setting
      nodeFrom start .other parts
  | .mark "[" =>
    advance
    let elements ← commaUntil setting "]" (tupleElement self (inBrackets setting))
    nodeFrom start .other elements
  | .mark "(" =>
    advance
    let inner ← self (inBrackets setting) .type
    expectMark ")"
    nodeFrom start .other [inner]
  | .name "typeof" false =>
    advance
    if ← isWord "import" then importType self setting else reference self setting
  | .name "import" false => importType self setting
  | .name text _ =>
    if ["void", "null", "this", "true", "false"].contains text then
      advance
      nodeFrom start .other []
    else if reservedWords.contains text then failure
    else reference self setting
  | _ => failure

/-- A type with the brackets after it: arrays and indexed types. -/
def postfixed (self : Grammar) (setting : Setting) : Reader Node := do
  let first ← primary self setting
  extend
    (fun node ↦ do
      if (← isMark "[") && !(← onNewLine) then
        advance
        if ← eatMark "]" then return some (← nodeFrom node.start .other [node])
        else
          let index ← self (inBrackets setting) .type
          expectMark "]"
          return some (← nodeFrom node.start .other [node, index])
      else return none)
    (setting.room + 1) first

/-- The bound of an inferred type, unless a conditional type begins with it. -/
def inferredBound (self : Grammar) (setting : Setting) : Reader (List Node) := do
  let bound? ← attempt do
    expectWord "extends"
    let bound ← self { setting with conditionalTypes := false } .type
    if setting.conditionalTypes && (← isMark "?") then failure
    return bound
  return bound?.toList

def unaryType (self : Grammar) (setting : Setting) : Reader Node := do
  let start ← position
  match ← token with
  | .name "keyof" false | .name "unique" false | .name "readonly" false =>
    match (← lookahead).kind with
    | .name _ _ | .string _ _ | .number _ | .mark "\x7b" | .mark "[" | .mark "(" | .mark "\x60" =>
      advance
      nodeFrom start .other [← self setting .unaryType]
    | _ => postfixed self setting
  | .name "infer" false =>
    if isNameToken (← lookahead).kind then
      advance
      let _ ← usedName
      nodeFrom start .other (← inferredBound self setting)
    else postfixed self setting
  | _ => postfixed self setting

/-- Types joined by a mark, which may also stand before the first. -/
def joined (mark : String) (operand : Reader Node) (setting : Setting) : Reader Node := do
  let start ← position
  let _ ← eatMark mark
  let first ← operand
  let others ← many (do if ← eatMark mark then return some (← operand) else return none)
    (setting.room + 1)
  match others with
  | [] => return first
  | _ => nodeFrom start .other (first :: others)

def unconditional (self : Grammar) (setting : Setting) : Reader Node := do
  let start ← position
  let functionLike ←
    if ← atAngle then pure (some (← functionType self setting start))
    else if ← isMark "(" then attempt (functionType self setting start)
    else if ← isWord "new" then do
      advance
      pure (some (← functionType self setting start))
    else if (← isWord "abstract") && isWordOf "new" (← lookahead).kind then do
      advance
      advance
      pure (some (← functionType self setting start))
    else pure none
  match functionLike with
  | some node => return node
  | none => joined "|" (joined "&" (unaryTypeOrFunction) setting) setting
where
  /-- An operand of a union or an intersection. -/
  unaryTypeOrFunction : Reader Node :=
    self setting .unaryType

def type (self : Grammar) (setting : Setting) : Reader Node := do
  let checked ← unconditional self setting
  if setting.conditionalTypes && (← isWord "extends") && !(← onNewLine) then
    advance
    let bound ← self { setting with conditionalTypes := false } .type
    expectMark "?"
    let yes ← self setting .type
    expectMark ":"
    let no ← self setting .type
    nodeFrom checked.start .other [checked, bound, yes, no]
  else return checked

end Phrasebook.Syntax.Annotation
