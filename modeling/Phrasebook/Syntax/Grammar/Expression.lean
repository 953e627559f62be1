import Phrasebook.Syntax.Grammar.Function
import Phrasebook.Syntax.Grammar.Markup

/-!
# Expressions

Expressions from their operands outward: literals, objects, calls, operators by how tightly they
bind, conditional expressions, arrow functions and assignments.
-/

namespace Phrasebook.Syntax.Expression

open Reader Pattern Annotation

/-- The letters that may stand after a regular expression, each at most once. -/
def areFlags (flags : List Char) : Bool :=
  flags.all (fun c ↦ "dgimsuvy".toList.contains c) && flags.Nodup

/-- A regular expression, which the next token begins. -/
def regularExpression (start : Nat) : Reader Node := do
  match readPattern? (← get).lexeme.start with
  | some (flags, place) =>
    noteIf !(areFlags flags)
    resumeAt place
    nodeFrom start .other []
  | none => failure

/-- A template literal. Outside of a tag, its escape sequences have to be valid. -/
def template (self : Grammar) (setting : Setting) (tagged : Bool) : Reader Node := do
  let start ← position
  let (chunks, holes) ←
    templateParts (self setting.bracketed .expression) setting.room (← get).lexeme.stop
  if !tagged && chunks.any fun chunk ↦ !chunk.valid then failure
  nodeFrom start (.template (chunks.map (·.cooked))) holes

def spreadable (self : Grammar) (setting : Setting) : Reader Node := do
  let start ← position
  if ← eatMark "..." then
    let inner ← self setting.bracketed .assignment
    nodeFrom start .spread [inner]
  else self setting.bracketed .assignment

/-- The elements of an array after its opening bracket; a place may be left empty. -/
def arrayElements (self : Grammar) (setting : Setting) : Reader (List Node) := do
  let items ← manyUntil setting "]" do
    if ← eatMark "," then return none
    let node ← spreadable self setting
    if ← isMark "]" then return some node
    expectMark ","
    return some node
  return items.filterMap id

def arguments (self : Grammar) (setting : Setting) : Reader (List Node) := do
  expectMark "("
  commaUntil setting ")" (spreadable self setting)

def objectMethod (self : Grammar) (setting : Setting) (start : Nat) (key : Node)
    (isAsync isGenerator : Bool) (accessor? : Option Function.Accessor := none) :
    Reader Node := do
  let parts ← Function.rest self setting isAsync isGenerator false false accessor?
  nodeFrom start .objectMethod (key :: parts)

def objectProperty (self : Grammar) (setting : Setting) : Reader Node := do
  let start ← position
  if ← isMark "..." then return ← spreadable self setting
  if ← Function.atAsyncMethod then
    advance
    let isGenerator ← eatMark "*"
    let key ← propertyKey self setting
    return ← objectMethod self setting start key true isGenerator
  if ← eatMark "*" then
    let key ← propertyKey self setting
    return ← objectMethod self setting start key false true
  match ← Function.eatAccessor with
  | some accessor =>
    let key ← propertyKey self setting
    return ← objectMethod self setting start key false false (some accessor)
  | none => pure ()
  let before ← token
  let key ← propertyKey self setting
  if ← eatMark ":" then
    let value ← self setting.bracketed .assignment
    nodeFrom start .property [key, value]
  else if (← isMark "(") || (← atAngle) then objectMethod self setting start key false false
  else
    match before with
    | .name text _ =>
      if !isUsableName text then failure
      else if ← eatMark "=" then
        nodeFrom start .defaulted [← self setting.bracketed .assignment]
      else nodeFrom start (.shorthand text) []
    | _ => failure

/-! ## Operands -/

/-- What is built with `new`, or the target of `new` itself. -/
def construction (self : Grammar) (setting : Setting) (start : Nat) : Reader Node := do
  expectWord "new"
  if ← eatMark "." then
    expectWord "target"
    noteIf !(setting.ownsNewTarget || setting.inClass)
    nodeFrom start .other []
  else
    if ← isWord "import" then failure
    let callee ← self setting .constructed
    let types ←
      if ← atAngle then
        speculate do
          let types ← typeArguments self setting
          if ← isMark "(" then return types else failure
      else pure none
    let given ← if ← isMark "(" then arguments self setting else pure []
    nodeFrom start .other (callee :: given ++ types.toList)

/-- What `super` stands for: the parent in a call, or one of its properties. -/
def parentAccess (self : Grammar) (setting : Setting) (start : Nat) : Reader Node := do
  expectWord "super"
  if ← isMark "(" then nodeFrom start .other []
  else if ← eatMark "." then
    let _ ← anyWord
    nodeFrom start .parentMember []
  else if ← eatMark "[" then
    let key ← self setting.bracketed .expression
    expectMark "]"
    nodeFrom start .parentMember [key]
  else failure

def importAccess (start : Nat) : Reader Node := do
  expectWord "import"
  if ← eatMark "." then
    expectWord "meta"
    nodeFrom start .other []
  else if ← isMark "(" then nodeFrom start .other []
  else failure

def wordOperand (self : Grammar) (setting : Setting) (start : Nat) (text : String) :
    Reader Node := do
  match text with
  | "function" => Function.expression self setting start false
  | "class" =>
    advance
    let parts ← Function.classRest self setting false
    nodeFrom start .other parts
  | "this" | "null" | "true" | "false" => advance; nodeFrom start .other []
  | "new" => construction self setting start
  | "super" => parentAccess self setting start
  | "import" => importAccess start
  | _ =>
    let next ← lookahead
    if text == "async" && isWordOf "function" next.kind && !next.onNewLine then
      advance
      Function.expression self setting start true
    else
      let name ← usedName
      nodeFrom start (.name name) []

/-- An operand without calls and properties after it. -/
def primary (self : Grammar) (setting : Setting) : Reader Node := do
  let start ← position
  match ← token with
  | .name text false => wordOperand self setting start text
  | .name _ true =>
    let name ← usedName
    nodeFrom start (.name name) []
  | .string value _ => advance; nodeFrom start (.string value) []
  | .number _ => advance; nodeFrom start .number []
  | .bigInteger => advance; nodeFrom start .other []
  | .mark "/" | .mark "/=" => regularExpression start
  | .mark "\x60" => template self setting false
  | .mark "(" =>
    advance
    let inner ← self setting.bracketed .expression
    expectMark ")"
    nodeFrom start .paren [inner]
  | .mark "[" =>
    advance
    let elements ← arrayElements self setting
    nodeFrom start .array elements
  | .mark "\x7b" =>
    advance
    let properties ← commaUntil setting "\x7d" (objectProperty self setting)
    nodeFrom start .object properties
  | .mark "<" =>
    if setting.markup then
      let node ← self setting .element
      advance
      return node
    else failure
  | _ => failure

/-- Whether a node is a chain that may end early, or one marked as present. -/
def isChain : Node → Bool
  | .mk .chain _ _ => true
  | .mk .typed _ [inner] => isChain inner
  | _ => false

def kindOn (node : Node) (kind : Kind) : Kind :=
  if isChain node then .chain else kind

def dotted (node : Node) (kind : Kind) : Reader Node := do
  match ← token with
  | .name _ _ | .privateName => advance; nodeFrom node.start kind [node]
  | _ => failure

/-- A property or a call after the mark of a chain. -/
def chained (self : Grammar) (setting : Setting) (node : Node) : Reader Node := do
  expectMark "?."
  if ← isMark "(" then nodeFrom node.start .chain (node :: (← arguments self setting))
  else if ← eatMark "[" then
    let key ← self setting.bracketed .expression
    expectMark "]"
    nodeFrom node.start .chain [node, key]
  else if ← atAngle then
    let types ← typeArguments self setting
    let given ← arguments self setting
    nodeFrom node.start .chain (node :: given ++ [types])
  else dotted node .chain

def taggedTemplate (self : Grammar) (setting : Setting) (tag : Node) (types : List Node) :
    Reader Node := do
  if isChain tag then failure
  let literal ← template self setting true
  nodeFrom tag.start .other (tag :: types ++ [literal])

/-- The marks before which type arguments without a call cannot stand. -/
def continuingMarks : List String :=
  ["<", ">", "+", "-", "++", "--", "!", "~", "(", "[", "\x7b", "\x60", "/", "/=", "@"]

/-- Whether type arguments without a call may stand before the next token. -/
def endsInstantiation : Reader Bool := do
  if ← onNewLine then return true
  match ← token with
  | .mark mark =>
    return !(continuingMarks.contains mark)
  | .name text _ => return ["in", "instanceof", "as", "satisfies"].contains text
  | .finish => return true
  | _ => return false

/-- Type arguments after an operand, with the call or the template that follows them. -/
def instantiated (self : Grammar) (setting : Setting) (node : Node) : Reader Node := do
  let types ← typeArguments self setting
  if ← isMark "(" then
    let given ← arguments self setting
    nodeFrom node.start (kindOn node .call) (node :: given ++ [types])
  else if ← isMark "\x60" then taggedTemplate self setting node [types]
  else if ← endsInstantiation then nodeFrom node.start .typed [node, types]
  else failure

/-- One call or property after an operand, if there is one. -/
def subscript (self : Grammar) (setting : Setting) (calls : Bool) (node : Node) :
    Reader (Option Node) := do
  match ← token with
  | .mark "?." => if calls then return some (← chained self setting node) else failure
  | .mark "." =>
    advance
    return some (← dotted node (kindOn node .member))
  | .mark "[" =>
    advance
    let key ← self setting.bracketed .expression
    expectMark "]"
    return some (← nodeFrom node.start (kindOn node .member) [node, key])
  | .mark "(" =>
    if calls then
      let given ← arguments self setting
      return some (← nodeFrom node.start (kindOn node .call) (node :: given))
    else return none
  | .mark "\x60" => return some (← taggedTemplate self setting node [])
  | .mark "!" =>
    if ← onNewLine then return none
    advance
    return some (← nodeFrom node.start .typed [node])
  | .mark "<" | .mark "<<" =>
    if calls then speculate (instantiated self setting node) else return none
  | _ => return none

def operand (self : Grammar) (setting : Setting) (calls : Bool) : Reader Node := do
  let first ← primary self setting
  extend (subscript self setting calls) (setting.room + 1) first

/-! ## Operators -/

/-- An operand with a counting operator after it. -/
def postfixed (self : Grammar) (setting : Setting) : Reader Node := do
  let node ← operand self setting true
  if ((← isMark "++") || (← isMark "--")) && !(← onNewLine) then
    noteIf !node.isSimpleTarget
    advance
    nodeFrom node.start .other [node]
  else return node

/-- A type in angle brackets before an operand. -/
def typeAssertion (self : Grammar) (setting : Setting) (start : Nat) : Reader Node := do
  expectMark "<"
  let types ←
    if (← isWord "const") && isMarkOf ">" (← lookahead).kind then do
      advance
      pure []
    else pure [← self setting .type]
  expectMark ">"
  let node ← self setting .unary
  nodeFrom start .typed (node :: types)

/-- An operand with the operators before and after it. -/
def unary (self : Grammar) (setting : Setting) : Reader Node := do
  let start ← position
  match ← token with
  | .mark "+" | .mark "-" | .mark "!" | .mark "~" | .name "void" false | .name "typeof" false =>
    advance
    let node ← self setting .unary
    nodeFrom start .unary [node]
  | .name "delete" false =>
    advance
    let node ← self setting .unary
    noteIf (match node.kind with
      | .name _ => true
      | _ => false)
    nodeFrom start .unary [node]
  | .mark "++" | .mark "--" =>
    advance
    let node ← self setting .unary
    noteIf !node.isSimpleTarget
    nodeFrom start .other [node]
  | .name "await" false =>
    noteIf (setting.inFunction && !setting.inAsync)
    advance
    let node ← self setting .unary
    nodeFrom start .unary [node]
  | .mark "<" =>
    if setting.markup then postfixed self setting else typeAssertion self setting start
  | .privateName =>
    advance
    if ← isWord "in" then nodeFrom start .other [] else failure
  | _ => postfixed self setting

/-- How tightly a binary operator binds. -/
def level? : Token.Kind → Option Nat
  | .mark "??" => some 1
  | .mark "||" => some 2
  | .mark "&&" => some 3
  | .mark "|" => some 4
  | .mark "^" => some 5
  | .mark "&" => some 6
  | .mark "==" | .mark "!=" | .mark "===" | .mark "!==" => some 7
  | .mark "<" | .mark ">" | .mark "<=" | .mark ">=" => some 8
  | .name "instanceof" false | .name "in" false => some 8
  | .mark "<<" | .mark ">>" | .mark ">>>" => some 9
  | .mark "+" | .mark "-" => some 10
  | .mark "*" | .mark "/" | .mark "%" => some 11
  | .mark "**" => some 12
  | _ => none

def symbolOf : Token.Kind → String
  | .mark text => text
  | .name text _ => text
  | _ => ""

def isOperation (symbols : List String) (node : Node) : Bool :=
  match node.kind with
  | .operation symbol => symbols.contains symbol
  | _ => false

/-- Whether two operands may be joined: a default for an absent value needs parentheses beside a
logical operator, and so does a signed number before a power. -/
def mayJoin (symbol : String) (left right : Node) : Bool :=
  if symbol == "??" then !isOperation ["||", "&&"] left && !isOperation ["||", "&&"] right
  else if symbol == "||" || symbol == "&&" then
    !isOperation ["??"] left && !isOperation ["??"] right
  else if symbol == "**" then left.kind != .unary
  else true

/-- The operator that comes next, with a `>` joined to what follows it. -/
def nextOperator : Reader Lexeme := do
  let lexeme := (← get).lexeme
  return if isMarkOf ">" lexeme.kind then lexeme.joinOperator else lexeme

/-- One operator of a higher level after an operand, if there is one, with its right operand. -/
def joinedOperand (self : Grammar) (setting : Setting) (level : Nat) (left : Node) :
    Reader (Option Node) := do
  let lexeme ← nextOperator
  if (isWordOf "as" lexeme.kind || isWordOf "satisfies" lexeme.kind) && level < 8 &&
      !lexeme.onNewLine then
    advance
    if ← eatWord "const" then return some (← nodeFrom left.start .typed [left])
    let written ← self { setting with conditionalTypes := true } .type
    return some (← nodeFrom left.start .typed [left, written])
  if isWordOf "in" lexeme.kind && !setting.allowIn then return none
  match level? lexeme.kind with
  | none => return none
  | some bound =>
    if bound ≤ level then return none
    reread fun _ ↦ lexeme
    advance
    let symbol := symbolOf lexeme.kind
    let right ← self setting (.operators (if symbol == "**" then bound - 1 else bound))
    if mayJoin symbol left right then
      return some (← nodeFrom left.start (.operation symbol) [left, right])
    else failure

/-- Operands joined by operators of higher levels than the given one. -/
def operators (self : Grammar) (setting : Setting) (level : Nat) : Reader Node := do
  let first ← unary self setting
  extend (joinedOperand self setting level) (setting.room + 1) first

def conditional (self : Grammar) (setting : Setting) : Reader Node := do
  let test ← operators self setting 0
  if ← eatMark "?" then
    let yes ← self { setting with allowIn := true, awaitsColon := true } .assignment
    expectMark ":"
    let no ← self { setting with awaitsColon := false } .assignment
    nodeFrom test.start .conditional [test, yes, no]
  else return test

/-- What stands before the arrow: the parameters, and the types in the order of a visit. -/
structure ArrowHead where
  bound : List Node
  types : List Node

/-- The parameters of an arrow function in parentheses, with the types around them, and the
arrow. -/
def arrowHead (self : Grammar) (setting : Setting) (isAsync : Bool) : Reader ArrowHead := do
  let types ← typeParametersHere self setting
  let inner := Function.bodySetting setting isAsync false true
  let bound ← parameters self inner
  let returned ← if setting.awaitsColon then pure [] else resultHere self setting
  if ← onNewLine then failure
  expectMark "=>"
  return ⟨bound, types ++ returned⟩

/-- A single parameter without parentheses, and the arrow. -/
def bareArrowHead : Reader ArrowHead := do
  let name ← boundNameNode
  if ← onNewLine then failure
  expectMark "=>"
  return ⟨[name], []⟩

def arrowBody (self : Grammar) (setting : Setting) (start : Nat) (isAsync : Bool)
    (head : ArrowHead) : Reader Node := do
  let inner := Function.bodySetting setting isAsync false true
  let body ←
    if ← isMark "\x7b" then Function.body self inner head.bound
    else
      self { inner with allowIn := setting.allowIn, awaitsColon := setting.awaitsColon } .assignment
  nodeFrom start .arrow (head.bound ++ body :: head.types)

def asyncArrowHead (self : Grammar) (setting : Setting) : Reader (Option ArrowHead) := do
  let next ← lookahead
  if next.onNewLine then return none
  match next.kind with
  | .name _ _ => attempt do
      advance
      bareArrowHead
  | .mark "(" | .mark "<" => attempt do
      advance
      arrowHead self setting true
  | _ => return none

/-- The head of an arrow function, with whether the function is asynchronous, if one begins
here. -/
def arrowHead? (self : Grammar) (setting : Setting) : Reader (Option (ArrowHead × Bool)) := do
  match ← token with
  | .mark "(" => return (← attempt (arrowHead self setting false)).map (·, false)
  | .name "async" false =>
    match ← asyncArrowHead self setting with
    | some head => return some (head, true)
    | none => return (← attempt bareArrowHead).map (·, false)
  | .name _ _ =>
    if isMarkOf "=>" (← lookahead).kind then return some (← bareArrowHead, false)
    else return none
  | .mark "<" =>
    if setting.markup then return none
    else return (← attempt (arrowHead self setting false)).map (·, false)
  | _ => return none

def assignmentSymbols : List String :=
  ["=", "+=", "-=", "*=", "/=", "%=", "**=", "<<=", ">>=", ">>>=", "&=", "|=", "^=", "&&=", "||=",
    "??="]

/-- An expression without a comma that is neither an arrow function nor yielded. -/
def assigned (self : Grammar) (setting : Setting) : Reader Node := do
  let left ← conditional self setting
  let lexeme ← nextOperator
  match lexeme.kind with
  | .mark symbol =>
    if !assignmentSymbols.contains symbol then return left
    if symbol == "=" then
      if !left.isPattern then failure
    else noteIf !left.isSimpleTarget
    reread fun _ ↦ lexeme
    advance
    let value ← self setting .assignment
    nodeFrom left.start (.assignment symbol) [left, value]
  | _ => return left

def yielded (self : Grammar) (setting : Setting) (start : Nat) : Reader Node := do
  expectWord "yield"
  if ← onNewLine then return ← nodeFrom start .other []
  match ← token with
  | .mark ")" | .mark "]" | .mark "\x7d" | .mark "," | .mark ";" | .mark ":" | .finish
  | .name "in" false => nodeFrom start .other []
  | _ =>
    let _ ← eatMark "*"
    let value ← self setting .assignment
    nodeFrom start .other [value]

def assignment (self : Grammar) (setting : Setting) : Reader Node := do
  let start ← position
  if (← isWord "yield") && setting.inGenerator then return ← yielded self setting start
  match ← arrowHead? self setting with
  | some (head, isAsync) => arrowBody self setting start isAsync head
  | none =>
    if setting.markup && (← isMark "<") then
      match ← attempt (assigned self setting) with
      | some node => return node
      | none =>
        let head ← arrowHead self setting false
        arrowBody self setting start false head
    else assigned self setting

def expression (self : Grammar) (setting : Setting) : Reader Node := do
  let first ← self setting .assignment
  let others ← many
    (do if ← eatMark "," then return some (← self setting .assignment) else return none)
    (setting.room + 1)
  match others with
  | [] => return first
  | _ => nodeFrom first.start .other (first :: others)

end Phrasebook.Syntax.Expression
