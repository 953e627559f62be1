import Phrasebook.Syntax.Grammar.Annotation

/-!
# Functions and classes

What follows the keyword or the name of a function, and the body of a class. The parts of a
function are its parameters, its body, its type parameters and its result, in this order; the body
is the part of kind `block`.
-/

namespace Phrasebook.Syntax.Function

open Reader Pattern Annotation

def bodySetting (setting : Setting) (isAsync isGenerator isArrow : Bool) : Setting :=
  { setting.bracketed with
    inFunction := true
    inAsync := isAsync
    inGenerator := isGenerator
    ownsNewTarget := !isArrow || setting.ownsNewTarget
    breakable := false
    continuable := false
    labels := [] }

def block (self : Grammar) (setting : Setting) : Reader Node := do
  let start ← position
  expectMark "\x7b"
  let statements ← manyUntil setting "\x7d" (self setting .statement)
  nodeFrom start .block statements

def directives : List Node → List String
  | .mk .statement _ [.mk (.string (some text)) _ _] :: rest => text :: directives rest
  | _ => []

def areSimple (parameters : List Node) : Bool :=
  parameters.all fun node ↦
    match node.kind with
    | .name _ => true
    | _ => false

def body (self : Grammar) (setting : Setting) (parameters : List Node) : Reader Node := do
  let node ← block self setting
  noteIf ((directives node.parts).contains "use strict" && !areSimple parameters)
  return node

/-- What a method is, besides a plain one. -/
inductive Accessor where
  | getter
  | setter
deriving DecidableEq, Repr

def Accessor.word : Accessor → String
  | getter => "get"
  | setter => "set"

def Accessor.arity : Accessor → Nat
  | getter => 0
  | setter => 1

/-- A function from its type parameters on; the body may be missing where `bodyless` allows it. -/
def rest (self : Grammar) (setting : Setting) (isAsync isGenerator : Bool)
    (bodyless ofConstructor : Bool) (accessor? : Option Accessor := none) :
    Reader (List Node) := do
  let inner := bodySetting setting isAsync isGenerator false
  let types ← typeParametersHere self setting
  let bound ← parameters self inner ofConstructor
  let given := bound.countP fun node ↦ !node.isNamed "this"
  noteIf (accessor?.any fun accessor ↦ accessor.arity != given)
  let returned ← resultHere self setting
  if ← isMark "\x7b" then
    noteIf setting.ambient
    let node ← body self inner bound
    return bound ++ node :: (types ++ returned)
  else if bodyless then
    expectEnd
    return bound ++ types ++ returned
  else failure

def expression (self : Grammar) (setting : Setting) (start : Nat) (isAsync : Bool) :
    Reader Node := do
  expectWord "function"
  let isGenerator ← eatMark "*"
  let name ←
    if isNameToken (← token) then pure [← boundNameNode] else pure []
  let parts ← rest self setting isAsync isGenerator false false
  nodeFrom start .function (name ++ parts)

def declaration (self : Grammar) (setting : Setting) (start : Nat) (isAsync : Bool) :
    Reader Node := do
  expectWord "function"
  let isGenerator ← eatMark "*"
  let name ← boundNameNode
  let parts ← rest self setting isAsync isGenerator true false
  nodeFrom start .functionDeclaration (name :: parts)

/-- What stands before the key of a member of a class. -/
structure Modifiers where
  isStatic : Bool := false
  isAbstract : Bool := false
  isDeclared : Bool := false

/-- Whether the next word is a modifier and not itself the key of a member. -/
def atClassModifier (word : String) : Reader Bool := do
  if ← isWord word then
    let next ← lookahead
    match next.kind with
    | .name _ _ | .string _ _ | .number _ | .bigInteger | .privateName | .mark "[" =>
      return !next.onNewLine || word == "static"
    | .mark "*" => return !next.onNewLine || word == "static"
    | .mark "\x7b" => return word == "static"
    | _ => return false
  else return false

def modifiers : Nat → Modifiers → Reader Modifiers
  | 0, _ => failure
  | room + 1, found => do
    for word in ["public", "private", "protected", "readonly", "override"] do
      if ← atClassModifier word then
        advance
        return ← modifiers room found
    if (← atClassModifier "static") && !isMarkOf "\x7b" (← lookahead).kind then
      advance
      return ← modifiers room { found with isStatic := true }
    if ← atClassModifier "abstract" then
      advance
      return ← modifiers room { found with isAbstract := true }
    if ← atClassModifier "declare" then
      advance
      return ← modifiers room { found with isDeclared := true }
    return found

def classProperty (self : Grammar) (setting : Setting) (start : Nat) (key : Node) :
    Reader Node := do
  let written ← annotation self setting
  let inner := { bodySetting setting false false false with inFunction := setting.inFunction }
  let value ← initializer self inner
  expectEnd
  nodeFrom start .other (key :: value ++ written)

def classMethod (self : Grammar) (setting : Setting) (start : Nat) (key : Node)
    (isAsync isGenerator : Bool) (accessor? : Option Accessor) (isConstructor : Bool) :
    Reader Node := do
  noteIf (isConstructor && (isAsync || isGenerator || accessor?.isSome))
  let parts ← rest self setting isAsync isGenerator true isConstructor accessor?
  let kind : Kind :=
    match isConstructor, key.kind with
    | false, .name text => .method (some text)
    | true, _ => .other
    | _, _ => .method none
  nodeFrom start kind (key :: parts)

/-- Whether a word comes before the key of a member and is not the key itself. -/
def atModifiedKey (word : String) : Reader Bool := do
  if ← isWord word then
    match (← lookahead).kind with
    | .name _ _ | .string _ _ | .number _ | .bigInteger | .privateName | .mark "[" => return true
    | _ => return false
  else return false

/-- Consumes the word before an accessor, if there is one. -/
def eatAccessor : Reader (Option Accessor) := do
  for accessor in [Accessor.getter, Accessor.setter] do
    if ← atModifiedKey accessor.word then
      advance
      return some accessor
  return none

def atAsyncMethod : Reader Bool := do
  if ← isWord "async" then
    let next ← lookahead
    match next.kind with
    | .name _ _ | .string _ _ | .number _ | .bigInteger | .privateName | .mark "[" | .mark "*" =>
      return !next.onNewLine
    | _ => return false
  else return false

def isConstructorKey (key : Node) : Bool :=
  match key.kind with
  | .name "constructor" => true
  | .string (some "constructor") => true
  | _ => false

def keyedMember (self : Grammar) (setting : Setting) (start : Nat) (found : Modifiers)
    (isAsync isGenerator : Bool) (accessor? : Option Accessor) : Reader Node := do
  let isPrivate := (← token) == .privateName
  let key ← propertyKey self setting
  let key := if isPrivate then .mk .other key.span [] else key
  let optional ← eatMark "?"
  if !optional then
    if (← isMark "!") && !(← onNewLine) then advance
  if (← isMark "(") || (← atAngle) then
    let isConstructor := !found.isStatic && isConstructorKey key
    classMethod self setting start key isAsync isGenerator accessor? isConstructor
  else if isAsync || isGenerator then failure
  else
    noteIf (isConstructorKey key)
    classProperty self setting start key

def staticBlock (self : Grammar) (setting : Setting) (start : Nat) : Reader Node := do
  expectWord "static"
  let inner := { bodySetting setting false false false with inFunction := setting.inFunction }
  let node ← block self inner
  nodeFrom start .other [node]

def classMember (self : Grammar) (setting : Setting) : Reader Node := do
  let start ← position
  if (← isWord "static") && isMarkOf "\x7b" (← lookahead).kind then
    return ← staticBlock self setting start
  let found ← modifiers setting.room {}
  let setting := { setting with ambient := setting.ambient || found.isDeclared }
  if ← atIndexSignature then
    let node ← indexSignature self setting start
    expectEnd
    return node
  if ← atAsyncMethod then
    advance
    let isGenerator ← eatMark "*"
    keyedMember self setting start found true isGenerator none
  else if ← eatMark "*" then keyedMember self setting start found false true none
  else
    let accessor? ← eatAccessor
    if ← atModifiedKey "accessor" then advance
    keyedMember self setting start found false false accessor?

/-- The members of a class between its braces, without the semicolons among them. -/
def classMembers (self : Grammar) (setting : Setting) : Reader (List Node) := do
  expectMark "\x7b"
  let items ← manyUntil setting "\x7d" do
    if ← eatMark ";" then return none
    return some (← classMember self { setting.bracketed with inClass := true })
  return items.filterMap id

/-- The types that a class implements or that an interface extends. -/
def heritage (self : Grammar) (setting : Setting) : Reader (List Node) := do
  let first ← reference self setting
  let others ← many
    (do if ← eatMark "," then return some (← reference self setting) else return none)
    (setting.room + 1)
  return first :: others

/-- A class from its name on. The parts are its name, its members, its parent and its types. -/
def classRest (self : Grammar) (setting : Setting) (named : Bool) : Reader (List Node) := do
  let hasName := isNameToken (← token) && !(← isWord "implements")
  if named && !hasName then failure
  let name ← if hasName then pure [← boundNameNode] else pure []
  let types ← typeParametersHere self setting
  let parent ←
    if ← eatWord "extends" then do
      let parent ← self setting .operand
      let arguments ← typeArgumentsHere self setting
      pure (parent :: arguments)
    else pure []
  let implemented ← if ← eatWord "implements" then heritage self setting else pure []
  let members ← classMembers self setting
  let constructors := members.filter fun member ↦
    match member with
    | .mk .other _ (key :: parts) =>
      isConstructorKey key && parts.any fun part ↦ part.kind == .block
    | _ => false
  noteIf (constructors.length > 1)
  return name ++ members ++ parent ++ types ++ implemented

end Phrasebook.Syntax.Function
