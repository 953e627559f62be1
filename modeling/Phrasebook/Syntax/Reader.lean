import Phrasebook.Syntax.Node

/-!
# Reading with a grammar

A `Reader` consumes tokens from a cursor and may fail. The grammar is written with open
recursion: a production that another one needs is a `Goal`, and every production is a plain
function of a `Grammar`, which reads any goal. The knot is tied once, in
`Phrasebook.Syntax.Module`, by recursion on the depth to which goals nest.

Some faults do not stop the reading; they are noted, and a module with a noted fault is refused
in the end. While the grammar only tries whether something can be read, with `speculate`, faults
are not noted.
-/

namespace Phrasebook.Syntax

/-- Where a reader stands. -/
structure Cursor where
  /-- The token that comes next. -/
  lexeme : Lexeme
  /-- The offset at which the token before it stopped. -/
  previousStop : Nat
  /-- Whether a fault was noted. -/
  flawed : Bool
  /-- Whether faults are not to be noted. -/
  lenient : Bool
deriving Inhabited

/-- A step of reading: it fails, or gives a value and the cursor after what it read. -/
abbrev Reader := StateT Cursor Option

/-- What surrounds the place that is read. -/
structure Setting where
  /-- A bound on the number of items of any list in the source. -/
  room : Nat
  /-- Whether elements of markup are read; otherwise angle brackets write types. -/
  markup : Bool
  /-- Whether `in` is an operator here. -/
  allowIn : Bool := true
  /-- Whether the colon of a conditional expression is awaited. -/
  awaitsColon : Bool := false
  inFunction : Bool := false
  inAsync : Bool := false
  inGenerator : Bool := false
  inClass : Bool := false
  /-- Whether the surrounding function is written with `function` or as a method. -/
  ownsNewTarget : Bool := false
  /-- Whether the declarations describe what exists elsewhere. -/
  ambient : Bool := false
  /-- Whether a conditional type may be read. -/
  conditionalTypes : Bool := true
  /-- Whether a `break` or a `continue` without a label has something to leave. -/
  breakable : Bool := false
  continuable : Bool := false
  labels : List String := []

namespace Setting

def bracketed (setting : Setting) : Setting :=
  { setting with allowIn := true, awaitsColon := false }

end Setting

/-- What can be read on its own. -/
inductive Goal where
  /-- An expression, with commas. -/
  | expression
  /-- An expression without a comma. -/
  | assignment
  /-- An operand with the operators before and after it. -/
  | unary
  /-- Operands joined by operators that bind more tightly than a level. -/
  | operators (level : Nat)
  /-- An operand with the calls and properties after it. -/
  | operand
  /-- The callee of `new`, which takes no arguments itself. -/
  | constructed
  /-- A pattern that binds names. -/
  | pattern
  | type
  /-- A type without a type operator that joins two types. -/
  | unaryType
  /-- A statement or a declaration. -/
  | statement
  /-- A statement where no declaration may stand. -/
  | substatement
  /-- An element or a fragment of markup up to the bracket that ends it, which is not consumed:
  what follows it is read in one way inside another element and in another way elsewhere. -/
  | element
  /-- An item at the top of a module or of a namespace. -/
  | item

/-- A way of reading every goal in a setting. -/
abbrev Grammar := Setting → Goal → Reader Node

namespace Reader

def token : Reader Token.Kind := do
  return (← get).lexeme.kind

/-- The offset of the token that comes next. -/
def position : Reader Nat := do
  return (← get).lexeme.start.offset

/-- The offset at which the last token read stopped. -/
def previousStop : Reader Nat := do
  return (← get).previousStop

/-- Whether a line ends before the token that comes next. -/
def onNewLine : Reader Bool := do
  return (← get).lexeme.onNewLine

/-- The token after the one that comes next. -/
def lookahead : Reader Lexeme := do
  return Lexeme.read (← get).lexeme.stop

def isMarkOf (text : String) (kind : Token.Kind) : Bool :=
  kind == .mark text

/-- Whether a token is this word, written without escape sequences. -/
def isWordOf (text : String) (kind : Token.Kind) : Bool :=
  kind == .name text false

/-- Whether the next token is this operator or bracket. -/
def isMark (text : String) : Reader Bool := do
  return isMarkOf text (← token)

def isWord (text : String) : Reader Bool := do
  return isWordOf text (← token)

def note : Reader Unit :=
  modify fun cursor ↦ { cursor with flawed := cursor.flawed || !cursor.lenient }

def noteIf (condition : Bool) : Reader Unit :=
  if condition then note else pure ()

def isFlawed : Token.Kind → Bool
  | .number flawed => flawed
  | .string _ flawed => flawed
  | _ => false

/-- Consumes the next token; the one after it is found by `following`. -/
def advanceWith (following : Place → Lexeme) : Reader Unit := do
  let cursor ← get
  noteIf (isFlawed cursor.lexeme.kind)
  modify fun now ↦
    { now with
      lexeme := following cursor.lexeme.stop
      previousStop := cursor.lexeme.stop.offset }

def advance : Reader Unit :=
  advanceWith Lexeme.read

/-- Reads the next token in another way. -/
def reread (change : Lexeme → Lexeme) : Reader Unit :=
  modify fun cursor ↦ { cursor with lexeme := change cursor.lexeme }

def resumeAt (place : Place) : Reader Unit :=
  modify fun cursor ↦
    { cursor with lexeme := Lexeme.read place, previousStop := place.offset }

/-- Consumes this operator or bracket if it comes next. -/
def eatMark (text : String) : Reader Bool := do
  if ← isMark text then advance; return true
  else return false

def eatWord (text : String) : Reader Bool := do
  if ← isWord text then advance; return true
  else return false

def expectMark (text : String) : Reader Unit := do
  if ← isMark text then advance else failure

def expectWord (text : String) : Reader Unit := do
  if ← isWord text then advance else failure

/-- Consumes the end of a statement: a semicolon, or nothing where a line, a block or the source
ends. -/
def expectEnd : Reader Unit := do
  if ← eatMark ";" then return
  if (← isMark "\x7d") || (← onNewLine) || (← token) == .finish then return
  failure

/-- The node of a kind from an offset to the last token read. -/
def nodeFrom (start : Nat) (kind : Kind) (parts : List Node) : Reader Node := do
  return .mk kind ⟨start, ← previousStop⟩ parts

def attempt {α : Type} (reader : Reader α) : Reader (Option α) := fun cursor ↦
  match reader cursor with
  | some (value, after) => some (some value, after)
  | none => some (none, cursor)

/-- Reads if it can without noting faults, and otherwise stays. -/
def speculate {α : Type} (reader : Reader α) : Reader (Option α) := fun cursor ↦
  match reader { cursor with lenient := true } with
  | some (value, after) => some (some value, { after with lenient := cursor.lenient })
  | none => some (none, cursor)

def wouldRead {α : Type} (reader : Reader α) : Reader Bool := fun cursor ↦
  some ((reader cursor).isSome, cursor)

/-- Reads items until there is none. A list with more items than there is room for fails. -/
def many {α : Type} (item : Reader (Option α)) : Nat → Reader (List α)
  | 0 => failure
  | room + 1 => do
    match ← item with
    | none => return []
    | some value => return value :: (← many item room)

/-- Reads items until the given mark, and consumes it. -/
def manyUntil {α : Type} (setting : Setting) (close : String) (item : Reader α) :
    Reader (List α) :=
  many (do if ← eatMark close then return none else return some (← item)) (setting.room + 1)

/-- Reads items separated by commas up to the given mark, which is consumed. A comma may follow
the last item. -/
def commaUntil {α : Type} (setting : Setting) (close : String) (item : Reader α) :
    Reader (List α) :=
  manyUntil setting close do
    let value ← item
    if ← isMark close then return value
    expectMark ","
    return value

/-- Extends a value as long as it can be extended. -/
def extend {α : Type} (next : α → Reader (Option α)) : Nat → α → Reader α
  | 0, _ => failure
  | room + 1, value => do
    match ← next value with
    | none => return value
    | some extended => extend next room extended

end Reader

def reservedWords : List String :=
  ["break", "case", "catch", "class", "const", "continue", "debugger", "default", "delete", "do",
    "else", "enum", "export", "extends", "false", "finally", "for", "function", "if", "import",
    "in", "instanceof", "new", "null", "return", "super", "switch", "this", "throw", "true", "try",
    "typeof", "var", "void", "while", "with"]

/-- The words that are not names in a module, whose code is always strict. -/
def strictWords : List String :=
  ["implements", "interface", "let", "package", "private", "protected", "public", "static",
    "yield", "await"]

def isUsableName (text : String) : Bool :=
  !reservedWords.contains text && !strictWords.contains text

namespace Reader

def isNameToken : Token.Kind → Bool
  | .name text _ => isUsableName text
  | _ => false

def isAnyWord : Token.Kind → Bool
  | .name _ _ => true
  | _ => false

def anyWord : Reader String := do
  match ← token with
  | .name text _ => advance; return text
  | _ => failure

def usedName : Reader String := do
  match ← token with
  | .name text _ => if isUsableName text then advance; return text else failure
  | _ => failure

def boundName : Reader String := do
  let text ← usedName
  noteIf (Node.isRestrictedName text)
  return text

def boundNameNode : Reader Node := do
  let start ← position
  let text ← boundName
  nodeFrom start (.name text) []

def stringLiteral : Reader (Option String) := do
  match ← token with
  | .string value _ => advance; return value
  | _ => failure

end Reader

end Phrasebook.Syntax
