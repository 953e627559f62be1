import Phrasebook.Syntax.Token

/-!
# Syntax trees

A module is read into one kind of tree. A `Node` has a kind, the range of the source that it
covers, and its parts in the order in which a pass visits them. Only what the library asks about
has a kind of its own: the places where text for a reader may stand, calls, bindings, imports and
function bodies. Everything else is `other`, whose parts are visited and whose own meaning does
not matter.
-/

namespace Phrasebook.Syntax

/-- The kind of a syntax node, with what it says besides its parts. -/
inductive Kind where
  /-- An identifier. Where it is bound, its part is its type. -/
  | name (text : String)
  /-- A string literal and its value, absent when it is no sequence of characters. -/
  | string (value : Option String)
  | number
  /-- A template literal with the values of its chunks. Its parts are the interpolations. -/
  | template (chunks : List (Option String))
  /-- A parenthesised expression. -/
  | paren
  /-- A property of an object, by name or by a computed key. -/
  | member
  /-- A property of the parent class. -/
  | parentMember
  /-- A property or a call in a chain that may end early. -/
  | chain
  /-- An operation with one operand, or an awaited value. -/
  | unary
  /-- A binary operation. Its parts are the operands. -/
  | operation (symbol : String)
  /-- A conditional expression. Its parts are the test and the two branches. -/
  | conditional
  /-- An assignment with an operator. Its parts are the target and the value. -/
  | assignment (symbol : String)
  /-- A call. Its parts are the callee, the arguments and, last, the type arguments. -/
  | call
  /-- A spread argument, element or property. -/
  | spread
  | typeArguments
  /-- An expression with a type written beside it, or marked as present. -/
  | typed
  | array
  | object
  /-- A property of an object written as a name alone. -/
  | shorthand (text : String)
  /-- A property with a key and a value. -/
  | property
  /-- A shorthand property with a default, which only a pattern may hold. -/
  | defaulted
  /-- A method, a getter or a setter of an object. -/
  | objectMethod
  /-- A function that is an expression. -/
  | function
  /-- A function written with an arrow. -/
  | arrow
  | functionDeclaration
  /-- A method of a class, with its name where it is written as an identifier. -/
  | method (name : Option String)
  /-- Statements between braces. -/
  | block
  /-- The pattern and, if there is one, the initial value of a variable. -/
  | declarator
  /-- A statement made of an expression. -/
  | statement
  /-- The declaration that a module exports by default. -/
  | exportDefault
  /-- An import with its module. Its parts are the bindings. -/
  | importing (source : String) (typeOnly : Bool)
  | importDefault (bound : String)
  | importNamed (imported bound : String) (typeOnly : Bool)
  | importNamespace (bound : String)
  /-- The text between two tags, with its references replaced. -/
  | text (value : String)
  /-- An attribute of a tag. Its part is its value. -/
  | attribute (name : String)
  /-- An expression between braces in markup. It has no part when the braces are empty. -/
  | container
  | other
deriving DecidableEq, Repr, Inhabited

/-- A node of a syntax tree. -/
inductive Node where
  | mk (kind : Kind) (span : Span) (parts : List Node)
deriving Inhabited

namespace Node

def kind : Node → Kind
  | mk kind _ _ => kind

/-- The range of the source that the node covers. -/
def span : Node → Span
  | mk _ span _ => span

/-- The parts of the node, in the order in which they are visited. -/
def parts : Node → List Node
  | mk _ _ parts => parts

def start (node : Node) : Nat :=
  node.span.start

def stop (node : Node) : Nat :=
  node.span.stop

/-- An expression without the parentheses around it. -/
def withoutParens : Node → Node
  | mk .paren _ [inner] => inner.withoutParens
  | node => node

def argumentsOf : List Node → List Node
  | [] => []
  | _ :: rest => rest.filter fun part ↦ part.kind != .typeArguments

def withoutSpread : Node → Node
  | mk .spread _ [inner] => inner
  | node => node

def isNamed (text : String) (node : Node) : Bool :=
  node.kind == .name text

def isName (node : Node) : Bool :=
  match node.kind with
  | .name _ => true
  | _ => false

mutual

/-- Whether an object in an expression has a default that only a pattern may have. Functions that
are expressions are passed over. -/
def hasStrayDefault : Node → Bool
  | mk .defaulted _ _ => true
  | mk .function _ _ => false
  | mk .arrow _ _ => false
  | mk (.assignment "=") _ [_, value] => hasStrayDefault value
  | mk _ _ parts => haveStrayDefault parts

/-- Whether one of several nodes has a default that only a pattern may have. -/
def haveStrayDefault : List Node → Bool
  | [] => false
  | node :: rest => hasStrayDefault node || haveStrayDefault rest

end

/-- Names that may not be bound or assigned in a module. -/
def isRestrictedName (text : String) : Bool :=
  text == "eval" || text == "arguments"

/-- Whether a value can be stored in what an expression denotes: a name, a property, or one of
these in parentheses or with a type. -/
def isSimpleTarget : Node → Bool
  | mk (.name text) _ _ => !isRestrictedName text
  | mk .member _ _ => true
  | mk .parentMember _ _ => true
  | mk .paren _ [inner] => inner.isSimpleTarget
  | mk .typed _ (inner :: _) => inner.isSimpleTarget
  | _ => false

mutual

/-- Whether an expression can be read as a pattern that takes a value apart. -/
def isPattern : Node → Bool
  | mk .array _ parts => areElements parts
  | mk .object _ parts => areProperties parts
  | node => node.isSimpleTarget

/-- Whether an element of an array can be read as a pattern, with a default if it is assigned. -/
def isElement : Node → Bool
  | mk (.assignment "=") _ [target, _] => isPattern target
  | node => isPattern node

/-- Whether the elements of an array can be read as patterns; only the last may be spread. -/
def areElements : List Node → Bool
  | [] => true
  | [mk .spread _ [inner]] => isPattern inner
  | element :: rest => isElement element && areElements rest

/-- Whether the properties of an object can be read as patterns; only the last may be spread. -/
def areProperties : List Node → Bool
  | [] => true
  | [mk .spread _ [inner]] => inner.isSimpleTarget
  | mk .property _ [_, value] :: rest => isElement value && areProperties rest
  | mk (.shorthand text) _ _ :: rest => !isRestrictedName text && areProperties rest
  | mk .defaulted _ _ :: rest => areProperties rest
  | _ => false

end

end Node

end Phrasebook.Syntax
