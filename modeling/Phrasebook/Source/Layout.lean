import Phrasebook.Syntax.Module

/-!
# The layout of a module

Where imports may be added to a module: after its directives, after its last import, or inside
the braces of an import that is there already.
-/

namespace Phrasebook

/-- An import of a module. -/
structure ImportStatement where
  start : Nat
  stop : Nat
  source : String
  typeOnly : Bool
  /-- The name of the default import. -/
  default? : Option String
  /-- The values imported by name, each with the name it is bound to. -/
  named : List (String × String)
  /-- Where the last name in the braces stops. -/
  lastNameStop? : Option Nat
deriving DecidableEq, Repr

/-- The directives and the imports of a module. -/
structure Layout where
  /-- Where the last directive stops. -/
  prologueStop? : Option Nat
  imports : List ImportStatement
deriving DecidableEq, Repr

namespace ImportStatement

def importsName (statement : ImportStatement) (name : String) : Bool :=
  statement.named.any fun (imported, _) ↦ imported == name

def addBinding (statement : ImportStatement) (binding : Syntax.Node) : ImportStatement :=
  match binding.kind with
  | .importDefault bound => { statement with default? := some bound }
  | .importNamed imported bound typeOnly =>
    { statement with
      named := if typeOnly then statement.named else statement.named ++ [(imported, bound)]
      lastNameStop? := some binding.stop }
  | _ => statement

def ofNode? : Syntax.Node → Option ImportStatement
  | .mk (.importing source typeOnly) span bindings =>
    some (bindings.foldl addBinding ⟨span.start, span.stop, source, typeOnly, none, [], none⟩)
  | _ => none

end ImportStatement

namespace Layout

/-- Whether a node is a directive where directives may stand: a statement made of a string. -/
def isDirective : Syntax.Node → Bool
  | .mk .statement _ [.mk (.string _) _ _] => true
  | _ => false

def ofItems (items : List Syntax.Node) : Layout where
  prologueStop? := ((items.takeWhile isDirective).getLast?).map (·.stop)
  imports := items.filterMap ImportStatement.ofNode?

def ofModule (module : Syntax.Module) : Layout :=
  ofItems module.items

/-- Where an import may be added: after the last import, or after the directives. Nothing means
the top of the module. -/
def insertionPoint? (layout : Layout) : Option Nat :=
  (layout.imports.getLast?.map (·.stop)).or layout.prologueStop?

def importsFrom (layout : Layout) (source : String) : List ImportStatement :=
  layout.imports.filter fun statement ↦ statement.source == source && !statement.typeOnly

end Layout

end Phrasebook
