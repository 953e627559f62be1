import Phrasebook.Json.Value
import Phrasebook.Source.Conversion

/-!
# Registering locales in an entry file

The entry file of an application imports the catalog of every locale and passes them all to one
call of an initializer. Registering locales splices text: the imports of catalogs that are there
are taken out and come back, with those that are added, as one sorted block behind the other
imports; properties that the call lacks are put behind those it has. A call is added where there
is none. Nothing else is touched.
-/

namespace Phrasebook

open Syntax

namespace Registration

/-- The name of the function that an application is initialized with. -/
def initializerName : String :=
  "initLocalisation"

/-- What is to be registered in an entry file. -/
structure Plan where
  /-- The specifier of the directory of the catalogs, as seen from the entry file. -/
  directory : String
  locales : List String
  standardLocale : String
  /-- The module that the initializer is imported from. -/
  library : String
deriving DecidableEq, Repr

/-- A locale with the name that its catalog is bound to. -/
structure Binding where
  locale : String
  name : String
deriving DecidableEq, Repr

/-- Whether a character may stand in a name that is derived from a locale. -/
def isNameChar (c : Char) : Bool :=
  c.isAlphanum || c == '_' || c == '$'

def nameChars (locale : List Char) : List Char :=
  let written := locale.map fun c ↦ if isNameChar c then c else '_'
  match written with
  | [] => ['_']
  | c :: _ => if c.isDigit then '_' :: written else written

/-- The name that the catalog of a locale is bound to: the locale itself, with every character
that a name cannot hold replaced. -/
def nameFor (locale : String) : String :=
  String.ofList (nameChars locale.toList)

/-- The property that passes the catalog of a locale. -/
def property (binding : Binding) : String :=
  let isName := nameFor binding.locale == binding.locale
  if isName && binding.name == binding.locale then binding.locale
  else if isName then binding.locale ++ ": " ++ binding.name
  else Json.quote binding.locale ++ ": " ++ binding.name

def specifierOf (plan : Plan) (locale : String) : String :=
  plan.directory ++ "/" ++ locale ++ ".json"

def localeOf? (plan : Plan) (source : String) : Option String :=
  let start := (plan.directory ++ "/").toList
  let ending := ".json".toList
  if start.isPrefixOf source.toList then
    let file := source.toList.drop start.length
    if ending.isSuffixOf file then
      let locale := file.take (file.length - ending.length)
      if locale.contains '/' then none else some (String.ofList locale)
    else none
  else none

/-- The locale that an import registers, with its name. -/
def bindingOf? (plan : Plan) (statement : ImportStatement) : Option Binding :=
  (localeOf? plan statement.source).bind fun locale ↦
    statement.default?.map fun name ↦ ⟨locale, name⟩

/-- Bindings, sorted by locale, with one added unless its locale is there already. -/
def register (binding : Binding) : List Binding → List Binding
  | [] => [binding]
  | first :: rest =>
    if binding.locale = first.locale then first :: rest
    else if binding.locale < first.locale then binding :: first :: rest
    else first :: register binding rest

/-- The bindings of all locales: those of the imports that are there, then those of the plan. -/
def bindings (plan : Plan) (layout : Layout) : List Binding :=
  let present := layout.imports.filterMap (bindingOf? plan)
  let planned := (plan.locales ++ [plan.standardLocale]).map fun locale ↦
    Binding.mk locale (nameFor locale)
  (present ++ planned).foldl (fun known binding ↦ register binding known) []

/-- What a call passes as its second argument. -/
inductive Target where
  /-- An object literal: its range and where its last property stops. -/
  | object (start stop : Nat) (lastStop? : Option Nat)
  /-- Nothing; an argument may be put at the offset. -/
  | missing (offset : Nat)
  | other
deriving DecidableEq, Repr

/-- A call of the initializer: the locales that it passes by name, and how it passes them. -/
structure InitialCall where
  locales : List String
  target : Target
deriving DecidableEq, Repr

def propertyName? : Node → Option String
  | .mk (.shorthand text) _ _ => some text
  | .mk .property _ (key :: _) =>
    match key.kind with
    | .name text => some text
    | .string value => value
    | _ => none
  | _ => none

def describeCall (span : Span) (parts : List Node) : InitialCall :=
  match Node.argumentsOf parts with
  | [] => ⟨[], .missing (span.stop - 1)⟩
  | [first] => ⟨[], .missing first.withoutSpread.stop⟩
  | _ :: second :: _ =>
    match second.withoutSpread with
    | .mk .object inner properties =>
      { locales := properties.filterMap propertyName?
        target := .object inner.start inner.stop
          (properties.getLast?.map fun last ↦ last.withoutSpread.stop) }
    | _ => ⟨[], .other⟩

mutual

def callIn? : Node → Option InitialCall
  | .mk kind span parts =>
    match kind, parts with
    | .call, .mk (.name name) _ _ :: _ =>
      if name = initializerName then some (describeCall span parts) else callAmong? parts
    | _, _ => callAmong? parts

def callAmong? : List Node → Option InitialCall
  | [] => none
  | node :: rest => (callIn? node).or (callAmong? rest)

end

def missingProperties (call : InitialCall) (all : List Binding) : List String :=
  (all.filter fun binding ↦ !call.locales.contains binding.locale).map property

def objectOf (properties : List String) : String :=
  "\x7b " ++ ", ".intercalate properties ++ " \x7d"

def propertyEdits (call : InitialCall) (properties : List String) : List Edit :=
  if properties.isEmpty then []
  else
    match call.target with
    | .object _ _ (some stop) => [.insertAt stop (", " ++ ", ".intercalate properties)]
    | .object start stop none => [⟨start, stop, objectOf properties⟩]
    | .missing offset => [.insertAt offset (", " ++ objectOf properties)]
    | .other => []

def callStatement (plan : Plan) (all : List Binding) : String :=
  initializerName ++ "(" ++ Json.quote plan.standardLocale ++ ", " ++
    objectOf (all.map property) ++ ");"

/-- The edits after which the initializer is imported: none when it is imported already, else one
more name in the braces of an import, else a new import at the top, behind the directives. -/
def initializerEdits (plan : Plan) (layout : Layout) : List Edit :=
  Conversion.ensureImportAt layout.prologueStop? (layout.importsFrom plan.library) plan.library
    initializerName

/-- The number of bytes of the line end that a text begins with. -/
def lineEndSize : List Char → Nat
  | '\r' :: '\n' :: _ => 2
  | '\n' :: _ => 1
  | _ => 0

/-- The edit that takes an import out, with the line end behind it; nothing when the import stops
within a character. -/
def removal? (code : List Char) (statement : ImportStatement) : Option Edit :=
  (Text.splitAt? statement.stop code).map fun (_, rest) ↦
    .delete statement.start (statement.stop + lineEndSize rest)

def otherImports (plan : Plan) (layout : Layout) : List ImportStatement :=
  layout.imports.filter fun statement ↦ (bindingOf? plan statement).isNone

/-- Where the block of imports goes: behind the last other import, or behind the directives. -/
def blockOffset? (plan : Plan) (layout : Layout) : Option Nat :=
  ((otherImports plan layout).getLast?.map (·.stop)).or layout.prologueStop?

/-- Whether an import comes before another one: by module and then by name. -/
def importPrecedes (first second : String × String) : Bool :=
  first.1 < second.1 || (first.1 == second.1 && first.2 ≤ second.2)

/-- The imports of the catalogs, in the order of their modules. -/
def importLines (plan : Plan) (all : List Binding) : List String :=
  let modules := all.map fun binding ↦ (specifierOf plan binding.locale, binding.name)
  (modules.mergeSort importPrecedes).map fun (source, name) ↦
    "import " ++ name ++ " from " ++ Json.quote source ++ ";"

/-- The edit that adds the block of imports and, if there is none, the call. -/
def blockEdit (offset? : Option Nat) (lines : List String) (call? : Option String) : Edit :=
  let block := "\n".intercalate lines
  match offset? with
  | some offset =>
    .insertAt offset ("\n" ++ block ++ (call?.map fun call ↦ "\n\n" ++ call).getD "")
  | none =>
    .insertAt 0 (block ++ "\n" ++ (call?.map fun call ↦ "\n" ++ call ++ "\n\n").getD "")

/-- The outcome of registering locales. -/
structure Outcome where
  output : String
  /-- All locales that are registered now, in order. -/
  locales : List String
  /-- Whether the call passes something else than an object literal and is left alone. -/
  leavesCall : Bool
deriving DecidableEq, Repr

/-- The outcome of registering locales in a module; nothing when an edit would cut a character in
two. -/
def ofModule? (plan : Plan) (code : String) (module : Module) : Option Outcome :=
  let layout := Layout.ofModule module
  let all := bindings plan layout
  let call? := callAmong? module.items
  let missing := (call?.map fun call ↦ missingProperties call all).getD []
  let present := layout.imports.filter fun statement ↦ (bindingOf? plan statement).isSome
  (present.mapM (removal? code.toList)).bind fun removals ↦
    let edits :=
      initializerEdits plan layout ++ removals ++
        (call?.map fun call ↦ propertyEdits call missing).getD [] ++
        [blockEdit (blockOffset? plan layout) (importLines plan all)
          (if call?.isSome then none else some (callStatement plan all))]
    (Edit.applyAll? code edits).map fun output ↦
      { output := output
        locales := all.map (·.locale)
        leavesCall := !missing.isEmpty && (call?.map (·.target)) == some .other }

/-- The outcome of registering locales in a source. -/
def ofSource (plan : Plan) (path : Path) (code : String) : Except Conversion.Fault Outcome :=
  match Module.parse? path.hasMarkup code with
  | none => .error .unreadable
  | some module =>
    match ofModule? plan code module with
    | none => .error .cutsCharacter
    | some outcome => .ok outcome

end Registration

end Phrasebook
