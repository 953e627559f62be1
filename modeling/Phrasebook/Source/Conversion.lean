import Phrasebook.Catalog.Mint
import Phrasebook.Json.Value
import Phrasebook.Source.Collect
import Phrasebook.Source.Edit
import Phrasebook.Source.Layout

/-!
# Converting a source

Every site of a source becomes a lookup: its text gets a key of the catalog, a new one unless the
text is stored already, and a call takes its place. The lookup function is imported where a module
does not import it yet. Whatever is not replaced stays as it is, byte for byte.
-/

namespace Phrasebook

/-- How a module gets at the lookup function. -/
inductive LookupStyle where
  /-- The function is imported. -/
  | imported
  /-- A hook is imported, which gives the function within a function body. -/
  | hook
deriving DecidableEq, Repr

/-- What a conversion depends on besides the source and the catalog. -/
structure ConversionOptions where
  /-- The module that the lookup function is imported from. -/
  library : String
  style : LookupStyle
  /-- The names of the attributes that hold no text for a reader. -/
  excluded : List String
deriving DecidableEq, Repr

/-- The outcome of the conversion of one source. -/
structure Conversion where
  output : String
  modified : Bool
  replacements : Nat
  newKeys : Nat
  /-- Lookups that were there and whose key is not in the catalog. -/
  unknownKeys : List KeyReference
  /-- Whether the hook was asked for but there is no function body to call it in. -/
  lacksHookSite : Bool
deriving DecidableEq, Repr

namespace Conversion

/-- A site with its key. -/
structure KeyedSite where
  site : Site
  key : String
deriving DecidableEq, Repr

/-- Keys for sites, in order: the key under which the text is stored, or a new one, which is then
stored. The number counts the new keys. -/
def assignKeys (minter : Minter) (catalog : KeyedCatalog) :
    List Site → List KeyedSite × KeyedCatalog × Nat
  | [] => ([], catalog, 0)
  | site :: rest =>
    match catalog.keyOf? site.found.template with
    | some key =>
      let (sites, catalog, count) := assignKeys minter catalog rest
      (⟨site, key⟩ :: sites, catalog, count)
    | none =>
      let (key, minter) := minter.mint site.found.kind catalog
      let (sites, catalog, count) :=
        assignKeys minter (catalog.insert key site.found.template) rest
      (⟨site, key⟩ :: sites, catalog, count + 1)

def argumentProperty (argument : LookupArgument) : String :=
  argument.name ++ ": " ++ argument.expression

def lookupCall (key : String) (arguments : List LookupArgument) : String :=
  if arguments.isEmpty then lookupName ++ "(" ++ Json.quote key ++ ")"
  else
    lookupName ++ "(" ++ Json.quote key ++ ", \x7b " ++
      ", ".intercalate (arguments.map argumentProperty) ++ " \x7d)"

def replacement (keyed : KeyedSite) : String :=
  let call := lookupCall keyed.key keyed.site.found.arguments
  match keyed.site.slot with
  | .child => "\x7b" ++ call ++ "\x7d"
  | .attribute => "\x7b" ++ call ++ "\x7d"
  | .expression => call

/-- The edit that puts a lookup in the place of a site. -/
def siteEdit (keyed : KeyedSite) : Edit :=
  ⟨keyed.site.start, keyed.site.stop, replacement keyed⟩

def importStatement (name source : String) : String :=
  "import \x7b " ++ name ++ " \x7d from " ++ Json.quote source ++ ";"

/-- The edits after which a name is imported from a module, given the imports of values from it
and where a new import may go: none when the name is imported already, else one more name in the
braces of an import, else a new import. -/
def ensureImportAt (offset? : Option Nat) (present : List ImportStatement) (source name : String) :
    List Edit :=
  if present.any fun statement ↦ statement.importsName name then []
  else
    match present.findSome? (·.lastNameStop?) with
    | some stop => [.insertAt stop (", " ++ name)]
    | none =>
      match offset? with
      | some offset => [.insertAt offset ("\n" ++ importStatement name source)]
      | none => [.insertAt 0 (importStatement name source ++ "\n")]

/-- The edits after which a name is imported from a module; a new import follows the others. -/
def ensureImport (layout : Layout) (source name : String) : List Edit :=
  ensureImportAt layout.insertionPoint? (layout.importsFrom source) source name

/-- The statement that binds the lookup function to the result of the hook. -/
def hookBinding : String :=
  "const " ++ lookupName ++ " = " ++ hookName ++ "();"

def lastLine (text : List Char) : List Char :=
  (text.reverse.takeWhile (· != '\n')).reverse

/-- The edit that binds the lookup function within a function body: before the first statement, on
a line of its own when that statement starts a line. -/
def hookEdit (text : List Char) (site : HookSite) : Edit :=
  match site.firstStatement? with
  | none => .insertAt site.bodyOpen (" " ++ hookBinding ++ " ")
  | some first =>
    let indent := lastLine (Text.slice 0 first text)
    if indent.all Text.isBlank then
      .insertAt first (hookBinding ++ "\n" ++ String.ofList indent)
    else .insertAt first (hookBinding ++ " ")

/-- The edits that make the lookup function available: the hook is called in the first body that a
module offers, or else the function is imported. Calls in other bodies get nothing from the hook. -/
def accessEdits (options : ConversionOptions) (module : Syntax.Module) (collection : Collection) :
    List Edit :=
  let layout := Layout.ofModule module
  match options.style, collection.hookSite? with
  | .hook, some site =>
    ensureImport layout options.library hookName ++
      if collection.bindsHook then [] else [hookEdit module.text site]
  | _, _ => ensureImport layout options.library lookupName

/-- The outcome of the conversion of a module, given what it holds for its readers, and the catalog
with its new keys; nothing when an edit would cut a character in two. -/
def ofCollection? (options : ConversionOptions) (scope code : String) (module : Syntax.Module)
    (collection : Collection) (catalog : KeyedCatalog) : Option (Conversion × KeyedCatalog) :=
  let unknown := collection.references.filter fun reference ↦ !catalog.contains reference.key
  let (sites, catalog, newKeys) := assignKeys (.start scope) catalog collection.sites
  let access := if sites.isEmpty then [] else accessEdits options module collection
  (Edit.applyAll? code (sites.map siteEdit ++ access)).map fun output ↦
    ({ output := output
       modified := output != code
       replacements := sites.length
       newKeys := newKeys
       unknownKeys := unknown
       lacksHookSite :=
         !sites.isEmpty && options.style == .hook && collection.hookSite?.isNone },
     catalog)

/-- The outcome of the conversion of a module and the catalog with its new keys; nothing when a text
that is looked at, or an edit, would cut a character in two. -/
def ofModule? (options : ConversionOptions) (scope code : String) (module : Syntax.Module)
    (catalog : KeyedCatalog) : Option (Conversion × KeyedCatalog) :=
  let collection := Collection.ofModule options.excluded module
  if collection.cutsCharacter then none
  else ofCollection? options scope code module collection catalog

/-- Why there is no outcome for a source. -/
inductive Fault where
  /-- The source is no module. -/
  | unreadable
  /-- A character would be cut in two. A run does not go on after that. -/
  | cutsCharacter
deriving DecidableEq, Repr

/-- The outcome of the conversion of a source and the catalog with its new keys. -/
def ofSource (options : ConversionOptions) (path : Path) (scope code : String)
    (catalog : KeyedCatalog) : Except Fault (Conversion × KeyedCatalog) :=
  match Syntax.Module.parse? path.hasMarkup code with
  | none => .error .unreadable
  | some module =>
    match ofModule? options scope code module catalog with
    | none => .error .cutsCharacter
    | some outcome => .ok outcome

end Conversion

end Phrasebook
