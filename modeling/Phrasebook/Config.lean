import Phrasebook.Glob
import Phrasebook.Session
import Phrasebook.Source.Conversion

/-!
# Settings

The settings of a project are an object in a file of its own. Every setting has a standard value.
The file is looked for in a directory and in the directories above it, but not above the root of a
version-controlled tree. Settings are checked before they are used: patterns must be patterns,
batches must hold something, and the source locale must have a name.
-/

namespace Phrasebook

/-- The settings of a project. -/
structure Config where
  sourceRoot : String := "src"
  catalogDir : String := "translations"
  sourceLocale : String := "en"
  /-- The module that converted sources import from. -/
  library : String := "localise-ai-sdk"
  lookupStyle : LookupStyle := .imported
  /-- The directories below the source root that are scanned; none means the whole root. -/
  includes : List String := []
  /-- The patterns of the files that are not scanned. -/
  ignores : List String := ["**/node_modules/**", "**/dist/**"]
  /-- The attributes that hold no text for a reader. -/
  excludedAttributes : List String :=
    ["style", "className", "class", "type", "name", "id", "key", "href", "to", "path", "src",
      "source", "width", "height", "size", "variant", "role", "testID", "data-testid",
      "keyboardType", "autoComplete", "autoCapitalize", "resizeMode", "target", "rel", "lang",
      "htmlFor", "value"]
  /-- The files that may be the entry file, the first choice first. -/
  entryCandidates : List String :=
    ["app/_layout.tsx", "app/_layout.jsx", "app/index.tsx", "app/index.jsx", "App.tsx", "App.jsx"]
  /-- The pause between two requests in milliseconds. -/
  requestDelay : Nat := 1500
  /-- The number of keys in a request. -/
  batchSize : Nat := 25
deriving DecidableEq, Repr, Inhabited

def LookupStyle.word : LookupStyle → String
  | imported => "global"
  | hook => "hook"

namespace Config

def textField (name : String) (store : String → Config → Config) : Json.Reader.Field Config where
  name := name
  read := do
    let value ← .text
    return store value

def textsField (name : String) (store : List String → Config → Config) :
    Json.Reader.Field Config where
  name := name
  read := do
    let value ← .texts
    return store value

def naturalField (name kind : String) (store : Nat → Config → Config) :
    Json.Reader.Field Config where
  name := name
  read := do
    let value ← .natural kind
    return store value

def styleField : Json.Reader.Field Config where
  name := "lookupStyle"
  read := do
    let value ← .choice
      (LookupStyle.imported.word, LookupStyle.imported) (LookupStyle.hook.word, LookupStyle.hook)
    return fun config ↦ { config with lookupStyle := value }

/-- The fields of the settings, in the order in which a list gives them. -/
def fields : List (Json.Reader.Field Config) :=
  [textField "sourceRoot" fun value config ↦ { config with sourceRoot := value },
    textField "translationsDir" fun value config ↦ { config with catalogDir := value },
    textField "sourceLocale" fun value config ↦ { config with sourceLocale := value },
    textField "sdkModule" fun value config ↦ { config with library := value },
    styleField,
    textsField "includes" fun value config ↦ { config with includes := value },
    textsField "ignores" fun value config ↦ { config with ignores := value },
    textsField "excludedAttributes" fun value config ↦
      { config with excludedAttributes := value },
    textsField "entryCandidates" fun value config ↦ { config with entryCandidates := value },
    naturalField "requestDelayMs" "u64" fun value config ↦ { config with requestDelay := value },
    naturalField "batchSize" "usize" fun value config ↦ { config with batchSize := value }]

def parse (text : String) : Except Json.Fault Config :=
  Json.Reader.readAll
    (.record
      { title := "struct Config", fields := fields, initial := {}, allowsShortLists := true })
    text

/-- Why settings cannot be used. -/
inductive Invalid where
  | badIgnore (pattern : String) (fault : Glob.Fault)
  | badInclude (pattern : String) (fault : Glob.Fault)
  | emptyBatch
  | unnamedLocale
deriving DecidableEq, Repr

/-- The messages for a reason, from what was checked to what is wrong. -/
def Invalid.messages : Invalid → List String
  | badIgnore pattern fault =>
    ["Invalid glob pattern in 'ignores': \"" ++ pattern ++ "\"", fault.describe]
  | badInclude pattern fault =>
    ["Invalid glob pattern in 'includes': \"" ++ pattern ++ "\"", fault.describe]
  | emptyBatch => ["'batchSize' must be greater than zero"]
  | unnamedLocale => ["'sourceLocale' must not be empty"]

def firstBad? (patterns : List String) : Option (String × Glob.Fault) :=
  patterns.findSome? fun pattern ↦
    match Glob.Pattern.parse pattern with
    | .ok _ => none
    | .error fault => some (pattern, fault)

/-- Why settings cannot be used; nothing when they can. -/
def invalid? (config : Config) : Option Invalid :=
  match firstBad? config.ignores, firstBad? (config.includes.filter Glob.hasWildcard) with
  | some (pattern, fault), _ => some (.badIgnore pattern fault)
  | none, some (pattern, fault) => some (.badInclude pattern fault)
  | none, none =>
    if config.batchSize == 0 then some .emptyBatch
    else if Text.isBlankText config.sourceLocale then some .unnamedLocale
    else none

def fileName : String :=
  ".localiserc.json"

/-- The directory that marks the root of a version-controlled tree. -/
def treeMark : String :=
  ".git"

/-- Why the settings of a project cannot be had. -/
inductive Fault where
  | unreadable (path : Path) (cause : Disk.Fault)
  | malformed (path : Path) (text : String) (cause : Json.Fault)
  | invalid (cause : Invalid)
deriving DecidableEq, Repr

/-- The messages for a fault, from what was tried to what went wrong. -/
def Fault.messages : Fault → List String
  | unreadable path cause => ["Failed to read config file: " ++ path.quoted, cause.describe]
  | malformed path text cause =>
    ["Failed to parse config file: " ++ path.quoted, cause.describe text]
  | invalid cause => cause.messages

/-- The file that holds the settings for a directory; `room` bounds the number of directories
above it. -/
def findWithin? (disk : Disk) : Nat → Path → Option Path
  | room, directory =>
    let file := directory.join ⟨fileName⟩
    if disk.contains file then some file
    else if disk.contains (directory.join ⟨treeMark⟩) then none
    else
      match room, directory.parent? with
      | room + 1, some parent => findWithin? disk room parent
      | _, _ => none

/-- The file that holds the settings for a directory. -/
def find? (disk : Disk) (directory : Path) : Option Path :=
  findWithin? disk directory.pieces.length directory

/-- Settings with the file that they come from. -/
structure Loaded where
  config : Config
  path? : Option Path
deriving DecidableEq, Repr

/-- The settings for a directory: those of its file, or the standard values. -/
def load (disk : Disk) (directory : Path) : Except Fault Loaded :=
  match find? disk directory with
  | none => .ok ⟨{}, none⟩
  | some path =>
    match disk.readText path with
    | .error cause => .error (.unreadable path cause)
    | .ok text =>
      match parse text with
      | .error cause => .error (.malformed path text cause)
      | .ok config =>
        match config.invalid? with
        | some cause => .error (.invalid cause)
        | none => .ok ⟨config, some path⟩

end Config

end Phrasebook
