import Phrasebook.Command.Basic
import Phrasebook.Text.Field

/-!
# The command line

A command line is the word for a task and options behind it. An option is a flag, or a setting that
takes a value: the next argument, or what stands behind an equals sign. A setting that still waits
for its value, or whose value has not been looked at, is part of the state in which arguments are
read, because faults are found in that order: a value is looked at when the next option begins or
when the command line ends. Behind a double dash nothing is an option.

Reading ends early when help is asked for. The root of the project may also come from the
environment.
-/

namespace Phrasebook.CommandLine

/-- The word for a task. -/
inductive Verb where
  | replace
  | translate
  | inject
  | check
deriving DecidableEq, Repr

def Verb.word : Verb → String
  | replace => "replace"
  | translate => "translate"
  | inject => "inject"
  | check => "check"

def Verb.all : List Verb :=
  [replace, translate, inject, check]

def Verb.ofWord? (text : String) : Option Verb :=
  all.find? fun verb ↦ verb.word == text

def helpWord : String :=
  "help"

def isCommandWord (text : String) : Bool :=
  (Verb.ofWord? text).isSome || text == helpWord

/-- An option that takes a value. -/
inductive Setting where
  | projectRoot
  | sourceRoot
  | catalogDir
  | sourceLocale
  | lookupStyle
  | locales
deriving DecidableEq, Repr

def Setting.name : Setting → String
  | projectRoot => "project-root"
  | sourceRoot => "source-root"
  | catalogDir => "translations-dir"
  | sourceLocale => "source-locale"
  | lookupStyle => "lookup-style"
  | locales => "lang"

/-- An option without a value. -/
inductive Flag where
  | verbose
  | dryRun
  | marking
  | help
deriving DecidableEq, Repr

def Flag.name : Flag → String
  | verbose => "verbose"
  | dryRun => "dry-run"
  | marking => "pseudo"
  | help => "help"

def Flag.letter? : Flag → Option Char
  | verbose => some 'v'
  | help => some 'h'
  | _ => none

def Verb.settings (verb : Verb) : List Setting :=
  [.projectRoot, .sourceRoot, .catalogDir, .sourceLocale] ++
    match verb with
    | replace => [.lookupStyle]
    | translate => [.locales]
    | inject => [.locales]
    | check => []

def Verb.flags (verb : Verb) : List Flag :=
  [.verbose, .help] ++
    match verb with
    | replace => [.dryRun]
    | translate => [.dryRun, .marking]
    | inject => [.dryRun]
    | check => []

/-- Why a command line asks for no command. -/
inductive Stop where
  /-- The command line is empty. -/
  | nothing
  | help
  | version
  | unknownCommand (text : String)
  | unknownArgument (text : String)
  | missingValue (setting : Setting)
  | badValue (setting : Setting) (value : String)
  | unneededValue (name : String)
  | repeated (name : String)
deriving DecidableEq, Repr

def Stop.describe : Stop → String
  | nothing => "No command provided. Use --help to see available commands."
  | help => "help was asked for"
  | version => "the version was asked for"
  | unknownCommand text => "unrecognized subcommand '" ++ text ++ "'"
  | unknownArgument text => "unexpected argument '" ++ text ++ "' found"
  | missingValue setting => "a value is required for '--" ++ setting.name ++ "'"
  | badValue setting value => "invalid value '" ++ value ++ "' for '--" ++ setting.name ++ "'"
  | unneededValue name => "unexpected value for '--" ++ name ++ "'"
  | repeated name => "the argument '--" ++ name ++ "' cannot be used multiple times"

/-- What an argument looks like. -/
inductive Shape where
  | doubleDash
  /-- A name behind two dashes, and what stands behind an equals sign. -/
  | long (name : String) (value? : Option String)
  /-- Letters behind one dash. -/
  | short (letters : List Char)
  | plain
deriving DecidableEq, Repr

/-- A name, and what stands behind the first equals sign of a text. -/
def Shape.ofLong (text : List Char) : Shape :=
  .long (String.ofList (text.takeWhile (· != '=')))
    (match text.dropWhile (· != '=') with
      | [] => none
      | _ :: value => some (String.ofList value))

def Shape.ofText (text : String) : Shape :=
  match text.toList with
  | ['-', '-'] => .doubleDash
  | '-' :: '-' :: rest => ofLong rest
  | '-' :: c :: rest => .short (c :: rest)
  | _ => .plain

/-- Where reading the options of a task stands. -/
structure Reading where
  verb : Verb
  values : List (Setting × String) := []
  flags : List Flag := []
  /-- The last setting, with its value once it has been seen, while nobody has looked at it. -/
  pending? : Option (Setting × Option String) := none
  /-- Whether a double dash was seen. -/
  onlyPlain : Bool := false
deriving DecidableEq, Repr

def styleOf? (word : String) : Option LookupStyle :=
  [LookupStyle.imported, LookupStyle.hook].find? fun style ↦ style.word == word

def Setting.accepts (setting : Setting) (value : String) : Bool :=
  match setting with
  | projectRoot => !value.isEmpty
  | sourceRoot => !value.isEmpty
  | catalogDir => !value.isEmpty
  | sourceLocale => true
  | lookupStyle => (styleOf? value).isSome
  | locales => true

/-- The values in the text behind a setting: locales are divided by commas. -/
def Setting.valuesIn (setting : Setting) (text : String) : List String :=
  match setting with
  | locales => (Text.fields ',' text.toList).map String.ofList
  | _ => [text]

namespace Reading

def valuesOf (reading : Reading) (setting : Setting) : List String :=
  (reading.values.filter fun entry ↦ entry.1 == setting).map (·.2)

/-- Takes the value of a setting. Only locales may be given more than once. -/
def store (reading : Reading) (setting : Setting) (value : String) : Except Stop Reading :=
  if setting != .locales && !(reading.valuesOf setting).isEmpty then
    .error (.repeated setting.name)
  else if !setting.accepts value then .error (.badValue setting value)
  else
    let values := (setting.valuesIn value).map fun text ↦ (setting, text)
    .ok { reading with values := reading.values ++ values }

/-- Takes the value that nobody has looked at. -/
def settle (reading : Reading) : Except Stop Reading :=
  match reading.pending? with
  | none => .ok reading
  | some (setting, none) => .error (.missingValue setting)
  | some (setting, some value) => { reading with pending? := none }.store setting value

def raise (reading : Reading) (flag : Flag) : Except Stop Reading := do
  let reading ← reading.settle
  if flag == .help then throw .help
  if reading.flags.contains flag then throw (.repeated flag.name)
  return { reading with flags := reading.flags ++ [flag] }

def takeLong (reading : Reading) (name : String) (value? : Option String) :
    Except Stop Reading := do
  match reading.verb.settings.find? (fun setting ↦ setting.name == name),
      reading.verb.flags.find? (fun flag ↦ flag.name == name), value? with
  | some setting, _, some value => (← reading.settle).store setting value
  | some setting, _, none =>
    let reading ← reading.settle
    return { reading with pending? := some (setting, none) }
  | none, some _, some _ => throw (.unneededValue name)
  | none, some flag, none => reading.raise flag
  | none, none, _ => throw (.unknownArgument ("--" ++ name))

def takeShort : Reading → List Char → Except Stop Reading
  | reading, [] => .ok reading
  | reading, letter :: rest =>
    match reading.verb.flags.find? fun flag ↦ flag.letter? == some letter with
    | some flag => do takeShort (← reading.raise flag) rest
    | none => .error (.unknownArgument (String.ofList ['-', letter]))

/-- Takes an argument that is no option: the value that the last setting waits for. -/
def takePlain (reading : Reading) (text : String) : Except Stop Reading :=
  match reading.pending? with
  | some (setting, none) => .ok { reading with pending? := some (setting, some text) }
  | _ => .error (.unknownArgument text)

def take (reading : Reading) (text : String) : Except Stop Reading :=
  if reading.onlyPlain then .error (.unknownArgument text)
  else
    match Shape.ofText text with
    | .doubleDash => .ok { reading with onlyPlain := true }
    | .long name value? => reading.takeLong name value?
    | .short letters => reading.takeShort letters
    | .plain => reading.takePlain text

/-- The name of the variable that may hold the root of the project. -/
def rootVariable : String :=
  "LOCALISE_PROJECT_ROOT"

/-- Takes what the environment says when the command line does not. -/
def takeEnvironment (reading : Reading) (environment : List (String × String)) :
    Except Stop Reading :=
  if !(reading.valuesOf .projectRoot).isEmpty then .ok reading
  else
    match environment.lookup rootVariable with
    | some value => reading.store .projectRoot value
    | none => .ok reading

def value? (reading : Reading) (setting : Setting) : Option String :=
  (reading.valuesOf setting).head?

def has (reading : Reading) (flag : Flag) : Bool :=
  reading.flags.contains flag

def choice (reading : Reading) : ProjectChoice where
  root? := (reading.value? .projectRoot).map Path.mk
  sourceRoot? := (reading.value? .sourceRoot).map Path.mk
  catalogDir? := (reading.value? .catalogDir).map Path.mk
  sourceLocale? := reading.value? .sourceLocale
  verbose := reading.has .verbose

def task (reading : Reading) : Task :=
  match reading.verb with
  | .replace => .replace (reading.has .dryRun) ((reading.value? .lookupStyle).bind styleOf?)
  | .translate =>
    .translate (reading.valuesOf .locales) (reading.has .dryRun) (reading.has .marking)
  | .inject => .register (reading.valuesOf .locales) (reading.has .dryRun)
  | .check => .check

end Reading

def readOptions (environment : List (String × String)) (verb : Verb) (arguments : List String) :
    Except Stop Command := do
  let reading ← arguments.foldlM Reading.take { verb := verb }
  let reading ← (← reading.settle).takeEnvironment environment
  return ⟨reading.choice, reading.task⟩

/-- What the words behind the word for help ask for. -/
def helpOn : List String → Stop
  | [] => .help
  | [text] => if isCommandWord text then .help else .unknownCommand text
  | first :: second :: _ =>
    if isCommandWord first then .unknownCommand second else .unknownCommand first

/-- What an option before any word for a task asks for. -/
def leadingOption (name : String) (value? : Option String) : Stop :=
  if name == "help" || name == "version" then
    if value?.isSome then .unneededValue name
    else if name == "help" then .help
    else .version
  else .unknownArgument ("--" ++ name)

/-- What a letter before any word for a task asks for. -/
def leadingLetter (letter : Char) : Stop :=
  if letter == 'h' then .help
  else if letter == 'V' then .version
  else .unknownArgument (String.ofList ['-', letter])

/-- What a double dash before any word for a task leads to. -/
def leadingDash : List String → Stop
  | [] => .nothing
  | text :: _ => if isCommandWord text then .unknownArgument text else .unknownCommand text

def read (environment : List (String × String)) : List String → Except Stop Command
  | [] => .error .nothing
  | text :: rest =>
    match Verb.ofWord? text, Shape.ofText text with
    | some verb, _ => readOptions environment verb rest
    | none, .doubleDash => .error (leadingDash rest)
    | none, .long name value? => .error (leadingOption name value?)
    | none, .short letters => .error (leadingLetter (letters.headD '-'))
    | none, .plain =>
      .error (if text == helpWord then helpOn rest else .unknownCommand text)

end Phrasebook.CommandLine
