import Phrasebook.Session
import Phrasebook.Text.Line

/-!
# Credentials

Who asks a service for texts, and where the service is. Each value comes from a variable of the
environment or, when that is blank or missing, from a record in the root of the project.
-/

namespace Phrasebook.Credentials

def fileName : String :=
  "localise.config.json"

def standardEndpoint : String :=
  "http://localhost:3000/translate"

/-- The values of a record. -/
structure Record where
  apiKey? : Option String := none
  projectId? : Option String := none
  endpoint? : Option String := none
deriving DecidableEq, Repr

/-- A value that a record must have. -/
inductive Field where
  | apiKey
  | projectId
deriving DecidableEq, Repr

def Field.name : Field → String
  | apiKey => "apiKey"
  | projectId => "projectId"

/-- Why there are no credentials. -/
inductive Fault where
  | notFound (path : Path)
  | missingField (field : Field) (path : Path)
  | unreadable (path : Path) (cause : Disk.Fault)
  | malformed (path : Path)
deriving DecidableEq, Repr

def Fault.describe : Fault → String
  | notFound path =>
    "no credentials found: create " ++ path.text ++
      " with \"apiKey\" and \"projectId\" or set LOCALISE_API_KEY and LOCALISE_PROJECT_ID"
  | missingField field path =>
    "credentials are missing \"" ++ field.name ++ "\" (checked " ++ path.text ++
      " and the environment)"
  | unreadable path _ => "failed to read " ++ path.text
  | malformed path => path.text ++ " is not a valid credentials record"

def field (name : String) (store : Option String → Record → Record) :
    Json.Reader.Field Record where
  name := name
  read := do
    let value ← .optional .text
    return store value

def parse (text : String) : Except Json.Fault Record :=
  Json.Reader.readAll
    (.record
      { title := "struct CredentialsFile"
        fields :=
          [field "apiKey" fun value record ↦ { record with apiKey? := value },
            field "projectId" fun value record ↦ { record with projectId? := value },
            field "endpoint" fun value record ↦ { record with endpoint? := value }]
        initial := {}
        allowsShortLists := false })
    text

def given? (value? : Option String) : Option String :=
  value?.filter fun value ↦ !Text.isBlankText value

def either? (first? second? : Option String) : Option String :=
  (given? first?).or (given? second?)

/-- The record of a project; an empty one when there is no file. -/
def readRecord (disk : Disk) (path : Path) : Except Fault Record :=
  if disk.contains path then
    match disk.readText path with
    | .error cause => .error (.unreadable path cause)
    | .ok text =>
      match parse text with
      | .error _ => .error (.malformed path)
      | .ok record => .ok record
  else .ok {}

/-- The credentials for a project, given its root and the variables of the environment. -/
def load (disk : Disk) (environment : List (String × String)) (root : Path) :
    Except Fault Provider.Account :=
  let path := root.join ⟨fileName⟩
  (readRecord disk path).bind fun record ↦
    let apiKey? := either? (environment.lookup "LOCALISE_API_KEY") record.apiKey?
    let projectId? := either? (environment.lookup "LOCALISE_PROJECT_ID") record.projectId?
    let endpoint? := either? (environment.lookup "LOCALISE_ENDPOINT") record.endpoint?
    match apiKey?, projectId? with
    | some apiKey, some projectId => .ok ⟨apiKey, projectId, endpoint?.getD standardEndpoint⟩
    | none, none =>
      if disk.contains path then .error (.missingField .apiKey path) else .error (.notFound path)
    | none, some _ => .error (.missingField .apiKey path)
    | some _, none => .error (.missingField .projectId path)

end Phrasebook.Credentials
