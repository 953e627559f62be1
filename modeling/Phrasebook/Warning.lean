import Phrasebook.Disk
import Phrasebook.Glob
import Phrasebook.Json.Value

/-!
# Warnings

What a command tells its user while it goes on. A warning is its cause; the line that is shown is
derived from it.
-/

namespace Phrasebook

/-- Something that a command notices and goes on after. -/
inductive Warning where
  /-- A line of the ignore file is no pattern. -/
  | badIgnorePattern (pattern : String) (fault : Glob.Fault)
  /-- A text among the ignored paths of the settings is no pattern. -/
  | badIgnoredPath (pattern : String) (fault : Glob.Fault)
  | badInclude (pattern : String) (fault : Glob.Fault)
  | missingInclude (path : Path)
  | inaccessible (path : Path) (fault : Disk.Fault)
  | pathsSkipped (count : Nat)
  /-- A value of a catalog is no text. -/
  | valuePassedOver (key : String) (value : Json.Value)
  | noHookSite (path : Path)
  | fileSkipped (path : String) (fault : Disk.Fault)
  | sourceSkipped (path : String)
  | unknownKey (path key : String)
  | sourceLocaleSkipped (locale : String)
  | localeFailed (locale reason : String)
  | answersMissing (locale : String) (count : Nat)
  | batchFailed (locale : String) (count : Nat) (reason : String)
  | noEntryFile (candidates : List String)
  | callLeftAlone (function : String)
  | registrationFailed (reason : String)

namespace Warning

def describe : Warning → String
  | badIgnorePattern pattern fault =>
    "invalid ignore pattern pattern=" ++ Text.quoted pattern ++ " error=" ++ fault.describe
  | badIgnoredPath pattern fault =>
    "Invalid ignore pattern '" ++ pattern ++ "': " ++ fault.describe
  | badInclude pattern fault => "Invalid glob pattern '" ++ pattern ++ "': " ++ fault.describe
  | missingInclude path => "Include path does not exist: " ++ path.text
  | inaccessible path fault =>
    "Cannot access path: IO error for operation on " ++ path.text ++ ": " ++ fault.describe
  | pathsSkipped count => toString count ++ " path(s) skipped due to access errors"
  | valuePassedOver key value =>
    "ignoring non-string catalog value key=" ++ key ++ " value=" ++ value.render
  | noHookSite path =>
    "no function body for \x60const t = useT()\x60, importing \x60t\x60 instead file=" ++ path.text
  | fileSkipped path fault => "skipping " ++ path ++ ": " ++ fault.describe
  | sourceSkipped path => "skipping " ++ path ++ ": failed to parse"
  | unknownKey path key => path ++ ": unknown key \"" ++ key ++ "\""
  | sourceLocaleSkipped locale => "skipping " ++ locale ++ ": it is the source locale"
  | localeFailed locale reason => locale ++ ": " ++ reason
  | answersMissing locale count =>
    locale ++ ": " ++ toString count ++ " key(s) came back missing or empty"
  | batchFailed locale count reason =>
    locale ++ ": batch of " ++ toString count ++ " key(s) failed: " ++ reason
  | noEntryFile candidates =>
    "no entry file found (looked for " ++ ", ".intercalate candidates ++ ")"
  | callLeftAlone function =>
    function ++ " is not called with an object literal, leaving it alone"
  | registrationFailed reason => "entry injection failed: " ++ reason

end Warning

end Phrasebook
