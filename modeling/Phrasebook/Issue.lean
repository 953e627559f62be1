/-!
# Issues

What a command finds wrong with a source: a lookup of a key that the catalog lacks, a source that
cannot be read, or one that could not be saved. Issues are reported in the order of their files,
and within a file by line.
-/

namespace Phrasebook

/-- Something wrong with a source, given by its path below the root of the project. -/
inductive Issue where
  | unreadable (path reason : String)
  | unknownKey (path : String) (line : Nat) (key : String)
  | unwritable (path reason : String)
deriving DecidableEq, Repr

/-- How bad an issue is. -/
inductive Severity where
  | error
  | warning
deriving DecidableEq, Repr

def Severity.word : Severity → String
  | error => "error"
  | warning => "warning"

namespace Issue

/-- How bad an issue is: a key without a text is a warning, a source that is left out an error. -/
def severity : Issue → Severity
  | unreadable _ _ => .error
  | unknownKey _ _ _ => .warning
  | unwritable _ _ => .error

def isError (issue : Issue) : Bool :=
  issue.severity == .error

/-- The name of the rule that an issue breaks. -/
def rule : Issue → String
  | unreadable _ _ => "parse-error"
  | unknownKey _ _ _ => "unknown-key"
  | unwritable _ _ => "write-error"

def path : Issue → String
  | unreadable path _ => path
  | unknownKey path _ _ => path
  | unwritable path _ => path

def line? : Issue → Option Nat
  | unknownKey _ line _ => some line
  | _ => none

def message : Issue → String
  | unreadable _ reason => "Failed to parse: " ++ reason
  | unknownKey _ _ key => "Key \"" ++ key ++ "\" is not in the source catalog"
  | unwritable _ reason => "Failed to write: " ++ reason

/-- The place of a kind of issue among the issues of one line. -/
def rank : Issue → Nat
  | unknownKey _ _ _ => 0
  | unreadable _ _ => 1
  | unwritable _ _ => 2

/-- The number that orders the lines of a file; an issue without a line comes first. -/
def lineKey (issue : Issue) : Nat :=
  match issue.line? with
  | none => 0
  | some line => line + 1

/-- Whether an issue does not come after another one: by path, line and kind. -/
def precedes (first second : Issue) : Bool :=
  first.path < second.path ||
    (first.path == second.path &&
      (first.lineKey < second.lineKey ||
        (first.lineKey == second.lineKey && first.rank ≤ second.rank)))

/-- Whether an issue does not come after another one by path and line alone. -/
def precedesByPlace (first second : Issue) : Bool :=
  first.path < second.path || (first.path == second.path && first.lineKey ≤ second.lineKey)

end Issue

end Phrasebook
