import Phrasebook.Glob
import Phrasebook.Text.Field
import Phrasebook.Text.Line
import Phrasebook.Warning

/-!
# Ignore rules

A project may list paths whose sources are left alone, one pattern a line. Patterns are matched
against paths below the root of the project. A pattern without a slash is matched against every
name of a path, and one that ends in a slash stands for everything below that directory. Blank
lines and lines that begin with a number sign say nothing.
-/

namespace Phrasebook

/-- A pattern of the rules. -/
structure IgnorePattern where
  pattern : Glob.Pattern
  /-- Whether the pattern is matched against the single names of a path. -/
  matchesNames : Bool
deriving DecidableEq, Repr

/-- The patterns of a project. -/
structure IgnoreRules where
  patterns : List IgnorePattern
deriving DecidableEq, Repr, Inhabited

namespace IgnoreRules

/-- The name of the file that lists the patterns of a project. -/
def fileName : String :=
  ".localiseignore"

/-- A text without the marks of the current directory that it begins with. -/
def dropHere : List Char → List Char
  | '.' :: '/' :: rest => dropHere rest
  | text => text

/-- A pattern as it is matched: from the root of the project on, and with everything below a
directory. -/
def normalize (raw : List Char) : List Char :=
  let text := (dropHere raw).dropWhile (· == '/')
  if text.getLast? == some '/' then text ++ ['*', '*'] else text

def ofPattern (raw : String) : Except Glob.Fault IgnorePattern :=
  let text := normalize raw.toList
  (Glob.Pattern.parse (String.ofList text)).map fun pattern ↦ ⟨pattern, !text.contains '/'⟩

/-- The rules of a list of patterns, and a warning for each text that is no pattern. -/
def ofPatterns : List String → IgnoreRules × List Warning
  | [] => (⟨[]⟩, [])
  | raw :: rest =>
    let (rules, warnings) := ofPatterns rest
    match ofPattern raw with
    | .ok rule => (⟨rule :: rules.patterns⟩, warnings)
    | .error fault => (rules, .badIgnorePattern raw fault :: warnings)

def patternsOf (text : String) : List String :=
  let lines := (Text.lines text.toList).map Text.trimChars
  (lines.filter fun line ↦ !line.isEmpty && line.head? != some '#').map String.ofList

def parse (text : String) : IgnoreRules × List Warning :=
  ofPatterns (patternsOf text)

/-- Whether there is no rule. -/
def isEmpty (rules : IgnoreRules) : Bool :=
  rules.patterns.isEmpty

/-- Whether a rule excludes a path. A directory itself is excluded with what is below it. -/
def excludes (rule : IgnorePattern) (path : List Char) : Bool :=
  if rule.matchesNames then (Text.fields '/' path).any (Glob.matchesTokens rule.pattern.tokens)
  else
    Glob.matchesTokens rule.pattern.tokens path ||
      Glob.matchesTokens rule.pattern.tokens (path ++ ['/'])

/-- Whether the rules exclude a path below the root of the project. -/
def isIgnored (rules : IgnoreRules) (path : String) : Bool :=
  rules.patterns.any fun rule ↦ excludes rule (dropHere path.toList)

end IgnoreRules

end Phrasebook
