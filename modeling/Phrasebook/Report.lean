import Phrasebook.Conclusion
import Phrasebook.Terminal

/-!
# Reports

The lines that a command shows at its end. Issues come first, each with its place; sources that
could not be read are only counted unless more detail is asked for. Then comes the summary, then
what became of the entry file.
-/

namespace Phrasebook.Report

open Terminal

def successMark : String :=
  "✓"

def failureMark : String :=
  "✘"

/-- A number with the word for one thing or for many. -/
def counted (count : Nat) (one many : String) : String :=
  toString count ++ " " ++ if count == 1 then one else many

def files (count : Nat) : String :=
  counted count "file" "files"

def keys (count : Nat) : String :=
  counted count "key" "keys"

def warningLabel : Span :=
  .strong .yellow "warning:"

/-- A line about something that went well, all of it in green. -/
def successLine (text : String) : Line :=
  [.colored .green successMark, .plain " ", .colored .green text]

def severityWord : Severity → Span
  | .error => .strong .red Severity.error.word
  | .warning => .strong .yellow Severity.warning.word

def placeText (issue : Issue) : String :=
  match issue.line? with
  | some line => issue.path ++ ":" ++ toString line
  | none => issue.path

def issueLines (issue : Issue) : List Line :=
  [[severityWord issue.severity, .plain (": " ++ issue.message ++ "  "),
      .faint .cyan issue.rule],
    [.plain "  ", .colored .blue "-->", .plain (" " ++ placeText issue)],
    []]

/-- Whether an issue is a source that could not be read. -/
def isUnreadable : Issue → Bool
  | .unreadable _ _ => true
  | _ => false

/-- The line that counts the sources that could not be read. -/
def unreadableLine (count : Nat) : Line :=
  [warningLabel, .plain (" " ++ files count ++ " could not be parsed (use "),
    .colored .cyan "-v", .plain " for details)"]

def issuesLines (detailed : Bool) (issues : List Issue) : List Line :=
  if detailed then issues.flatMap issueLines
  else
    let hidden := issues.countP isUnreadable
    (issues.filter fun issue ↦ !isUnreadable issue).flatMap issueLines ++
      if hidden == 0 then [] else [unreadableLine hidden]

def registrationLine (dryRun : Bool) : Entry.Outcome → Line
  | .noEntryFile => [warningLabel, .plain " no entry file found, locales not registered"]
  | .unchanged path =>
    [.colored .green successMark, .plain (" " ++ path.text ++ " already registers every locale")]
  | .updated path locales =>
    [if dryRun then .strong .yellow "Would update" else .strong .green "Updated",
      .plain (" " ++ path.text ++ " (" ++ ", ".intercalate locales ++ ")")]

/-- The line for an entry file that could not be updated. -/
def registrationErrorLine (reason : String) : Line :=
  [warningLabel, .plain (" entry file not updated: " ++ reason)]

/-- The lines for what became of the entry file after another task. -/
def registrationLines (outcome? : Option Entry.Outcome) (error? : Option String) : List Line :=
  (outcome?.map (registrationLine false)).toList ++ (error?.map registrationErrorLine).toList

def dryRunLine (purpose : String) : Line :=
  [.plain "Run without ", .colored .cyan "--dry-run", .plain (" to " ++ purpose ++ ".")]

def extractionLines (report : ExtractionReport) (dryRun : Bool) : List Line :=
  if report.updatedFiles.isEmpty then
    [successLine ("Scanned " ++ files report.filesScanned ++ " - nothing to replace")]
  else
    [[if dryRun then .strong .yellow "Would replace" else .strong .green "Replaced",
        .plain (" " ++ counted report.replacements "string" "strings" ++ " in " ++
          files report.updatedFiles.length ++ " (" ++ keys report.newKeys ++ " added):")]] ++
      report.updatedFiles.map (fun file ↦ [.plain ("  - " ++ file)]) ++
      if dryRun then [dryRunLine "write these changes"] else []

def localeOutcome : LocaleOutcome → Span × String
  | .upToDate => (.colored .green successMark, "up to date")
  | .wouldTranslate missing => (.colored .yellow "~", keys missing ++ " to translate")
  | .translated translated 0 => (.colored .green successMark, "translated " ++ keys translated)
  | .translated translated failed =>
    (.colored .yellow failureMark,
      "translated " ++ keys translated ++ ", " ++ toString failed ++ " failed")
  | .failed reason => (.colored .red failureMark, reason)

def localeLine (report : LocaleReport) : Line :=
  let (mark, text) := localeOutcome report.outcome
  [mark, .plain " ", .bold report.locale, .plain (": " ++ text)]

def syncLines (report : SyncReport) (dryRun : Bool) : List Line :=
  report.locales.map localeLine ++ if dryRun then [dryRunLine "translate"] else []

def problemsLine (issues : List Issue) : Line :=
  let errors := issues.countP Issue.isError
  [.colored .red failureMark,
    .plain (" " ++ counted issues.length "problem" "problems" ++ " ("),
    .colored .red (counted errors "error" "errors"), .plain ", ",
    .colored .yellow (counted (issues.length - errors) "warning" "warnings"), .plain ")"]

/-- The line for the texts that are not looked up yet. -/
def pendingLine (count : Nat) : Line :=
  [.plain ("note: " ++ counted count "string is" "strings are" ++ " still hardcoded (run "),
    .colored .cyan "localise replace", .plain ")"]

def checkLines (report : CheckReport) (issues : List Issue) : List Line :=
  (if issues.isEmpty then
      successLine ("Checked " ++ files report.filesScanned ++ " against " ++
        keys report.catalogKeys ++ " - no issues found")
    else problemsLine issues) ::
    if report.pending == 0 then [] else [pendingLine report.pending]

/-- The lines for a conclusion. A check always shows its issues in full. -/
def lines (detailed : Bool) (conclusion : Conclusion) : List Line :=
  match conclusion.summary with
  | .replaced report dryRun registration? error? =>
    issuesLines detailed conclusion.issues ++ extractionLines report dryRun ++
      registrationLines registration? error?
  | .translated report dryRun =>
    syncLines report dryRun ++ registrationLines report.registration? report.registrationError?
  | .registered outcome dryRun => [registrationLine dryRun outcome]
  | .checked report => issuesLines true conclusion.issues ++ checkLines report conclusion.issues
  | .aborted message => [[.colored .red failureMark, .plain (" " ++ message)]]

def render (detailed colors : Bool) (conclusion : Conclusion) : String :=
  Terminal.render colors (lines detailed conclusion)

end Phrasebook.Report
