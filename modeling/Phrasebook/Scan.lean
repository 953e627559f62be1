import Phrasebook.Ignore
import Phrasebook.Session

/-!
# Scanning for sources

Which files of a project are sources: the files below the source root, or below the directories
that the settings name, with one of the extensions of sources. Installed packages, declaration
files and everything that a pattern excludes are left out. Sources are listed in the order of
their paths, each once.
-/

namespace Phrasebook

namespace Glob

/-- What lies below a directory at any depth, in order: the names on the way and what is there. -/
def descendants (disk : Disk) (directory : Path) : List (List String) :=
  match disk.locate directory with
  | .error _ => []
  | .ok place =>
    let below := disk.nodes.filterMap fun (other, _) ↦ Disk.namesBelow? place other
    (below.filter fun names ↦ !names.isEmpty).mergeSort fun first second ↦ !second.lex first

/-- A path below a directory; below the current directory only its names are written. -/
def extend (directory : Path) (name : String) : Path :=
  if directory.text == "." then ⟨name⟩ else directory.join ⟨name⟩

/-- A path below a directory, through several names. -/
def extendAll (directory : Path) (names : List String) : Path :=
  names.foldl extend directory

/-- Whether a text stands for the current or the parent directory. -/
def isStep (text : String) : Bool :=
  text == "." || text == ".."

/-- The steps to the current and the parent directory that a pattern describes. It has to begin
with a dot itself. -/
def stepsOf (pattern : Pattern) : List String :=
  if pattern.tokens.head? == some (.char '.') then
    [".", ".."].filter fun text ↦ pattern.isMatch text
  else []

/-- The paths that the patterns between the slashes of a pattern lead to from a directory. -/
def expandFrom (disk : Disk) : List Pattern → Path → List Path
  | [], path => [path]
  | pattern :: rest, path =>
    match pattern.plainText? with
    | some text =>
      let next := extend path text
      let isThere := if isStep text then disk.isDirectory path else disk.contains next
      if isThere then expandFrom disk rest next else []
    | none =>
      if !disk.isDirectory path then []
      else if pattern.tokens == [.directories] then
        (descendants disk path).flatMap fun names ↦ expandBelow disk rest (extendAll path names)
      else
        let names := match disk.list path with
          | .ok names => names.filter fun name ↦ pattern.isMatch name
          | .error _ => []
        (names ++ stepsOf pattern).flatMap fun name ↦ expandFrom disk rest (extend path name)
where
  /-- The paths that patterns lead to from something below any number of directories, which the
  first pattern that is not for directories has to describe. -/
  expandBelow (disk : Disk) : List Pattern → Path → List Path
    | [], path => [path]
    | pattern :: rest, path =>
      if pattern.tokens == [.directories] then expandBelow disk rest path
      else if (path.fileName?.map pattern.isMatch).getD false then expandFrom disk rest path
      else []

/-- The texts between the slashes of a pattern, without the root and without the empty text
behind a last slash. -/
def partsOf (text : String) : List String :=
  let chars := text.toList
  let relative := if chars.head? == some '/' then chars.tail else chars
  let parts := (Text.fields '/' relative).map String.ofList
  if parts.getLast? == some "" then parts.dropLast else parts

def expandDirectories (disk : Disk) (text : String) : Except Fault (List Path) :=
  (Pattern.parse text).bind fun _ ↦
    ((partsOf text).mapM Pattern.parse).map fun patterns ↦
      let start : Path := if (Path.mk text).isAbsolute then ⟨"/"⟩ else ⟨"."⟩
      (expandFrom disk patterns start).filter disk.isDirectory

end Glob

namespace Scan

/-- What to look through, and what to leave out. -/
structure Options where
  projectRoot : Path
  sourceRoot : Path
  /-- Directories below the source root that are looked through instead of it. -/
  includes : List String
  /-- Patterns for whole paths. -/
  ignores : List String
  /-- Rules for paths below the root of the project. -/
  rules : IgnoreRules

/-- The sources that were found, in order, and what was noticed on the way. -/
structure Found where
  files : List Path
  warnings : List Warning
  /-- The number of paths that could not be looked at. -/
  skipped : Nat

def packagesName : String :=
  "node_modules"

/-- Whether a path names a directory of installed packages. -/
def isPackages (path : Path) : Bool :=
  path.fileName?.getD path.text == packagesName

/-- The files below a path, installed packages left out. A file is below itself. -/
def filesBelow (disk : Disk) (path : Path) : Except Disk.Fault (List Path) :=
  (disk.find path).map fun node ↦
    if isPackages path then []
    else
      match node with
      | .file _ => [path]
      | .directory =>
        let kept := (Glob.descendants disk path).filter fun names ↦ !names.contains packagesName
        (kept.map fun names ↦ names.foldl (fun base name ↦ base.join ⟨name⟩) path).filter
          disk.isFile

def extensions : List String :=
  ["tsx", "ts", "jsx", "js"]

def declarationEnd : String :=
  ".d.ts"

def isSource (path : Path) : Bool :=
  let declares :=
    (path.fileName?.map fun name ↦ declarationEnd.toList.isSuffixOf name.toList).getD false
  !declares && (path.extension?.map extensions.contains).getD false

def isExcluded (options : Options) (patterns : List Glob.Pattern) (path : Path) : Bool :=
  let whole := path.slashed
  let relative := ((path.relativeTo? options.projectRoot).map Path.slashed).getD whole
  (patterns.any fun pattern ↦ pattern.isMatch whole || pattern.isMatch relative) ||
    options.rules.isIgnored relative

/-- The patterns among texts, and a warning for each of the others. -/
def patternsOf : List String → List Glob.Pattern × List Warning
  | [] => ([], [])
  | text :: rest =>
    let (patterns, warnings) := patternsOf rest
    match Glob.Pattern.parse text with
    | .ok pattern => (pattern :: patterns, warnings)
    | .error fault => (patterns, .badIgnoredPath text fault :: warnings)

def directoriesOf (disk : Disk) (options : Options) (text : String) :
    List Path × List Warning :=
  let path := options.sourceRoot.join ⟨text⟩
  if Glob.hasWildcard text then
    match Glob.expandDirectories disk path.text with
    | .ok directories => (directories, [])
    | .error fault => ([], [.badInclude text fault])
  else if disk.contains path then ([path], [])
  else ([], [.missingInclude path])

def directories (disk : Disk) (options : Options) : List Path × List Warning :=
  if options.includes.isEmpty then ([options.sourceRoot], [])
  else
    let found := options.includes.map (directoriesOf disk options)
    (found.flatMap Prod.fst, found.flatMap Prod.snd)

/-- Paths in order, with one put in unless it is there already. -/
def insertPath (path : Path) : List Path → List Path
  | [] => [path]
  | first :: rest =>
    if path.sameAs first then first :: rest
    else if path.precedes first then path :: first :: rest
    else first :: insertPath path rest

/-- What was found so far, with the sources below one more directory. -/
def addDirectory (disk : Disk) (options : Options) (patterns : List Glob.Pattern)
    (found : Found) (directory : Path) : Found :=
  match filesBelow disk directory with
  | .error fault =>
    { found with
      warnings := found.warnings ++ [.inaccessible directory fault]
      skipped := found.skipped + 1 }
  | .ok files =>
    let sources := files.filter fun path ↦
      isSource path && !isExcluded options patterns path
    { found with files := sources.foldl (fun known path ↦ insertPath path known) found.files }

/-- The sources of a project. -/
def files (disk : Disk) (options : Options) : Found :=
  let (patterns, badPatterns) := patternsOf options.ignores
  let (directories, badIncludes) := directories disk options
  directories.foldl (addDirectory disk options patterns) ⟨[], badPatterns ++ badIncludes, 0⟩

end Scan

end Phrasebook
