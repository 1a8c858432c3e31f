import CodeAtlas.Config.Basic
import CodeAtlas.Files.Disk
import CodeAtlas.Files.Glob

/-!
Files that list what to leave out of a walk.

A line is a pattern for the entries below the directory of its file. A later
line goes before an earlier one, and a file in a deeper directory goes before
one of the same kind further up. Git's own ignore files do not reach into a
repository further down.
-/
namespace CodeAtlas

structure IgnoreRule where
  glob : Glob
  /-- Whether the line brings entries back. -/
  negated : Bool
  directoriesOnly : Bool
  deriving Repr, Inhabited

namespace IgnoreRule

/-- A line without blanks at the end, unless the last of them is escaped. -/
def trimEnd (line : List Char) : List Char :=
  if line.reverse.take 2 = [' ', '\\'] then line else (line.reverse.dropWhile Text.isBlank).reverse

/-- A pattern without a slash speaks of entries at any depth, and one that
ends in `/**` not of the directory itself. -/
def actualPattern (anchored : Bool) (pattern : List Char) : List Char :=
  let deep := !anchored && !pattern.contains '/' && pattern != ['*', '*']
  let actual := if deep then '*' :: '*' :: '/' :: pattern else pattern
  if ['/', '*', '*'].isSuffixOf actual then actual ++ ['/', '*'] else actual

/-- The rule of what is left of a line behind marks at its start. -/
def ofPattern (negated anchored : Bool) (pattern : List Char) : Option IgnoreRule :=
  let directoriesOnly := pattern.getLast? = some '/'
  let pattern := if directoriesOnly then pattern.dropLast else pattern
  let pattern :=
    if directoriesOnly && pattern.getLast? = some '\\' then pattern.dropLast else pattern
  match Glob.parse (String.ofList (actualPattern anchored pattern)) with
  | .ok glob => some { glob, negated, directoriesOnly }
  | .error _ => none

/-- The rule of a line; comments, empty lines and bad patterns are none. -/
def ofLine (line : List Char) : Option IgnoreRule :=
  match line with
  | '#' :: _ => none
  | line =>
    match trimEnd line with
    | [] => none
    | '\\' :: '!' :: rest => ofPattern false false ('!' :: rest)
    | '\\' :: '#' :: rest => ofPattern false false ('#' :: rest)
    | '!' :: '/' :: rest => ofPattern true true rest
    | '!' :: rest => ofPattern true false rest
    | '/' :: rest => ofPattern false true rest
    | rest => ofPattern false false rest

/-- The rules of a file. Reading ends at a line that is no text. -/
def ofFile (content : List UInt8) : List IgnoreRule :=
  let lines := Text.cutWhere (· == 10) content
  let ended := lines.dropLast.map fun l => if l.getLast? = some 13 then l.dropLast else l
  let texts := (ended ++ lines.drop ended.length).map Utf8.decode?
  let texts := (texts.takeWhile (·.isSome)).map fun t => (t.getD "").toList
  let texts := match texts with
    | [] => []
    | first :: rest => first.dropWhile (· = '\ufeff') :: rest
  texts.filterMap ofLine

/-- Whether the rule speaks of an entry, by the steps to it from the directory
of the rule. -/
def applies (r : IgnoreRule) (steps : List String) (isDirectory : Bool) : Bool :=
  (isDirectory || !r.directoriesOnly) &&
    Glob.matchesBytes true r.glob.tokens (Text.join "/" steps).toUTF8.toList

end IgnoreRule

/-- What a list of rules says of an entry: `some true` to leave it out,
`some false` to bring it back. -/
def ignoreVerdict (rules : List IgnoreRule) (steps : List String) (isDirectory : Bool) :
    Option Bool :=
  (rules.reverse.find? (·.applies steps isDirectory)).map (!·.negated)

/-- The rules in a directory, by the kinds of files they come from. A kind goes
before those behind it. -/
structure IgnoreFiles where
  /-- The steps to the directory from the root of the walk. -/
  directory : List String
  /-- Whether the directory is a git repository of its own. -/
  isRepository : Bool
  kinds : List (List IgnoreRule)
  deriving Repr, Inhabited

/-- The names of the ignore files that are not git's, the strongest first. -/
def ScanningConfig.plainIgnoreNames (c : ScanningConfig) : List String := [c.ignoreFile, ".ignore"]

/-- The names of git's ignore files, the strongest first. -/
def ScanningConfig.gitIgnoreNames (c : ScanningConfig) : List String :=
  if c.respectGitignore then [".gitignore", ".git/info/exclude"] else []

/-- The names of the ignore files in a directory, the strongest first. -/
def ScanningConfig.ignoreNames (c : ScanningConfig) : List String :=
  c.plainIgnoreNames ++ c.gitIgnoreNames

namespace IgnoreFiles

def read (c : ScanningConfig) (d : Disk) (root directory : List String) : IgnoreFiles where
  directory := directory
  isRepository := d.pathExists ("/" ++ Disk.key (root ++ directory ++ [".git"]))
  kinds := c.ignoreNames.map fun name =>
    match d.read ("/" ++ Disk.key (root ++ directory ++ [name])) with
    | .ok content => IgnoreRule.ofFile content
    | .error _ => []

/-- Whether there is nothing to be known about the directory. -/
def isEmpty (f : IgnoreFiles) : Bool := !f.isRepository && f.kinds.all (·.isEmpty)

def covers (f : IgnoreFiles) (steps : List String) : Bool :=
  f.directory.isPrefixOf steps && f.directory.length < steps.length

def verdict (f : IgnoreFiles) (kind : Nat) (steps : List String) (isDirectory : Bool) :
    Option Bool :=
  if f.covers steps then
    ignoreVerdict ((f.kinds[kind]?).getD []) (steps.drop f.directory.length) isDirectory
  else none

end IgnoreFiles

/-- The ignore files that git looks at for an entry: those from its directory
up to the repository that it is in. They are given with deeper directories
first. -/
def IgnoreFiles.withinRepository (files : List IgnoreFiles) (steps : List String) :
    List IgnoreFiles :=
  let above := files.filter (·.covers steps)
  above.take ((above.takeWhile (!·.isRepository)).length + 1)

/-- Whether a walk leaves out an entry, by the steps to it from the root of the
walk. The ignore files are given with deeper directories first. Without any
rule about it, a hidden entry is left out unless hidden ones are asked for. -/
def ScanningConfig.leavesOut (c : ScanningConfig) (files : List IgnoreFiles) (steps : List String)
    (isDirectory : Bool) : Bool :=
  let byKind := (List.range c.ignoreNames.length).findSome? fun kind =>
    let files :=
      if kind < c.plainIgnoreNames.length then files else IgnoreFiles.withinRepository files steps
    files.findSome? fun f => f.verdict kind steps isDirectory
  match byKind with
  | some verdict => verdict
  | none =>
    !c.includeHidden && ((steps.getLast?.map fun name => Text.startsWith name ".").getD false)

end CodeAtlas
