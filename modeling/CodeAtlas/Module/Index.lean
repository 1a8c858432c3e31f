import CodeAtlas.Config.Basic
import CodeAtlas.Module.Analysis

/-!
Numbering of source files, and finding modules by dotted name or by file stem.
-/
namespace CodeAtlas

structure SourceFile where
  path : String
  language : String
  deriving DecidableEq, Repr, Inhabited

/-- The tags of all keywords that occur in a path, without regard to case; the
default tag if none does. -/
def HeuristicsConfig.roleTags (h : HeuristicsConfig) (path : String) : NameSet :=
  let lower := Text.toLower path
  let rows := h.roleKeywords.filter fun row => Text.contains lower (Text.toLower row.keyword)
  match rows with
  | [] => .ofList [h.defaultRole]
  | rows => .ofList (rows.map (·.tag))

/-- The records of the files, numbered from 1 in the order given. -/
def indexFiles (h : HeuristicsConfig) (files : List SourceFile) : ModuleTable :=
  .ofList <| files.zipIdx 1 |>.map fun (file, id) =>
    (file.path, .skeleton id file.path (Path.dottedName file.path) file.language
      (h.roleTags file.path))

/-- Where modules are found by name. -/
structure RepoIndex where
  /-- The path of the module with a dotted name. -/
  byDotted : Dict String := {}
  /-- The paths of modules with a file stem, in ascending order. -/
  byStem : Dict (List String) := {}
  deriving DecidableEq, Repr, Inhabited

namespace RepoIndex

/-- Add a module behind others. A dotted name stays with the module that had it
first, except that a Python module takes it from a file that does not end in
`.py`. The empty name is no name. -/
def add (index : RepoIndex) (path : String) (m : ModuleRecord) : RepoIndex :=
  let taken := match index.byDotted.get? m.dotted with
    | some holder => m.language ≠ "py" || Text.endsWith holder ".py"
    | none => false
  let stem := Path.fileStem path
  { byDotted :=
      if m.dotted = "" || taken then index.byDotted else index.byDotted.insert m.dotted path
    byStem := index.byStem.insert stem ((index.byStem.get? stem).getD [] ++ [path]) }

def build (t : ModuleTable) : RepoIndex := t.toList.foldl (fun index e => index.add e.1 e.2) {}

def pathForDotted (index : RepoIndex) (dotted : String) : Option String :=
  index.byDotted.get? dotted

def pathsForStem (index : RepoIndex) (stem : String) : List String :=
  (index.byStem.get? stem).getD []

/-- The longest leading part of `n` segments or fewer that names a module, and
the number of its segments. -/
def longestPrefixOf (index : RepoIndex) (segments : List String) : Nat → Option (String × Nat)
  | 0 => none
  | n + 1 =>
    match index.pathForDotted (Text.join "." (segments.take (n + 1))) with
    | some path => some (path, n + 1)
    | none => index.longestPrefixOf segments n

/-- The module named by the longest leading part of a dotted name, and the
number of segments of that part. -/
def longestPrefixModule (index : RepoIndex) (dotted : String) : Option (String × Nat) :=
  let segments := Text.split '.' dotted
  index.longestPrefixOf segments segments.length

def size (index : RepoIndex) : Nat := index.byDotted.size

def isEmpty (index : RepoIndex) : Bool := index.byDotted.isEmpty

end RepoIndex

end CodeAtlas
