import CodeAtlas.Files.Filter
import CodeAtlas.Files.Ignore
import CodeAtlas.Module.Index

/-!
Finding the source files below a directory.

An entry is seen if neither it nor a directory on the way to it is left out.
Links are neither followed nor files.
-/
namespace CodeAtlas

structure WalkOutcome where
  /-- The source files in ascending order of paths. -/
  files : List SourceFile
  /-- The languages of all files that are seen, in ascending order. -/
  languages : List String
  deriving DecidableEq, Repr, Inhabited

namespace Walk

/-- The ignore files below the root of a walk, those in deeper directories
first. -/
def ignoreFiles (c : ScanningConfig) (d : Disk) (root : List String) : List IgnoreFiles :=
  let below := (d.entriesBelow root).filterMap fun (steps, e) =>
    if e = .directory then some steps else none
  let found := (([] :: below).map (IgnoreFiles.read c d root)).filter (!·.isEmpty)
  found.mergeSort fun a b => b.directory.length ≤ a.directory.length

/-- The non-empty leading parts of steps. -/
def ways (steps : List String) : List (List String) :=
  (List.range steps.length).map fun n => steps.take (n + 1)

/-- Whether a file is seen: neither it nor a directory above it is left out. -/
def sees (c : ScanningConfig) (files : List IgnoreFiles) (steps : List String) : Bool :=
  (ways steps).all fun way => !c.leavesOut files way (way.length < steps.length)

/-- The files that are seen, with the steps to them. -/
def seenFiles (c : ScanningConfig) (d : Disk) (root : List String) :
    List (List String × List UInt8) :=
  let rules := ignoreFiles c d root
  (d.entriesBelow root).filterMap fun (steps, e) =>
    match e with
    | .file content => if sees c rules steps then some (steps, content) else none
    | _ => none

/-- Whether a file looks like no text: there is a NUL among its first bytes. -/
def looksBinary (c : ScanningConfig) (content : List UInt8) : Bool :=
  (content.take c.binarySniffBytes).contains 0

def sources (c : ScanningConfig) (d : Disk) (root : List String) : List (SourceFile × List UInt8) :=
  (seenFiles c d root).filterMap fun (steps, content) => do
    let path := Text.join "/" steps
    let language ← c.languageFor (← Path.extension? path)
    some (⟨path, language⟩, content)

def outcome (c : ScanningConfig) (f : PathFilter) (found : List (SourceFile × List UInt8)) :
    WalkOutcome where
  files :=
    (found.filter fun (file, content) => f.accepts file.path && !looksBinary c content).map (·.1)
  languages :=
    match (NameSet.ofList (found.map (·.1.language))).toList with
    | [] => ["unknown"]
    | tags => tags

end Walk

inductive RootError where
  | notFound (path : String)
  | notADirectory (path : String)
  deriving DecidableEq, Repr, Inhabited

def RootError.message : RootError → String
  | .notFound path => s!"Root path does not exist: {path}"
  | .notADirectory path => s!"Root path is not a directory: {path}"

def Disk.root (d : Disk) (path : String) : Except RootError (List String) :=
  match d.locate path with
  | .error _ => .error (.notFound path)
  | .ok place =>
    match d.entryAt place with
    | none => .error (.notFound path)
    | some .directory => .ok place
    | some _ => .error (.notADirectory path)

def Disk.walk (d : Disk) (c : ScanningConfig) (f : PathFilter) (path : String) :
    Except RootError WalkOutcome :=
  (d.root path).map fun root => Walk.outcome c f (Walk.sources c d root)

end CodeAtlas
