import CodeAtlas.Engine.Link
import CodeAtlas.Engine.Scan
import CodeAtlas.Error

/-!
Whole analyses: walking a directory, both passes over the modules, and the
check of the result.

An engine keeps texts of files from one analysis to the next, so every
operation gives back the engine as well.
-/
namespace CodeAtlas

structure Engine where
  config : Config
  cache : ContentCache
  deriving DecidableEq, Repr, Inhabited

/-- A directory to be analyzed, and patterns that select its files. -/
structure Request where
  root : String
  includePattern : Option String := none
  excludePattern : Option String := none
  deriving DecidableEq, Repr, Inhabited

namespace Engine

def ofConfig (config : Config) : Engine := ⟨config, { capacity := config.performance.cacheSize }⟩

def find (e : Engine) (d : Disk) (r : Request) : Except Error WalkOutcome := do
  let _ ← (d.root r.root).mapError .root
  let filter ← (PathFilter.ofPatterns r.includePattern r.excludePattern).mapError .pattern
  (d.walk e.config.scanning filter r.root).mapError .root

/-- The first pass: find, number and read the modules. There are no edges yet. -/
def analyze (e : Engine) (d : Disk) (r : Request) : Except Error Analysis × Engine :=
  match e.find d r with
  | .error cause => (.error cause, e)
  | .ok found =>
    let skeletons := indexFiles e.config.heuristics found.files
    let (modules, cache) := Scan.table e.config d r.root e.cache skeletons
    (.ok ⟨modules, found.languages⟩, { e with cache })

/-- The second pass over an analysis that the caller holds: replace the edges
of all modules that were understood. The analysis comes back beside the answer,
after an error as well. -/
def relink (e : Engine) (d : Disk) (root : String) (a : Analysis) :
    Except Error Unit × Analysis × Engine :=
  match d.root root with
  | .error cause => (.error (.root cause), a, e)
  | .ok _ =>
    let (modules, cache) := Link.table d root e.cache a.modules
    (.ok (), { a with modules }, { e with cache })

/-- The analysis that the second pass makes of another one. -/
def resolveCalls (e : Engine) (d : Disk) (root : String) (a : Analysis) :
    Except Error Analysis × Engine :=
  let (answer, a, e) := e.relink d root a
  (answer.map fun _ => a, e)

/-- The analysis if its parts fit together, else the first error. -/
def checked (a : Analysis) : Except Error Analysis :=
  match a.validate with
  | [] => .ok a
  | cause :: _ => .error (.validation cause)

/-- Both passes and the check of the result. -/
def run (e : Engine) (d : Disk) (r : Request) : Except Error Analysis × Engine :=
  match e.analyze d r with
  | (.error cause, e) => (.error cause, e)
  | (.ok a, e) =>
    match e.resolveCalls d r.root a with
    | (.error cause, e) => (.error cause, e)
    | (.ok a, e) => (checked a, e)

/-- Both passes within the seconds that the settings allow. No analysis is
done in no time at all. -/
def runWithDeadline (e : Engine) (d : Disk) (r : Request) : Except Error Analysis × Engine :=
  match e.config.performance.timeoutSecs with
  | some 0 => (.error (.timeout 0), e)
  | _ => e.run d r

end Engine

/-- The first pass with the default settings and nothing kept. -/
def analyze (d : Disk) (r : Request) : Except Error Analysis := ((Engine.ofConfig {}).analyze d r).1

/-- The second pass with the default settings and nothing kept. -/
def resolveCalls (d : Disk) (root : String) (a : Analysis) : Except Error Analysis :=
  ((Engine.ofConfig {}).resolveCalls d root a).1

end CodeAtlas
