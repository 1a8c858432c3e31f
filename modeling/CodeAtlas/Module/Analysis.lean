import CodeAtlas.Module.Record

/-!
The result of an analysis: the records of all modules by path, and counts over
them.
-/
namespace CodeAtlas

/-- The records of all modules, by path. -/
abbrev ModuleTable := Dict ModuleRecord

structure Analysis where
  modules : ModuleTable := {}
  /-- The language tags found under the root, in ascending order. -/
  languages : List String := []
  deriving DecidableEq, Repr, Inhabited

structure AnalysisStats where
  modules : Nat
  symbols : Nat
  calls : Nat
  imports : Nat
  dataShapes : Nat
  errors : Nat
  routes : Nat
  patternFlags : Nat
  languages : Nat
  /-- Modules of a language that can be parsed whose text was not understood. -/
  unparsed : Nat
  deriving DecidableEq, Repr, Inhabited

namespace Analysis

/-- The first module with a number. -/
def moduleById (a : Analysis) (id : ModuleId) : Option ModuleRecord :=
  a.modules.values.find? (·.id = id)

end Analysis

/-- The last module with a number, which is the one that a table keyed by
number holds. -/
def ModuleTable.byId (t : ModuleTable) (id : ModuleId) : Option ModuleRecord :=
  t.values.reverse.find? (·.id = id)

namespace Analysis

/-- The modules by number, in ascending order of numbers; of several with one
number the last. -/
def idTable (a : Analysis) : List (ModuleId × ModuleRecord) :=
  let ids := (a.modules.values.map (·.id)).eraseDups.mergeSort
  ids.filterMap fun id => (a.modules.byId id).map (id, ·)

def count (a : Analysis) (f : ModuleRecord → Nat) : Nat :=
  a.modules.values.foldl (fun n m => n + f m) 0

def totalCalls (a : Analysis) : Nat := a.count (·.calls.length)

def stats (a : Analysis) : AnalysisStats where
  modules := a.modules.size
  symbols := a.count (·.symbols.length)
  calls := a.totalCalls
  imports := a.count (·.importPaths.size)
  dataShapes := a.count (·.dataShapes.length)
  errors := a.count (·.errors.length)
  routes := a.count (·.routes.length)
  patternFlags := a.count (·.patternFlags.length)
  languages := a.languages.length
  unparsed := a.count fun m => if !m.parsed && m.language = "py" then 1 else 0

end Analysis

def AnalysisStats.summary (s : AnalysisStats) : String :=
  s!"{s.modules} modules, {s.symbols} symbols, {s.calls} calls, {s.imports} imports, " ++
    s!"{s.dataShapes} data shapes, {s.errors} errors, {s.routes} routes, " ++
    s!"{s.patternFlags} pattern flags"

end CodeAtlas
