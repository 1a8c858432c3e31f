import CodeAtlas.Module.Analysis

/-!
Checking that the parts of an analysis fit together.
-/
namespace CodeAtlas

inductive ValidationError where
  | nonPositiveModuleId (id : ModuleId) (path : String)
  | duplicateModuleId (id : ModuleId) (first second : String)
  | duplicateSymbolId (path : String) (symbol : SymbolId)
  | foreignSymbol (path : String) (symbol : SymbolId) (claimed : ModuleId)
  | unknownTargetModule (path : String) (module : ModuleId)
  | unknownTargetSymbol (path : String) (module : ModuleId) (symbol : SymbolId)
  | unknownCaller (path : String) (caller : SymbolId)
  | propertyTarget (path : String) (module : ModuleId) (symbol : SymbolId)
  deriving DecidableEq, Repr, Inhabited

def ValidationError.message : ValidationError → String
  | .nonPositiveModuleId id path => s!"module id {id} is not positive ({path})"
  | .duplicateModuleId id first second => s!"module id {id} is used by both {first} and {second}"
  | .duplicateSymbolId path symbol => s!"symbol id {symbol} appears more than once in {path}"
  | .foreignSymbol path symbol claimed => s!"symbol {symbol} in {path} claims module {claimed}"
  | .unknownTargetModule path module => s!"edge from {path} targets unknown module {module}"
  | .unknownTargetSymbol path module symbol =>
    s!"edge from {path} targets unknown symbol {symbol} in module {module}"
  | .unknownCaller path caller => s!"edge in {path} has unknown caller symbol {caller}"
  | .propertyTarget path module symbol =>
    s!"edge from {path} targets property symbol {symbol} in module {module}"

namespace Analysis

/-- Errors in the symbols of a module, given the numbers of the symbols in
front. -/
def symbolErrors (path : String) (module : ModuleId) :
    List SymbolId → List Symbol → List ValidationError
  | _, [] => []
  | seen, s :: rest =>
    (if s.id ∈ seen then [.duplicateSymbolId path s.id] else []) ++
      (if s.moduleId = module then [] else [.foreignSymbol path s.id s.moduleId]) ++
      symbolErrors path module (s.id :: seen) rest

/-- Errors in the numbers of modules and symbols, given the modules in front,
the nearest first. -/
def identityErrors :
    List (String × ModuleRecord) → List (String × ModuleRecord) → List ValidationError
  | _, [] => []
  | seen, (path, m) :: rest =>
    (if m.id = 0 then [.nonPositiveModuleId m.id path] else []) ++
      (match seen.find? (·.2.id = m.id) with
        | some (first, _) => [.duplicateModuleId m.id first path]
        | none => []) ++
      symbolErrors path m.id [] m.symbols ++
      identityErrors ((path, m) :: seen) rest

def edgeErrors (t : ModuleTable) (path : String) (m : ModuleRecord) (e : CallEdge) :
    List ValidationError :=
  (if (m.symbol? e.caller).isNone then [.unknownCaller path e.caller] else []) ++
    match t.byId e.targetModule with
    | none => [.unknownTargetModule path e.targetModule]
    | some target =>
      if e.isModuleAnchor then []
      else match target.symbol? e.targetSymbol with
        | none => [.unknownTargetSymbol path e.targetModule e.targetSymbol]
        | some s =>
          if s.isProperty then [.propertyTarget path e.targetModule e.targetSymbol] else []

/-- All errors of an analysis: first those in numbers, then those in edges, by path. -/
def validate (a : Analysis) : List ValidationError :=
  identityErrors [] a.modules.toList ++
    a.modules.toList.flatMap fun (path, m) => m.calls.flatMap (edgeErrors a.modules path m)

end Analysis

end CodeAtlas
