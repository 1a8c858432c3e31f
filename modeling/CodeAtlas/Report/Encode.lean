import CodeAtlas.Module.Analysis
import CodeAtlas.Report.Json

/-!
Analyses as JSON values, and the report that is made of them.
-/
namespace CodeAtlas

def Dict.toJson {α : Type} (f : α → Json) (d : Dict α) : Json :=
  .object (d.toList.map fun (k, v) => (k, f v))

def NameSet.toJson (s : NameSet) : Json := .texts s.toList

def Symbol.toJson (s : Symbol) : Json := .object [
  ("module_id", .number s.moduleId),
  ("id", .number s.id),
  ("kind", .string s.kind.word),
  ("name", .string s.name),
  ("signature", .ofOption .string s.signature),
  ("decorators", .texts s.decorators),
  ("modifiers", .texts s.modifiers.words),
  ("invariants", .ofOption .string s.invariants),
  ("raises", .texts s.raises),
  ("line_range", .array [.number s.lineRange.first, .number s.lineRange.last])]

def CallEdge.toJson (e : CallEdge) : Json := .object [
  ("caller", .number e.caller),
  ("target_module", .number e.targetModule),
  ("target_symbol", .number e.targetSymbol)]

def DataShape.toJson (s : DataShape) : Json := .object [
  ("name", .string s.name),
  ("fields", .array (s.fields.map fun f =>
    .object [("name", .string f.name), ("type_name", .string f.typeName)]))]

def ErrorType.toJson (e : ErrorType) : Json := .object [
  ("name", .string e.name),
  ("category", .string e.category),
  ("description", .string e.description)]

def Route.toJson (r : Route) : Json := .object [
  ("symbol", .number r.symbol),
  ("verb", .string r.verb),
  ("path", .string r.path),
  ("status_codes", .texts r.statusCodes)]

def EnumDecl.toJson (e : EnumDecl) : Json :=
  .object [("name", .string e.name), ("members", .texts e.members)]

def PatternFlag.toJson (f : PatternFlag) : Json :=
  .object [("rule", .string f.rule), ("category", .string f.category)]

def ModuleRecord.toJson (m : ModuleRecord) : Json := .object [
  ("id", .number m.id),
  ("path", .string m.path),
  ("dotted", .string m.dotted),
  ("language", .string m.language),
  ("role_tags", m.roleTags.toJson),
  ("content_hash", .ofOption .string m.contentHash),
  ("parsed", .bool m.parsed),
  ("symbols", .array (m.symbols.map (·.toJson))),
  ("import_paths", m.importPaths.toJson),
  ("import_aliases", m.importAliases.toJson .string),
  ("functions", m.functions.toJson .number),
  ("properties", m.properties.toJson .number),
  ("reexports", m.reexports.toJson .string),
  ("calls", .array (m.calls.map (·.toJson))),
  ("data_shapes", .array (m.dataShapes.map (·.toJson))),
  ("errors", .array (m.errors.map (·.toJson))),
  ("routes", .array (m.routes.map (·.toJson))),
  ("enums", .array (m.enums.map (·.toJson))),
  ("pattern_flags", .array (m.patternFlags.map (·.toJson)))]

def Analysis.toJson (a : Analysis) : Json := .object [
  ("modules", a.modules.toJson (·.toJson)),
  ("languages", .texts a.languages)]

def AnalysisStats.toJson (s : AnalysisStats) : Json := .object [
  ("modules", .number s.modules),
  ("symbols", .number s.symbols),
  ("calls", .number s.calls),
  ("imports", .number s.imports),
  ("data_shapes", .number s.dataShapes),
  ("errors", .number s.errors),
  ("routes", .number s.routes),
  ("pattern_flags", .number s.patternFlags),
  ("languages", .number s.languages),
  ("unparsed", .number s.unparsed)]

/-- What is written about an analysis: when it was made, of which project, and
what was found. -/
structure Report where
  generatedAt : String
  project : String
  result : Analysis
  deriving Repr, Inhabited

def Report.toJson (r : Report) : Json := .object [
  ("generated_at", .string r.generatedAt),
  ("project", .string r.project),
  ("stats", r.result.stats.toJson),
  ("result", r.result.toJson)]

end CodeAtlas
