import CodeAtlas.Config.Basic
import CodeAtlas.Toml.Printer

/-!
Settings as TOML.

Reading fills settings that are missing with their defaults and passes over
keys that it does not know. A section may also be given as an array of its
settings in order. Writing gives a text that reads as the same settings.
-/
namespace CodeAtlas

namespace Toml.Value

/-- Whether a value can stand for a section. A date can, as a section without
any setting that is known. -/
def isSection : Value → Bool
  | .table _ _ | .array _ _ | .datetime _ => true
  | _ => false

/-- A setting of a section, by its name or by its position. -/
def setting? (v : Value) (position : Nat) (name : String) : Option Value :=
  match v with
  | .table _ entries => entries.lookup name
  | .array _ elements => elements[position]?
  | _ => none

/-- Read a setting of a section; a missing one has its default. -/
def setting {α : Type} (v : Value) (position : Nat) (name : String) (read : Value → Option α)
    (default : α) : Option α :=
  match v.setting? position name with
  | none => some default
  | some x => read x

def text? : Value → Option String
  | .string text => some text
  | _ => none

def flag? : Value → Option Bool
  | .boolean value => some value
  | _ => none

def natural? : Value → Option Nat
  | .integer (.ofNat n) => some n
  | _ => none

def list? {α : Type} (read : Value → Option α) : Value → Option (List α)
  | .array _ elements => elements.mapM read
  | _ => none

/-- The key under which a date stands if it is taken for a table. -/
def datetimeKey : String := "$__toml_private_datetime"

def texts? : Value → Option (Dict String)
  | .table _ entries =>
    (entries.mapM fun (e : String × Value) => (text? e.2).map (e.1, ·)).map .ofList
  | .datetime text => some (.ofList [(datetimeKey, text)])
  | _ => none

end Toml.Value

open Toml (Value)

def ProjectConfig.ofToml (v : Value) : Option ProjectConfig := do
  let d : ProjectConfig := {}
  guard v.isSection
  let name ← v.setting 0 "name" Value.text? d.name
  return { name }

def ScanningConfig.ofToml (v : Value) : Option ScanningConfig := do
  let d : ScanningConfig := {}
  guard v.isSection
  let ignoreFile ← v.setting 0 "ignore_file" Value.text? d.ignoreFile
  let respectGitignore ← v.setting 1 "respect_gitignore" Value.flag? d.respectGitignore
  let includeHidden ← v.setting 2 "include_hidden" Value.flag? d.includeHidden
  let binarySniffBytes ← v.setting 3 "binary_sniff_bytes" Value.natural? d.binarySniffBytes
  let maxFileSize ← v.setting 4 "max_file_size" Value.natural? d.maxFileSize
  let extensions ← v.setting 5 "extensions" Value.texts? d.extensions
  return { ignoreFile, respectGitignore, includeHidden, binarySniffBytes, maxFileSize, extensions }

def PerformanceConfig.ofToml (v : Value) : Option PerformanceConfig := do
  let d : PerformanceConfig := {}
  guard v.isSection
  let maxWorkers ← v.setting 0 "max_workers" Value.natural? d.maxWorkers
  let cacheSize ← v.setting 1 "cache_size" Value.natural? d.cacheSize
  let minFilesForParallel ←
    v.setting 2 "min_files_for_parallel" Value.natural? d.minFilesForParallel
  let timeoutSecs ← v.setting 3 "timeout_secs" (fun x => x.natural?.map some) d.timeoutSecs
  return { maxWorkers, cacheSize, minFilesForParallel, timeoutSecs }

/-- Both parts of a role keyword have to be given. -/
def RoleKeyword.ofToml (v : Value) : Option RoleKeyword := do
  let keyword ← (← v.setting? 0 "keyword").text?
  let tag ← (← v.setting? 1 "tag").text?
  return { keyword, tag }

def HeuristicsConfig.ofToml (v : Value) : Option HeuristicsConfig := do
  let d : HeuristicsConfig := {}
  let texts := Value.list? Value.text?
  guard v.isSection
  let defaultRole ← v.setting 0 "default_role" Value.text? d.defaultRole
  let dataclassMarkers ← v.setting 1 "dataclass_markers" texts d.dataclassMarkers
  let modelBases ← v.setting 2 "model_bases" texts d.modelBases
  let exceptionSuffixes ← v.setting 3 "exception_suffixes" texts d.exceptionSuffixes
  let enumSuffixes ← v.setting 4 "enum_suffixes" texts d.enumSuffixes
  let httpVerbs ← v.setting 5 "http_verbs" texts d.httpVerbs
  let routeAttribute ← v.setting 6 "route_attribute" Value.text? d.routeAttribute
  let defaultVerb ← v.setting 7 "default_verb" Value.text? d.defaultVerb
  let defaultStatusCodes ← v.setting 8 "default_status_codes" texts d.defaultStatusCodes
  let roleKeywords ← v.setting 9 "role_keywords" (Value.list? RoleKeyword.ofToml) d.roleKeywords
  return { defaultRole, dataclassMarkers, modelBases, exceptionSuffixes, enumSuffixes, httpVerbs,
           routeAttribute, defaultVerb, defaultStatusCodes, roleKeywords }

namespace Config

def ofToml (v : Value) : Option Config := do
  let d : Config := {}
  let project ← v.setting 0 "project" ProjectConfig.ofToml d.project
  let scanning ← v.setting 1 "scanning" ScanningConfig.ofToml d.scanning
  let performance ← v.setting 2 "performance" PerformanceConfig.ofToml d.performance
  let heuristics ← v.setting 3 "heuristics" HeuristicsConfig.ofToml d.heuristics
  return { project, scanning, performance, heuristics }

open Toml

def scanningTables (c : Config) : List (List Char) := [
  tableLines ["project"] [assignLine "name" (ofText c.project.name)],
  tableLines ["scanning"] [
    assignLine "ignore_file" (ofText c.scanning.ignoreFile),
    assignLine "respect_gitignore" (ofBool c.scanning.respectGitignore),
    assignLine "include_hidden" (ofBool c.scanning.includeHidden),
    assignLine "binary_sniff_bytes" (ofNat c.scanning.binarySniffBytes),
    assignLine "max_file_size" (ofNat c.scanning.maxFileSize)],
  tableLines ["scanning", "extensions"]
    (c.scanning.extensions.toList.map fun (extension, language) =>
      assignLine extension (ofText language))]

def performanceTable (p : PerformanceConfig) : List Char :=
  tableLines ["performance"] ([
    assignLine "max_workers" (ofNat p.maxWorkers),
    assignLine "cache_size" (ofNat p.cacheSize),
    assignLine "min_files_for_parallel" (ofNat p.minFilesForParallel)] ++
    match p.timeoutSecs with
    | some seconds => [assignLine "timeout_secs" (ofNat seconds)]
    | none => [])

/-- The tables of the heuristics section. Without any role keyword there is an
empty array of them. -/
def heuristicsTables (h : HeuristicsConfig) : List (List Char) :=
  tableLines ["heuristics"] ([
    assignLine "default_role" (ofText h.defaultRole),
    assignLine "dataclass_markers" (ofTexts h.dataclassMarkers),
    assignLine "model_bases" (ofTexts h.modelBases),
    assignLine "exception_suffixes" (ofTexts h.exceptionSuffixes),
    assignLine "enum_suffixes" (ofTexts h.enumSuffixes),
    assignLine "http_verbs" (ofTexts h.httpVerbs),
    assignLine "route_attribute" (ofText h.routeAttribute),
    assignLine "default_verb" (ofText h.defaultVerb),
    assignLine "default_status_codes" (ofTexts h.defaultStatusCodes)] ++
    if h.roleKeywords.isEmpty then [assignLine "role_keywords" (ofTexts [])] else []) ::
  h.roleKeywords.map fun r => elementLines ["heuristics", "role_keywords"]
    [assignLine "keyword" (ofText r.keyword), assignLine "tag" (ofText r.tag)]

def numbers (c : Config) : List Nat :=
  [c.scanning.binarySniffBytes, c.scanning.maxFileSize, c.performance.maxWorkers,
    c.performance.cacheSize, c.performance.minFilesForParallel] ++
    c.performance.timeoutSecs.toList

def toToml (c : Config) : String :=
  writeTables
    (c.scanningTables ++ [performanceTable c.performance] ++ heuristicsTables c.heuristics)

end Config

end CodeAtlas
