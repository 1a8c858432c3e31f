import CodeAtlas.Data.Dict

/-!
Settings of an analysis and their defaults.
-/
namespace CodeAtlas

structure ProjectConfig where
  name : String := "Unnamed Project"
  deriving DecidableEq, Repr, Inhabited

def defaultExtensions : Dict String := .ofList
  [("py", "py"), ("ts", "ts"), ("tsx", "tsx"), ("js", "js"), ("jsx", "jsx"), ("go", "go"),
    ("rs", "rs"), ("java", "java"), ("kt", "kt"), ("swift", "swift"), ("c", "c"), ("h", "c-h"),
    ("cpp", "cpp"), ("hpp", "cpp-h"), ("cs", "cs")]

structure ScanningConfig where
  ignoreFile : String := ".ctxignore"
  respectGitignore : Bool := true
  includeHidden : Bool := false
  /-- Number of leading bytes in which a NUL marks a binary file. -/
  binarySniffBytes : Nat := 2048
  /-- Files with more bytes are indexed but never parsed. -/
  maxFileSize : Nat := 1048576
  extensions : Dict String := defaultExtensions
  deriving DecidableEq, Repr, Inhabited

/-- Sizes of pools and caches. None of them changes a result. -/
structure PerformanceConfig where
  maxWorkers : Nat := 4
  /-- Number of file contents kept between the passes. -/
  cacheSize : Nat := 1000
  /-- Below this number of files everything runs in one thread. -/
  minFilesForParallel : Nat := 50
  timeoutSecs : Option Nat := none
  deriving DecidableEq, Repr, Inhabited

/-- A path that has the keyword in it gets the tag. -/
structure RoleKeyword where
  keyword : String
  tag : String
  deriving DecidableEq, Repr, Inhabited

/-- Tables of names by which definitions are classified. Markers, bases and
suffixes are looked for at the ends of names. -/
structure HeuristicsConfig where
  defaultRole : String := "mod"
  dataclassMarkers : List String := ["dataclass"]
  modelBases : List String := ["BaseModel"]
  exceptionSuffixes : List String := ["Exception"]
  enumSuffixes : List String := ["Enum"]
  /-- Decorator attributes that declare a route of that verb. -/
  httpVerbs : List String := ["get", "post", "put", "delete"]
  routeAttribute : String := "route"
  /-- The verb of a route that lists no methods. -/
  defaultVerb : String := "GET"
  defaultStatusCodes : List String := ["200"]
  /-- Keywords of role tags, matched without regard to case. -/
  roleKeywords : List RoleKeyword :=
    [⟨"test", "test"⟩, ⟨"auth", "auth"⟩, ⟨"api", "api"⟩, ⟨"repo", "repo"⟩, ⟨"repository", "repo"⟩,
      ⟨"service", "svc"⟩, ⟨"svc", "svc"⟩]
  deriving DecidableEq, Repr, Inhabited

structure Config where
  project : ProjectConfig := {}
  scanning : ScanningConfig := {}
  performance : PerformanceConfig := {}
  heuristics : HeuristicsConfig := {}
  deriving DecidableEq, Repr, Inhabited

/-- The language of files with an extension, which is looked up in ASCII lower case. -/
def ScanningConfig.languageFor (c : ScanningConfig) (extension : String) : Option String :=
  c.extensions.get? (String.ofList (extension.toList.map Char.toLower))

end CodeAtlas
