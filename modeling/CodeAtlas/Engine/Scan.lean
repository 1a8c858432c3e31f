import CodeAtlas.Digest.Sha256
import CodeAtlas.Extract.Module
import CodeAtlas.Files.Cache
import CodeAtlas.Module.Language

/-!
The first pass over the modules: reading their texts and filling their records.
-/
namespace CodeAtlas

namespace Scan

/-- What the first pass needs to know beside a module and the texts kept so far. -/
structure Context where
  config : Config
  index : RepoIndex
  disk : Disk
  /-- The path of the directory that paths of modules are read from. -/
  root : String
  deriving Inhabited

/-- Whether the text of a module is to be read: its language is understood, and
its file is there and not too large. -/
def wants (c : Context) (m : ModuleRecord) : Bool :=
  (Language.ofTag m.language).isSome &&
    match c.disk.size (Path.join c.root m.path) with
    | .ok size => size ≤ c.config.scanning.maxFileSize
    | .error _ => false

def fillFrom (c : Context) (m : ModuleRecord) (text : String) : ModuleRecord :=
  let read : ModuleRecord := { m with contentHash := some (Sha256.hexDigest text) }
  read.extract c.config.heuristics c.index text

/-- Read the text of a module and fill its record. A module whose text cannot
be read stays as it is. -/
def module (c : Context) (cache : ContentCache) (m : ModuleRecord) : ModuleRecord × ContentCache :=
  if wants c m then
    match cache.read c.disk (Path.join c.root m.path) with
    | (.ok text, cache) => (fillFrom c m text, cache)
    | (.error _, cache) => (m, cache)
  else (m, cache)

def modules (c : Context) : ContentCache → List ModuleRecord → List ModuleRecord × ContentCache
  | cache, [] => ([], cache)
  | cache, m :: rest =>
    let (scanned, cache) := module c cache m
    let (others, cache) := modules c cache rest
    (scanned :: others, cache)

def table (config : Config) (disk : Disk) (root : String) (cache : ContentCache) (t : ModuleTable) :
    ModuleTable × ContentCache :=
  let (records, cache) := modules ⟨config, .build t, disk, root⟩ cache t.values
  (.ofList (records.map fun m => (m.path, m)), cache)

end Scan

end CodeAtlas
