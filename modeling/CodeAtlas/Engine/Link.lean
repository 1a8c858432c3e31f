import CodeAtlas.Calls.Resolve
import CodeAtlas.Files.Cache
import CodeAtlas.Module.Language
import CodeAtlas.Python.Parse

/-!
The second pass over the modules: reading their texts again and turning calls
into edges.
-/
namespace CodeAtlas

namespace Link

/-- What the second pass needs to know beside a module and the texts kept so far. -/
structure Context where
  resolver : CallResolver
  disk : Disk
  /-- The path of the directory that paths of modules are read from. -/
  root : String
  deriving Inhabited

/-- The edges of the calls in a text of a module; none if the text has a syntax
error. -/
def edgesIn (c : Context) (m : ModuleRecord) (text : String) : List CallEdge :=
  match Python.parse text with
  | some root => c.resolver.resolveModule m (callSites root)
  | none => []

/-- The edges of a module; none if its text cannot be read. -/
def module (c : Context) (cache : ContentCache) (m : ModuleRecord) : List CallEdge × ContentCache :=
  if (Language.ofTag m.language).isSome then
    match cache.read c.disk (Path.join c.root m.path) with
    | (.ok text, cache) => (edgesIn c m text, cache)
    | (.error _, cache) => ([], cache)
  else ([], cache)

/-- The edges of modules one after the other, with the paths of the modules. -/
def modules (c : Context) :
    ContentCache → List ModuleRecord → List (String × List CallEdge) × ContentCache
  | cache, [] => ([], cache)
  | cache, m :: rest =>
    let (edges, cache) := module c cache m
    let (others, cache) := modules c cache rest
    ((m.path, edges) :: others, cache)

def attach (t : ModuleTable) (path : String) (edges : List CallEdge) : ModuleTable :=
  match t.get? path with
  | some m => t.insert path { m with calls := edges }
  | none => t

/-- Replace the edges of all modules that were understood. -/
def table (disk : Disk) (root : String) (cache : ContentCache) (t : ModuleTable) :
    ModuleTable × ContentCache :=
  let (edges, cache) := modules ⟨.ofModules t, disk, root⟩ cache (t.values.filter (·.parsed))
  (edges.foldl (fun t e => attach t e.1 e.2) t, cache)

end Link

end CodeAtlas
