import CodeAtlas.Config.Toml
import CodeAtlas.Error

/-!
Settings in files.
-/
namespace CodeAtlas.Config

/-- The settings if an analysis can work with them. -/
def checked (c : Config) : Except ConfigFault Config :=
  if c.performance.maxWorkers = 0 then .error .noWorkers
  else if c.scanning.extensions.isEmpty then .error .noExtensions
  else .ok c

def parse (text : String) : Except ConfigFault Config :=
  match (Toml.parse text).bind fun entries => Config.ofToml (.table .header entries) with
  | some c => c.checked
  | none => .error .malformed

/-- The text of settings, in which numbers may be too large to be written. -/
def render (c : Config) : Except ConfigFault String :=
  if c.numbers.all (· ≤ Toml.maxInteger) then .ok c.toToml else .error .unwritable

def load (d : Disk) (path : String) : Except Error Config := do
  let text ← (d.readText path).mapError .io
  (parse text).mapError .config

def save (c : Config) (d : Disk) (path : String) : Except Error Disk := do
  let text ← c.render.mapError .config
  (d.writeText path text).mapError .io

def fileNames : List String := ["Codecard.toml", "codecard.toml", ".codecard.toml"]

/-- Read settings from the file at a path, or else from the first file of a
known name. Without any file the defaults hold. -/
def loadOrDefault (d : Disk) (path : Option String) : Except Error Config :=
  let candidates := match path with
    | some p => [p]
    | none => fileNames
  match candidates.find? d.pathExists with
  | some p => load d p
  | none => .ok {}

end CodeAtlas.Config
