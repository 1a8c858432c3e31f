import CodeAtlas.Command.Invocation
import CodeAtlas.Config.File
import CodeAtlas.Report.Encode

/-!
Carrying out commands on a disk.
-/
namespace CodeAtlas.Command

inductive Failure where
  | analysis (cause : Error)
  | notWritten (path : String) (cause : FileError)
  | notCreated (path : String) (cause : FileError)
  | alreadyThere (path : String)
  deriving DecidableEq, Repr, Inhabited

def Failure.message : Failure → String
  | .analysis cause => cause.message
  | .notWritten path cause => s!"Failed to write {path}: {cause.message}"
  | .notCreated path cause => s!"Failed to create {path}: {cause.message}"
  | .alreadyThere path => s!"{path} already exists"

/-- What a command leaves behind: the text it prints and the disk. -/
structure Effect where
  output : String := ""
  disk : Disk
  deriving Repr, Inhabited

def analysisOf (d : Disk) (config : Option String) (r : Request) :
    Except Failure (Config × Analysis) := do
  let c ← (Config.loadOrDefault d config).mapError .analysis
  let a ← ((Engine.ofConfig c).runWithDeadline d r).1.mapError .analysis
  return (c, a)

def statsLines (a : Analysis) : List String :=
  let s := a.stats
  [s!"Modules:       {s.modules}",
    s!"Symbols:       {s.symbols}",
    s!"Call edges:    {s.calls}",
    s!"Imports:       {s.imports}",
    s!"Data shapes:   {s.dataShapes}",
    s!"Errors:        {s.errors}",
    s!"Routes:        {s.routes}",
    s!"Pattern flags: {s.patternFlags}",
    s!"Unparsed:      {s.unparsed}",
    "Languages:     " ++ Text.join ", " a.languages]

def reportText (r : Report) (isCompact : Bool) : String :=
  if isCompact then r.toJson.compact else r.toJson.pretty 0

def configFileName : String := "codecard.toml"

/-- Write the default settings to a directory, which is made if it is missing. -/
def init (d : Disk) (directory : String) : Except Failure Disk := do
  let d ← (d.makeDirectories directory).mapError (.notCreated directory)
  let target := Path.join directory configFileName
  if d.pathExists target then .error (.alreadyThere target)
  else (({} : Config).save d target).mapError .analysis

/-- Carry out a command. Reports say that they were made at the given time. -/
def execute (i : Invocation) (now : String) (d : Disk) : Except Failure Effect := do
  match i.task with
  | .analyze request output isCompact =>
    let (c, a) ← analysisOf d i.config request
    let text := reportText ⟨now, c.project.name, a⟩ isCompact
    match output with
    | some path =>
      let d ← (d.writeText path text).mapError (.notWritten path)
      return { disk := d }
    | none => return { output := text ++ "\n", disk := d }
  | .stats request =>
    let (_, a) ← analysisOf d i.config request
    return { output := String.join ((statsLines a).map (· ++ "\n")), disk := d }
  | .init directory => return { disk := ← init d (directory.getD ".") }

end CodeAtlas.Command
