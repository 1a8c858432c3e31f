import CodeAtlas.Command.Execute
import Std.Time.DateTime.PlainDateTime
import Std.Time.DateTime.Timestamp

/-!
The command line.

The files that a command asks for are read into a disk first, then the command
is carried out on it, and at last what has changed is written back.
-/
namespace CodeAtlas.Main

open CodeAtlas.Command

def steps (path : String) : List String := (Text.split '/' path).filter (· ≠ "")

/-- Add a file to a disk. One that cannot be read is left out. -/
def addFile (d : Disk) (place : List String) : IO Disk := do
  try
    let content ← IO.FS.readBinFile ("/" ++ Disk.key place)
    return d.plant place (.file content.toList)
  catch _ => return d

/-- Add all that is below a directory to a disk. A directory that cannot be
listed counts as empty, and a link that leads nowhere is left out. -/
partial def addTree (d : Disk) (place : List String) : IO Disk := do
  let mut d := d
  let entries ← try (← IO.FS.realPath ("/" ++ Disk.key place)).readDir catch _ => pure #[]
  for e in entries do
    let below := place ++ [e.fileName]
    try
      match (← e.path.symlinkMetadata).type with
      | .dir => d ← addTree (d.plant below .directory) below
      | .file => d ← addFile d below
      | .symlink => d := d.plant below (.link (← IO.FS.realPath e.path).toString)
      | .other => pure ()
    catch _ => pure ()
  return d

/-- Add what stands at a path to a disk, with the links and directories on the
way to it. -/
partial def addPath (d : Disk) (path : String) : IO Disk := do
  let mut d := d
  for way in path :: Path.parents path do
    let name := Text.afterLast '/' (Disk.withoutSlashes way)
    if name ≠ "" && name ≠ "." && name ≠ ".." then
      try
        let parent ← IO.FS.realPath (Disk.parentPath way)
        let entry := parent.join name
        let place := steps parent.toString ++ [name]
        match (← entry.symlinkMetadata).type with
        | .dir => d := d.plant place .directory
        | .file => d ← addFile d place
        | .symlink =>
          let target := (← IO.FS.realPath entry).toString
          d ← addPath (d.plant place (.link target)) target
        | .other => pure ()
      catch _ => pure ()
  return d

def pathsOf (i : Invocation) : List String :=
  let settings := match i.config with
    | some path => [path]
    | none => Config.fileNames
  match i.task with
  | .analyze request output _ => settings ++ [request.root] ++ output.toList
  | .stats request => settings ++ [request.root]
  | .init directory =>
    let directory := directory.getD "."
    [directory, Path.join directory configFileName]

def rootOf (i : Invocation) : Option String :=
  match i.task with
  | .analyze request _ _ | .stats request => some request.root
  | .init _ => none

/-- The disk that a command is carried out on. -/
def diskFor (i : Invocation) : IO Disk := do
  let here := steps (← IO.currentDir).toString
  let mut d : Disk := { workingDirectory := here }
  unless here.isEmpty do d := d.plant here .directory
  for path in pathsOf i do d ← addPath d path
  match (rootOf i).map d.root with
  | some (.ok place) => addTree d place
  | _ => return d

/-- Write down what is on one disk and not on the other. -/
def writeBack (old new : Disk) : IO Unit := do
  for (key, entry) in new.entries.toList do
    if old.entries.get? key ≠ some entry then
      match entry with
      | .directory => IO.FS.createDirAll ("/" ++ key)
      | .file content => IO.FS.writeBinFile ("/" ++ key) ⟨content.toArray⟩
      | .link _ => pure ()

/-- The last digits of a number, so many of them. -/
def digits : Nat → Nat → List Char
  | 0, _ => []
  | places + 1, n => digits places (n / 10) ++ [Nat.digitChar (n % 10)]

def now : IO String := do
  let moment ← Std.Time.Timestamp.now
  let t := Std.Time.PlainDateTime.ofWallTime (.ofDuration moment.val)
  let part (places : Nat) (n : Int) : String := String.ofList (digits places n.toNat)
  return part 4 t.year ++ "-" ++ part 2 t.month.val ++ "-" ++ part 2 t.day.val ++ "T" ++
    part 2 t.hour.val ++ ":" ++ part 2 t.minute.val ++ ":" ++ part 2 t.second.val ++ "." ++
    part 9 t.nanosecond.val ++ "Z"

def usage : String :=
  "Usage: codecard [-c PATH] [-v] COMMAND\n\n" ++
  "  analyze ROOT [--include GLOB] [--exclude GLOB] [-o PATH] [--compact]\n" ++
  "  stats ROOT [--include GLOB] [--exclude GLOB]\n" ++
  "  init [-p PATH]"

end CodeAtlas.Main

open CodeAtlas.Command

/-- Carry out the command that the words ask for. -/
def main (words : List String) : IO UInt32 := do
  match Invocation.ofWords words with
  | .error .usage =>
    IO.eprintln CodeAtlas.Main.usage
    return 2
  | .error .version =>
    IO.println versionText
    return 0
  | .ok invocation =>
    let disk ← CodeAtlas.Main.diskFor invocation
    match execute invocation (← CodeAtlas.Main.now) disk with
    | .error failure =>
      IO.eprintln ("Error: " ++ failure.message)
      return 1
    | .ok effect =>
      CodeAtlas.Main.writeBack disk effect.disk
      IO.print effect.output
      return 0
