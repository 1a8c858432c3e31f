import CodeAtlas.Data.Dict
import CodeAtlas.Module.Path
import CodeAtlas.Text.Split
import CodeAtlas.Text.Utf8

/-!
Trees of files as values.

A disk is a table of entries by their full paths. Paths given to the operations
are read from the working directory, and links in them are followed. Names of
entries are Unicode text, so that a file whose name is none has no place on a
disk.
-/
namespace CodeAtlas

inductive Entry where
  | file (content : List UInt8)
  | directory
  /-- A symbolic link, with a path that is read from the directory of the link. -/
  | link (target : String)
  deriving DecidableEq, Repr, Inhabited

inductive FileError where
  | notFound
  | exists
  | notADirectory
  | isADirectory
  | tooManyLinks
  | notUtf8
  deriving DecidableEq, Repr, Inhabited

def FileError.message : FileError → String
  | .notFound => "No such file or directory (os error 2)"
  | .exists => "File exists (os error 17)"
  | .notADirectory => "Not a directory (os error 20)"
  | .isADirectory => "Is a directory (os error 21)"
  | .tooManyLinks => "Too many levels of symbolic links (os error 40)"
  | .notUtf8 => "stream did not contain valid UTF-8"

/-- A tree of files. -/
structure Disk where
  /-- The entries by full path, without the slash in front. The root itself is
  no entry. -/
  entries : Dict Entry := {}
  /-- The steps from the root to the directory that paths are read from. -/
  workingDirectory : List String := []
  deriving DecidableEq, Repr, Inhabited

namespace Disk

def key (steps : List String) : String := Text.join "/" steps

/-- What stands at the end of steps from the root. -/
def entryAt (d : Disk) (steps : List String) : Option Entry :=
  if steps = [] then some .directory else d.entries.get? (key steps)

def maxLinks : Nat := 40

/-- Go along the steps of a path from a directory. The end may be missing, all
before it must be directories. A link hands its directory and the steps left to
`onLink`. -/
def go (d : Disk) (onLink : List String → List String → Except FileError (List String)) :
    List String → List String → Except FileError (List String)
  | here, [] => .ok here
  | here, step :: rest =>
    if step = "" ∨ step = "." then go d onLink here rest
    else if step = ".." then go d onLink here.dropLast rest
    else
      match d.entryAt (here ++ [step]) with
      | none => if rest = [] then .ok (here ++ [step]) else .error .notFound
      | some .directory => go d onLink (here ++ [step]) rest
      | some (.file _) => if rest = [] then .ok (here ++ [step]) else .error .notADirectory
      | some (.link target) =>
        if Text.startsWith target "/" then onLink [] (Text.split '/' target ++ rest)
        else onLink here (Text.split '/' target ++ rest)

/-- Go along the steps of a path and follow at most so many links. -/
def follow (d : Disk) : Nat → List String → List String → Except FileError (List String)
  | 0 => d.go fun _ _ => .error .tooManyLinks
  | links + 1 => d.go (d.follow links)

/-- The place that a path leads to, where there may be nothing. -/
def locate (d : Disk) (path : String) : Except FileError (List String) :=
  if path = "" then .error .notFound
  else
    d.follow maxLinks (if Text.startsWith path "/" then [] else d.workingDirectory)
      (Text.split '/' path)

def stat (d : Disk) (path : String) : Except FileError Entry := do
  match d.entryAt (← d.locate path) with
  | some e => .ok e
  | none => .error .notFound

def pathExists (d : Disk) (path : String) : Bool := (d.stat path).isOk

def isDirectory (d : Disk) (path : String) : Bool :=
  match d.stat path with
  | .ok .directory => true
  | _ => false

def read (d : Disk) (path : String) : Except FileError (List UInt8) := do
  match ← d.stat path with
  | .file content => .ok content
  | .directory => .error .isADirectory
  | .link _ => .error .notFound

/-- The text of the file at a path, with a replacement for bytes that are no text. -/
def readLossy (d : Disk) (path : String) : Except FileError String :=
  (d.read path).map Utf8.decodeLossy

def readText (d : Disk) (path : String) : Except FileError String := do
  match Utf8.decode? (← d.read path) with
  | some text => .ok text
  | none => .error .notUtf8

def size (d : Disk) (path : String) : Except FileError Nat := do
  match ← d.stat path with
  | .file content => .ok content.length
  | _ => .ok 0

def put (d : Disk) (steps : List String) (e : Entry) : Disk :=
  { d with entries := d.entries.insert (key steps) e }

def withoutSlashes (path : String) : String :=
  String.ofList (path.toList.reverse.dropWhile (· = '/')).reverse

def parentPath (path : String) : String :=
  match Text.beforeLast? '/' (withoutSlashes path) with
  | some parent => parent ++ "/"
  | none => if Text.startsWith path "/" then "/" else "."

/-- Write a text to the file at a path, which is made if its directory is
there. A path that ends in a slash cannot be a file. -/
def writeText (d : Disk) (path text : String) : Except FileError Disk := do
  if Text.endsWith path "/" then
    match ← d.stat (parentPath path) with
    | .directory => .error .isADirectory
    | _ => .error .notADirectory
  else
    let place ← d.locate path
    match d.entryAt place with
    | some .directory => .error .isADirectory
    | _ => .ok (d.put place (.file text.toUTF8.toList))

/-- Make a directory in one that is there. A link at its place is not followed. -/
def makeDirectory (d : Disk) (path : String) : Except FileError Disk := do
  let name := Text.afterLast '/' (withoutSlashes path)
  match ← d.stat (parentPath path) with
  | .directory =>
    let place := (← d.locate (parentPath path)) ++ [name]
    if name = "" ∨ name = "." ∨ name = ".." ∨ (d.entryAt place).isSome then .error .exists
    else .ok (d.put place .directory)
  | _ => .error .notADirectory

/-- Make the first of some directories, each being in the one behind it, and
those that it needs. -/
def makeFirst (d : Disk) : List String → Except FileError Disk
  | [] => .ok d
  | path :: parents =>
    let orThere (d : Disk) (made : Except FileError Disk) : Except FileError Disk :=
      match made with
      | .error e => if d.isDirectory path then .ok d else .error e
      | made => made
    match d.makeDirectory path with
    | .error .notFound => do
      let d ← d.makeFirst parents
      orThere d (d.makeDirectory path)
    | made => orThere d made

/-- Make the directory at a path and all directories that it needs. -/
def makeDirectories (d : Disk) (path : String) : Except FileError Disk :=
  d.makeFirst (path :: Path.parents path)

/-- The steps from a directory to an entry below it, by the full path of the
entry. -/
def below? (directory : List String) (key : String) : Option (List String) :=
  let steps := Text.split '/' key
  if directory.isPrefixOf steps && directory.length < steps.length then
    some (steps.drop directory.length)
  else none

/-- All entries below a directory, with the steps to them, in ascending order
of full paths. -/
def entriesBelow (d : Disk) (directory : List String) : List (List String × Entry) :=
  d.entries.toList.filterMap fun (key, e) => (below? directory key).map (·, e)

/-- The disk with an entry at the end of steps from the root, and with
directories on the way to it. -/
def plant (d : Disk) (steps : List String) (e : Entry) : Disk :=
  let ways := (List.range steps.length).map (steps.take ·) |>.filter (· ≠ [])
  let d := ways.foldl (fun d way => if (d.entryAt way).isSome then d else d.put way .directory) d
  d.put steps e

/-- The disk without what stands at the end of steps from the root, and without
all below it. -/
def uproot (d : Disk) (steps : List String) : Disk :=
  let gone (k : String) : Bool := k = key steps || (below? steps k).isSome
  { d with entries := ⟨d.entries.entries.filter (!gone ·.1), d.entries.sorted.filter _⟩ }

end Disk

end CodeAtlas
