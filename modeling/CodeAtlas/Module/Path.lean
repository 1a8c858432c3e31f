import CodeAtlas.Text.Split

/-!
Paths of source files, written with `/` and relative to the root of the
analysis, and the names that follow from them.
-/
namespace CodeAtlas.Path

def fileName (path : String) : String := Text.afterLast '/' path

/-- The file name without its last extension. A name that is all extension,
such as `.env`, is kept. -/
def fileStem (path : String) : String :=
  let name := fileName path
  match Text.beforeLast? '.' name with
  | none => name
  | some "" => name
  | some stem => stem

/-- The name of the file that stands for its directory. -/
def packageFile : String := "__init__.py"

/-- Whether the file stands for the package that its directory is. -/
def isPackageInit (path : String) : Bool := fileName path = packageFile

/-- The dotted name of the module in a file. A package file has the name of its
directory, any other file that of its path without the extension. -/
def dottedName (path : String) : String :=
  let directory := (Text.beforeLast? '/' path).getD ""
  let package := Text.replaceChar '/' '.' directory
  if isPackageInit path then package
  else if directory = "" then fileStem path
  else package ++ "." ++ fileStem path

/-- The extension of the file name; a name that is all extension has none. -/
def extension? (path : String) : Option String :=
  let name := fileName path
  match Text.beforeLast? '.' name with
  | none => none
  | some "" => none
  | some _ => some (Text.afterLast '.' name)

/-- A path below a directory; a path that starts with a slash stands for
itself. -/
def join (directory path : String) : String :=
  if Text.startsWith path "/" || directory = "" then path
  else if Text.endsWith directory "/" then directory ++ path
  else directory ++ "/" ++ path

/-- The steps of a path. Repeated slashes and dots in between make no
difference, while a leading dot does. -/
def components (path : String) : List String :=
  match Text.split '/' path with
  | [] => []
  | first :: rest =>
    (if first = "" && !rest.isEmpty then ["/"] else if first = "" then [] else [first]) ++
      rest.filter fun s => s ≠ "" ∧ s ≠ "."

def ofComponents : List String → String
  | "/" :: rest => "/" ++ Text.join "/" rest
  | steps => Text.join "/" steps

/-- The paths of the directories that a path is in, the innermost first. -/
def parents (path : String) : List String :=
  let steps := components path
  ((List.range steps.length).reverse.map fun n => ofComponents (steps.take n)).filter (· ≠ "")

end CodeAtlas.Path
