import CodeAtlas.Module.Index
import CodeAtlas.Python.Walk

/-!
The names and modules that the import statements of a file speak of.

A relative import is read from the directory of the file: it names both a
dotted module, for the names it binds, and a path, for the module it needs.
-/
namespace CodeAtlas

open Python

inductive ImportToken where
  | dotted (name : String)
  /-- By the path that a relative import leads to. -/
  | path (path : String)
  deriving DecidableEq, Repr, Inhabited

/-- A module that is imported, with the names bound to parts of it. -/
structure Import where
  token : ImportToken
  /-- Bound names with the full names they stand for. -/
  bindings : List (String × String)
  wildcard : Bool := false
  deriving DecidableEq, Repr, Inhabited

namespace Import

/-- A name in an import list with the name it is bound to. -/
def listed (n : Node) : Option (String × String) :=
  if n.kind = .aliasedImport then do
    let name := (← n.child? .name).text
    some (name, ((n.child? .alias).map (·.text)).getD name)
  else some (n.text, n.text)

def names (n : Node) : List (String × String) :=
  (n.children.filter (·.field = some .name)).filterMap listed

/-- The imports of `import a.b, c as d`. -/
def ofPlain (n : Node) : List Import :=
  (names n).map fun (module, bound) => { token := .dotted module, bindings := [(bound, module)] }

/-- The directories that a file is in, from the root. -/
def packageDirs (path : String) : List String := (Text.split '/' path).dropLast

/-- The directories that leading dots refer to. One dot is the directory of the
file; more dots than there are directories refer to the root. -/
def ancestorDirs (dirs : List String) (level : Nat) : List String :=
  dirs.take (dirs.length - (level - 1))

def level (n : Node) : Nat :=
  match n.children.find? (·.kind = .importPrefix) with
  | some dots => dots.text.toList.count '.'
  | none => 0

/-- The segments behind the leading dots of a relative import. -/
def remainder (n : Node) : List String :=
  match n.children.find? (·.kind = .dottedName) with
  | some name => ((Text.split '.' name.text).map Text.trim).filter (· ≠ "")
  | none => []

def relativeBase (dirs : List String) (level : Nat) (remainder : List String) : String :=
  Text.join "." (ancestorDirs dirs level ++ remainder)

def relativePath (dirs : List String) (level : Nat) (remainder : List String) : String :=
  let dirs := ancestorDirs dirs level
  if remainder = [] then Text.join "/" (dirs ++ [Path.packageFile])
  else Text.join "/" (dirs ++ remainder) ++ ".py"

def origin (base name : String) : String := if base = "" then name else base ++ "." ++ name

/-- The import of `from m import n as k` in a file in these directories. -/
def ofFrom (dirs : List String) (n : Node) : Option Import := do
  let module ← n.child? .moduleName
  let (base, token) :=
    if module.kind = .relativeImport then
      (relativeBase dirs (level module) (remainder module),
        ImportToken.path (relativePath dirs (level module) (remainder module)))
    else (module.text, .dotted module.text)
  some {
    token
    bindings := (names n).map fun (name, bound) => (bound, origin base name)
    wildcard := n.children.any (·.kind = .wildcardImport) }

/-- What a node imports if it is an import statement. -/
def ofNode (dirs : List String) (n : Node) : List Import :=
  match n.kind with
  | .importStatement => ofPlain n
  | .importFromStatement => (ofFrom dirs n).toList
  | _ => []

/-- Everything that is imported in a file, also within definitions, in source
order. -/
def all (path : String) (root : Node) : List Import :=
  root.nodes.flatMap (ofNode (packageDirs path))

end Import

structure ImportTable where
  /-- Bound names with the full names they stand for; a later import binds over
  an earlier one. -/
  aliases : Dict String
  dotted : NameSet
  paths : NameSet
  /-- The number of imports of everything that a module has. -/
  wildcards : Nat
  deriving DecidableEq, Repr, Inhabited

namespace ImportTable

def ofImports (imports : List Import) : ImportTable where
  aliases := .ofList (imports.flatMap (·.bindings))
  dotted := .ofList (imports.filterMap fun i =>
    match i.token with | .dotted name => some name | .path _ => none)
  paths := .ofList (imports.filterMap fun i =>
    match i.token with | .path path => some path | .dotted _ => none)
  wildcards := imports.countP (·.wildcard)

def ofModule (path : String) (root : Node) : ImportTable := ofImports (Import.all path root)

/-- The named modules, each once: the dotted names in ascending order, then the
paths. -/
def tokens (t : ImportTable) : List ImportToken :=
  t.dotted.toList.map .dotted ++ t.paths.toList.map .path

end ImportTable

/-- The paths of the modules that a token names. A path names the file itself,
or else the module with the dotted name that the path would have. A dotted name
names its module, or else all modules with its last segment as file stem. -/
def RepoIndex.resolveToken (index : RepoIndex) : ImportToken → List String
  | .path path =>
    if (index.pathsForStem (Path.fileStem path)).contains path then [path]
    else (index.pathForDotted (Path.dottedName path)).toList
  | .dotted name =>
    match index.pathForDotted name with
    | some path => [path]
    | none => index.pathsForStem (Text.afterLast '.' name)

def ImportTable.resolve (t : ImportTable) (index : RepoIndex) : NameSet :=
  .ofList (t.tokens.flatMap index.resolveToken)

end CodeAtlas
