import CodeAtlas.Calls.Reexport
import CodeAtlas.Extract.Class
import CodeAtlas.Extract.Flag
import CodeAtlas.Extract.Function
import CodeAtlas.Extract.Import
import CodeAtlas.Python.Parse

/-!
Filling the record of a module from its syntax tree.

The definitions of a module are listed first, each class in front of its
members. Their places in that list number their symbols, and everything else
that is recorded of them is read off the numbered list.
-/
namespace CodeAtlas

open Python

/-- A definition that gets a symbol. -/
inductive Declared where
  | classDef (name : String) (definition : Definition)
  /-- A function in the body of a class. -/
  | member (owner name : String) (definition : Definition)
  /-- A function at module level. -/
  | function (name : String) (definition : Definition)
  deriving Repr, Inhabited

namespace Declared

def definition : Declared → Definition
  | .classDef _ d => d
  | .member _ _ d => d
  | .function _ d => d

def name : Declared → String
  | .classDef name _ => name
  | .member owner name _ => owner ++ "." ++ name
  | .function name _ => name

/-- A class with its members, or a function; nothing for any other statement. -/
def ofStatement (statement : Node) : List Declared :=
  let d := Definition.ofStatement statement
  match d.name? with
  | none => []
  | some name =>
    if d.isClass then
      .classDef name d :: (ClassBody.members d.core).filterMap fun m =>
        m.name?.map fun member => .member name member m
    else if d.isFunction then [.function name d]
    else []

def ofModule (root : Node) : List Declared := root.children.flatMap ofStatement

/-- The modifiers that decorators give a member. -/
def memberModifiers (d : Definition) : Modifiers :=
  let tails := d.decoratorNames.map tailName
  { static := tails.contains "staticmethod"
    classmethod := tails.contains "classmethod"
    property := tails.contains "property" || tails.contains "cached_property" }

def kind : Declared → SymbolKind
  | .classDef _ _ => .classDef
  | .member _ _ d => if (memberModifiers d).property then .property else .function
  | .function _ _ => .function

def modifiers : Declared → Modifiers
  | .classDef _ d => { descriptor := ClassBody.isDescriptor d.core }
  | .member _ _ d =>
    let modifiers := memberModifiers d
    if modifiers.property then { property := true } else modifiers
  | .function _ _ => {}

def symbol (module : ModuleId) (x : Declared) (id : SymbolId) : Symbol where
  moduleId := module
  id := id
  kind := x.kind
  name := x.name
  signature := if x.kind = .function then some (Signature.ofFunction x.definition.core) else none
  decorators := x.definition.decoratorNames
  modifiers := x.modifiers
  invariants := x.definition.docstring.bind Invariant.ofDocstring
  raises := if x.kind = .function then Raise.names x.definition.core else []
  lineRange := ⟨x.definition.statement.lines.first, x.definition.statement.lines.last⟩

def routes (h : HeuristicsConfig) : Declared → SymbolId → List Route
  | .function _ d, id => d.decorators.filterMap (Route.ofDecorator h id)
  | _, _ => []

/-- What a definition declares if it is a class. -/
def ofClass {α : Type} (read : String → Definition → Option α) : Declared → Option α
  | .classDef name d => read name d
  | _ => none

def flags : Declared → List PatternRule
  | .function _ d => if Signature.hasMutableDefault d.core then [.mutableDefault] else []
  | _ => []

/-- The entry in the table of symbols of a kind. -/
def tableEntry (kind : SymbolKind) (x : Declared) (id : SymbolId) : Option (String × SymbolId) :=
  if x.kind = kind then some (x.name, id) else none

end Declared

/-- The kind of an assignment to `__all__` and the names assigned. -/
def exportAssignment (statement : Node) : Option (Kind × List String) := do
  let expression ← if statement.kind = .expressionStatement then statement.first? else none
  let left ← expression.child? .left
  let names ← (← expression.child? .right).stringList
  if left.text = "__all__" then some (expression.kind, names) else none

/-- The names in the list `__all__` of a module, which a later assignment
replaces and `+=` extends. -/
def exportedNames (root : Node) : Option (List String) :=
  root.children.foldl (fun exported statement =>
    match exportAssignment statement with
    | some (.assignment, names) => some names
    | some (.augmentedAssignment, names) => some (exported.getD [] ++ names)
    | _ => exported) none

namespace ModuleRecord

/-- Fill in what is found in the syntax tree of the module. -/
def fill (m : ModuleRecord) (h : HeuristicsConfig) (index : RepoIndex) (root : Node) :
    ModuleRecord :=
  let imports := ImportTable.ofModule m.path root
  let declared := Declared.ofModule root
  let numbered := declared.zipIdx m.nextSymbolId
  let rules : List PatternRule :=
    List.replicate imports.wildcards .wildcardImport ++ PatternRule.ofModule m.path root ++
    declared.flatMap (·.flags) ++ PatternRule.ofState m.roleTags root
  let filled : ModuleRecord := { m with
    parsed := true
    symbols := m.symbols ++ numbered.map fun e => e.1.symbol m.id e.2
    importPaths := imports.resolve index
    importAliases := imports.aliases
    functions := m.functions.insertMany (numbered.filterMap fun e => e.1.tableEntry .function e.2)
    properties := m.properties.insertMany (numbered.filterMap fun e => e.1.tableEntry .property e.2)
    dataShapes := m.dataShapes ++ declared.filterMap (Declared.ofClass h.dataShape)
    errors := m.errors ++ declared.filterMap (Declared.ofClass h.errorType)
    routes := m.routes ++ numbered.flatMap fun e => e.1.routes h e.2
    enums := m.enums ++ declared.filterMap (Declared.ofClass h.enumDecl)
    patternFlags := m.patternFlags ++ rules.map (·.flag) }
  filled.trackReexports (exportedNames root)

/-- Fill in what is found in the text of the module; a text with a syntax error
leaves the record as it is. -/
def extract (m : ModuleRecord) (h : HeuristicsConfig) (index : RepoIndex) (source : String) :
    ModuleRecord :=
  match parse source with
  | some root => m.fill h index root
  | none => m

end ModuleRecord

end CodeAtlas
