import CodeAtlas.Data.Dict
import CodeAtlas.Module.Path

/-!
What the analysis knows of one source file: its identity, the symbols
defined in it, and what was found about them.
-/
namespace CodeAtlas

abbrev ModuleId := Nat
abbrev SymbolId := Nat

/-- The symbol of a module that stands for the module itself. -/
def anchorId : SymbolId := 1

/-- In the target of an edge: the module, and no symbol of it in particular. -/
def noSymbol : SymbolId := 0

inductive SymbolKind where
  | module
  | classDef
  | function
  | property
  deriving DecidableEq, Repr, Inhabited

/-- A short tag for listings. -/
def SymbolKind.tag : SymbolKind → String
  | .module => "mod"
  | .classDef => "cls"
  | .function => "fn"
  | .property => "prop"

def SymbolKind.word : SymbolKind → String
  | .module => "module"
  | .classDef => "class"
  | .function => "function"
  | .property => "property"

/-- What decorators or members make of a definition. -/
structure Modifiers where
  static : Bool := false
  classmethod : Bool := false
  property : Bool := false
  descriptor : Bool := false
  deriving DecidableEq, Repr, Inhabited

/-- The words for the modifiers in reports, in their fixed order. -/
def Modifiers.words (m : Modifiers) : List String :=
  [(m.static, "static"), (m.classmethod, "classmethod"), (m.property, "property"),
    (m.descriptor, "descriptor")]
    |>.filterMap fun (holds, word) => if holds then some word else none

/-- First and last line of a definition, counted from 1; both are 0 for a
symbol without a place in the text. -/
structure LineRange where
  first : Nat := 0
  last : Nat := 0
  deriving DecidableEq, Repr, Inhabited

/-- A definition, or the anchor of a module. -/
structure Symbol where
  moduleId : ModuleId
  id : SymbolId
  kind : SymbolKind
  /-- A plain name, or `Owner.member` for a member of a class. -/
  name : String
  /-- Parameters and result of a function, such as `(a:int,b)->Any`. -/
  signature : Option String := none
  /-- Names of the decorators as written, without arguments. -/
  decorators : List String := []
  modifiers : Modifiers := {}
  /-- What the doc comment requires and ensures. -/
  invariants : Option String := none
  /-- Names of exceptions raised in the body, each once. -/
  raises : List String := []
  lineRange : LineRange := {}
  deriving DecidableEq, Repr, Inhabited

def Symbol.isProperty (s : Symbol) : Bool := s.kind = .property

/-- A call from a symbol of a module to a symbol of a module. -/
structure CallEdge where
  caller : SymbolId
  targetModule : ModuleId
  targetSymbol : SymbolId
  deriving DecidableEq, Repr, Inhabited

/-- Whether only the module of the target is known. -/
def CallEdge.isModuleAnchor (e : CallEdge) : Bool := e.targetSymbol = noSymbol

structure DataField where
  name : String
  typeName : String
  deriving DecidableEq, Repr, Inhabited

/-- A class that declares data, with its annotated fields in order. -/
structure DataShape where
  name : String
  fields : List DataField
  deriving DecidableEq, Repr, Inhabited

structure ErrorType where
  name : String
  category : String
  description : String
  deriving DecidableEq, Repr, Inhabited

/-- A function that answers requests. -/
structure Route where
  symbol : SymbolId
  verb : String
  path : String
  statusCodes : List String
  deriving DecidableEq, Repr, Inhabited

structure EnumDecl where
  name : String
  members : List String
  deriving DecidableEq, Repr, Inhabited

structure PatternFlag where
  rule : String
  category : String
  deriving DecidableEq, Repr, Inhabited

inductive PatternRule where
  | bareExcept
  | evalExec
  | printInProduction
  | wildcardImport
  | mutableDefault
  | globalStateInService
  deriving DecidableEq, Repr, Inhabited

def PatternRule.flag : PatternRule → PatternFlag
  | .bareExcept => ⟨"forbid bare except", "error-handling"⟩
  | .evalExec => ⟨"forbid eval/exec", "security"⟩
  | .printInProduction => ⟨"forbid print in production", "logging"⟩
  | .wildcardImport => ⟨"forbid wildcard import", "namespace"⟩
  | .mutableDefault => ⟨"forbid mutable default arguments", "bug-risk"⟩
  | .globalStateInService => ⟨"forbid global state in svc", "concurrency"⟩

/-- One source file and all that was found in it. -/
structure ModuleRecord where
  id : ModuleId
  /-- Path relative to the root of the analysis. -/
  path : String
  dotted : String
  language : String
  roleTags : NameSet
  /-- Digest of the text, once it has been read. -/
  contentHash : Option String := none
  parsed : Bool := false
  symbols : List Symbol := []
  importPaths : NameSet := {}
  /-- Names bound by imports, with the full names they stand for. -/
  importAliases : Dict String := {}
  /-- Symbols of functions, by `name` or `Class.name`. -/
  functions : Dict SymbolId := {}
  /-- Symbols of properties, by `Class.name`. -/
  properties : Dict SymbolId := {}
  /-- Names that a package offers in its own name, with the full names they
  stand for. -/
  reexports : Dict String := {}
  calls : List CallEdge := []
  dataShapes : List DataShape := []
  errors : List ErrorType := []
  routes : List Route := []
  enums : List EnumDecl := []
  patternFlags : List PatternFlag := []
  deriving DecidableEq, Repr, Inhabited

namespace ModuleRecord

/-- The record of a file of which only the identity is known. -/
def skeleton (id : ModuleId) (path dotted language : String) (roleTags : NameSet) : ModuleRecord :=
  { id, path, dotted, language, roleTags
    symbols := [{ moduleId := id, id := anchorId, kind := .module, name := Path.fileStem path }] }

def isPackageInit (m : ModuleRecord) : Bool := Path.isPackageInit m.path

/-- The number that the next symbol gets: one above all others. -/
def nextSymbolId (m : ModuleRecord) : SymbolId := (m.symbols.map (·.id)).foldl max 0 + 1

/-- The first symbol with a number. -/
def symbol? (m : ModuleRecord) (id : SymbolId) : Option Symbol := m.symbols.find? (·.id = id)

/-- The symbol that a name calls: a function if there is one, else a property. -/
def lookupCallable (m : ModuleRecord) (name : String) : Option SymbolId :=
  (m.functions.get? name).or (m.properties.get? name)

/-- The names of classes and functions that are not members of anything. -/
def topLevelDefinitions (m : ModuleRecord) : List String :=
  m.symbols.filter (fun s => (s.kind = .classDef ∨ s.kind = .function) ∧ '.' ∉ s.name.toList)
    |>.map (·.name)

end ModuleRecord

end CodeAtlas
