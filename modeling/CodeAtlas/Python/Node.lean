import CodeAtlas.Grammar.Tree

/-!
Syntax trees of Python as the analyses see them: every node knows its kind, the
field it fills in its parent, the text it covers and the lines that text lies
on. Punctuation leaves no node; comments do, wherever they stand.
-/
namespace CodeAtlas.Python

open CodeAtlas.Grammar (Tree)

/-- The kinds of nodes that some analysis looks at, and all others by name. -/
inductive Kind where
  | module
  | block
  | comment
  | importStatement
  | importFromStatement
  | dottedName
  | aliasedImport
  | relativeImport
  | importPrefix
  | wildcardImport
  | printStatement
  | execStatement
  | raiseStatement
  | expressionStatement
  | assignment
  | augmentedAssignment
  | exceptClause
  | functionDefinition
  | classDefinition
  | decoratedDefinition
  | decorator
  | typedParameter
  | defaultParameter
  | typedDefaultParameter
  | listSplatPattern
  | dictionarySplatPattern
  | lambda
  | call
  | keywordArgument
  | attribute
  | identifier
  | string
  | interpolation
  | list
  | tuple
  | dictionary
  | set
  | other (name : String)
  deriving DecidableEq, Repr, Inhabited

def Kind.ofName : String → Kind
  | "module" => .module
  | "block" => .block
  | "comment" => .comment
  | "import_statement" => .importStatement
  | "import_from_statement" => .importFromStatement
  | "dotted_name" => .dottedName
  | "aliased_import" => .aliasedImport
  | "relative_import" => .relativeImport
  | "import_prefix" => .importPrefix
  | "wildcard_import" => .wildcardImport
  | "print_statement" => .printStatement
  | "exec_statement" => .execStatement
  | "raise_statement" => .raiseStatement
  | "expression_statement" => .expressionStatement
  | "assignment" => .assignment
  | "augmented_assignment" => .augmentedAssignment
  | "except_clause" => .exceptClause
  | "function_definition" => .functionDefinition
  | "class_definition" => .classDefinition
  | "decorated_definition" => .decoratedDefinition
  | "decorator" => .decorator
  | "typed_parameter" => .typedParameter
  | "default_parameter" => .defaultParameter
  | "typed_default_parameter" => .typedDefaultParameter
  | "list_splat_pattern" => .listSplatPattern
  | "dictionary_splat_pattern" => .dictionarySplatPattern
  | "lambda" => .lambda
  | "call" => .call
  | "keyword_argument" => .keywordArgument
  | "attribute" => .attribute
  | "identifier" => .identifier
  | "string" => .string
  | "interpolation" => .interpolation
  | "list" => .list
  | "tuple" => .tuple
  | "dictionary" => .dictionary
  | "set" => .set
  | name => .other name

/-- The places in a parent by which some analysis finds a child, and all others
by name. -/
inductive Field where
  | name
  | alias
  | moduleName
  | body
  | definition
  | superclasses
  | parameters
  | returnType
  | type
  | value
  | left
  | right
  | cause
  | function
  | arguments
  | object
  | attribute
  | other (spelling : String)
  deriving DecidableEq, Repr, Inhabited

def Field.ofName : String → Field
  | "name" => .name
  | "alias" => .alias
  | "module_name" => .moduleName
  | "body" => .body
  | "definition" => .definition
  | "superclasses" => .superclasses
  | "parameters" => .parameters
  | "return_type" => .returnType
  | "type" => .type
  | "value" => .value
  | "left" => .left
  | "right" => .right
  | "cause" => .cause
  | "function" => .function
  | "arguments" => .arguments
  | "object" => .object
  | "attribute" => .attribute
  | spelling => .other spelling

/-- First and last line of a piece of text, counted from 1. -/
structure Lines where
  first : Nat
  last : Nat
  deriving DecidableEq, Repr, Inhabited

inductive Node where
  | mk (kind : Kind) (field : Option Field) (text : String) (lines : Lines) (children : List Node)
  deriving Repr, Inhabited

namespace Node

def kind : Node → Kind
  | mk kind _ _ _ _ => kind

/-- The field the node fills in its parent. -/
def field : Node → Option Field
  | mk _ field _ _ _ => field

def text : Node → String
  | mk _ _ text _ _ => text

def lines : Node → Lines
  | mk _ _ _ lines _ => lines

def children : Node → List Node
  | mk _ _ _ _ children => children

def child? (n : Node) (f : Field) : Option Node :=
  n.children.find? (·.field = some f)

def first? (n : Node) : Option Node := n.children.head?

theorem mem_children_of_child? {n c : Node} {f : Field} (h : n.child? f = some c) :
    c ∈ n.children :=
  List.mem_of_find?_eq_some h

end Node

def spanText (source : Array Char) (s : CodeAtlas.Grammar.Span) : String :=
  String.ofList (source.extract s.start.offset s.stop.offset).toList

mutual

/-- The syntax tree of a parse of `source`. -/
def Node.ofTree (source : Array Char) : Tree → Node
  | .node kind field span children =>
    .mk (.ofName kind) (field.map .ofName) (spanText source span)
      ⟨span.start.line + 1, span.stop.line + 1⟩ (Node.ofTrees source children)

/-- The syntax trees of several parses of parts of `source`. -/
def Node.ofTrees (source : Array Char) : List Tree → List Node
  | [] => []
  | t :: rest => Node.ofTree source t :: Node.ofTrees source rest

end

end CodeAtlas.Python
