import CodeAtlas.Config.Basic
import CodeAtlas.Extract.Invariant
import CodeAtlas.Module.Record
import CodeAtlas.Python.Definition
import CodeAtlas.Python.Walk

/-!
What is read off the definition of a function: its signature, the exceptions it
raises, and the requests it answers.
-/
namespace CodeAtlas

open Python

namespace Signature

def annotated (name : String) (declared : Option Node) : String :=
  match declared with
  | some type => name ++ ":" ++ Text.collapseBlanks type.text
  | none => name

def isSplat (n : Node) : Bool := n.kind = .listSplatPattern || n.kind = .dictionarySplatPattern

/-- How a parameter is written in a signature: without its default, and without
its type if it takes several arguments. -/
def parameter (p : Node) : Option String :=
  match p.kind with
  | .identifier => some p.text
  | .typedParameter => p.first?.map fun target =>
    if isSplat target then Text.collapseBlanks target.text
    else annotated target.text (p.child? .type)
  | .defaultParameter => (p.child? .name).map (·.text)
  | .typedDefaultParameter => (p.child? .name).map fun name => annotated name.text (p.child? .type)
  | .listSplatPattern | .dictionarySplatPattern => some (Text.collapseBlanks p.text)
  | _ => none

def parameters (function : Node) : List Node :=
  ((function.child? .parameters).map (·.children)).getD []

/-- The signature of a function; a result without a type is `Any`. -/
def ofFunction (function : Node) : String :=
  let result :=
    ((function.child? .returnType).map fun type => Text.collapseBlanks type.text).getD "Any"
  "(" ++ Text.join "," ((parameters function).filterMap parameter) ++ ")->" ++ result

/-- Whether an expression makes a new object that can be changed. -/
def isMutable (value : Node) : Bool :=
  value.kind = .list || value.kind = .dictionary || value.kind = .set

/-- Whether some parameter has a default that calls can change. -/
def hasMutableDefault (function : Node) : Bool :=
  (parameters function).any fun p =>
    (p.kind = .defaultParameter || p.kind = .typedDefaultParameter) &&
      (p.child? .value).any isMutable

end Signature

namespace Raise

/-- What a raise statement raises: its first operand that is neither a comment
nor the cause. -/
def operand (statement : Node) : Option Node :=
  statement.children.find? fun c => c.kind ≠ .comment ∧ c.field ≠ some .cause

def name (statement : Node) : String :=
  match operand statement with
  | none => "ReRaise"
  | some exception =>
    let named := match exception.kind with
      | .call => exception.child? .function
      | .identifier | .attribute => some exception
      | _ => none
    (named.bind (·.dottedName)).getD "Exception"

/-- Whether raise statements below a node are raised by the function around the node. -/
def passable (n : Node) : Bool := n.kind ≠ .functionDefinition && n.kind ≠ .raiseStatement

/-- The raise statements of a body, without those of functions in it. -/
def statements (body : Node) : List Node :=
  (body.listing passable (maxDepth + 1)).filter (·.kind = .raiseStatement)

/-- The names of the exceptions that a function raises, each once, in the order
of their first statements. -/
def names (function : Node) : List String :=
  match function.child? .body with
  | some body => ((statements body).map name).eraseDups
  | none => []

end Raise

namespace Route

def isPositional (argument : Node) : Bool :=
  argument.kind ≠ .keywordArgument && argument.kind ≠ .comment

def keywordValue (arguments : List Node) (name : String) : Option Node := do
  let argument ← arguments.find? fun a =>
    a.kind = .keywordArgument ∧ (a.child? .name).map (·.text) = some name
  argument.child? .value

/-- The verb of a route by its list of methods. -/
def listedVerb (arguments : List Node) : Option String := do
  let methods ← (← keywordValue arguments "methods").stringList
  methods.head?.map Text.toUpper

/-- The route that a decorator declares: `@app.get("/x")` with a known verb, or
`@app.route("/x", methods=["POST"])`. -/
def ofDecorator (h : HeuristicsConfig) (symbol : SymbolId) (decorator : Node) : Option Route := do
  let call ← decorator.decoratorExpression
  if call.kind ≠ .call then none
  let segments ← (← call.child? .function).dottedSegments
  let arguments := (← call.child? .arguments).children
  let path := (arguments.find? isPositional).bind (·.stringLiteral)
  let route (verb path : String) : Route := ⟨symbol, verb, path, h.defaultStatusCodes⟩
  match segments with
  | [_, verb] =>
    if h.httpVerbs.contains verb then path.map (route (Text.toUpper verb))
    else if verb = h.routeAttribute then
      path.map (route ((listedVerb arguments).getD h.defaultVerb))
    else none
  | _ :: _ :: _ =>
    if segments.getLast? = some h.routeAttribute then
      path.map (route ((listedVerb arguments).getD h.defaultVerb))
    else none
  | _ => none

end Route

end CodeAtlas
