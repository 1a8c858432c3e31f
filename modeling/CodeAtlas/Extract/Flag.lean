import CodeAtlas.Module.Record
import CodeAtlas.Python.Walk

/-!
Rules about single nodes, wherever they stand in a module.
-/
namespace CodeAtlas

open Python

/-- The plain name that a call calls. -/
def Python.Node.calledName (call : Node) : Option String :=
  ((call.child? .function).filter (·.kind = .identifier)).map (·.text)

/-- Whether printing is allowed in the module at a path. -/
def isTestPath (path : String) : Bool := Text.contains (Text.toLower path) "test"

namespace PatternRule

def isBare (clause : Node) : Bool :=
  clause.children.all fun c => c.kind = .block || c.kind = .comment

/-- The rules that a node breaks; `test` if printing is allowed. -/
def ofNode (test : Bool) (n : Node) : List PatternRule :=
  match n.kind with
  | .exceptClause => if isBare n then [.bareExcept] else []
  | .call =>
    match n.calledName with
    | some "eval" | some "exec" => [.evalExec]
    | some "print" => if test then [] else [.printInProduction]
    | _ => []
  | .execStatement => [.evalExec]
  | .printStatement => if test then [] else [.printInProduction]
  | _ => []

def ofModule (path : String) (root : Node) : List PatternRule :=
  root.nodes.flatMap (ofNode (isTestPath path))

/-- Whether a statement assigns to a variable without a type. -/
def isPlainAssignment (statement : Node) : Bool :=
  statement.kind = .expressionStatement &&
    statement.first?.any fun e => e.kind = .assignment && (e.child? .type).isNone

/-- In a service, every variable of the module is state that requests share. -/
def ofState (roleTags : NameSet) (root : Node) : List PatternRule :=
  if roleTags.contains "svc" then
    List.replicate (root.children.countP isPlainAssignment) .globalStateInService
  else []

end PatternRule

end CodeAtlas
