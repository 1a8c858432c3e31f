import CodeAtlas.Python.Name
import CodeAtlas.Python.Walk

/-!
The calls written in a module, and the definitions they stand in.
-/
namespace CodeAtlas

open Python

inductive Callee where
  | plain (name : String)
  /-- A chain of attributes, by its segments. -/
  | qualified (segments : List String)
  deriving DecidableEq, Repr, Inhabited

structure CallSite where
  /-- The name of the function or method around the call; `none` at module
  level, in the body of a class, and in a lambda or a function that has no name
  of its own in the module. -/
  caller : Option String
  callee : Callee
  line : Nat
  deriving DecidableEq, Repr, Inhabited

/-- What is known of the definitions around a node. -/
inductive Scope where
  | module
  /-- In the body of a class at module level. -/
  | classBody (name : String)
  /-- In a function, which has a name in the module or has none. -/
  | function (key : Option String)
  deriving DecidableEq, Repr, Inhabited

namespace Scope

/-- The function that calls from here are made by. -/
def caller : Scope → Option String
  | .function key => key
  | .module | .classBody _ => none

/-- The scope in the body of a node. -/
def body (s : Scope) (n : Node) : Scope :=
  let name := (n.child? .name).map (·.text)
  match n.kind with
  | .functionDefinition =>
    match s, name with
    | .module, some name => .function (some name)
    | .classBody owner, some name => .function (some (owner ++ "." ++ name))
    | _, _ => .function none
  | .classDefinition =>
    match s, name with
    | .module, some name => .classBody name
    | .module, none => .function none
    | .classBody _, _ => .function none
    | .function key, _ => .function key
  | .lambda => .function none
  | _ => s

/-- The scope of a child: only the body of a definition is inside it, while
bases, defaults and annotations are outside. -/
def inside (s : Scope) (n child : Node) : Scope :=
  if child.field = some .body then s.body n else s

end Scope

def Python.Node.callee (call : Node) : Option Callee := do
  let function ← call.child? .function
  match function.kind with
  | .identifier => some (.plain function.text)
  | .attribute => function.dottedSegments.map .qualified
  | _ => none

def CallSite.of? (s : Scope) (n : Node) : Option CallSite :=
  if n.kind = .call then n.callee.map fun callee => ⟨s.caller, callee, n.lines.first⟩ else none

def callSites (root : Node) : List CallSite :=
  (root.placed Scope.inside (maxDepth + 1) .module).filterMap fun (s, n) => CallSite.of? s n

end CodeAtlas
