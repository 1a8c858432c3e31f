import CodeAtlas.Python.Name
import CodeAtlas.Python.Literal

/-!
Definitions of classes and functions with their decorators.
-/
namespace CodeAtlas.Python

def Node.decoratorExpression (decorator : Node) : Option Node := decorator.first?

/-- The name of a decorator as written, without the arguments of a call. -/
def Node.decoratorName (decorator : Node) : Option String := do
  let expression ← decorator.decoratorExpression
  let target ← if expression.kind = .call then expression.child? .function else some expression
  some target.nameOrText

/-- A statement seen as a definition. -/
structure Definition where
  /-- The whole statement, with its decorators. -/
  statement : Node
  decorators : List Node
  /-- The statement without its decorators. -/
  core : Node
  deriving Repr, Inhabited

namespace Definition

/-- Take the decorators off a statement. -/
def ofStatement (statement : Node) : Definition :=
  if statement.kind = .decoratedDefinition then
    { statement
      decorators := statement.children.filter (·.kind = .decorator)
      core := (statement.child? .definition).getD statement }
  else { statement, decorators := [], core := statement }

def isClass (d : Definition) : Bool := d.core.kind = .classDefinition

def isFunction (d : Definition) : Bool := d.core.kind = .functionDefinition

def name? (d : Definition) : Option String := (d.core.child? .name).map (·.text)

def body? (d : Definition) : Option Node := d.core.child? .body

def decoratorNames (d : Definition) : List String := d.decorators.filterMap (·.decoratorName)

def docstring (d : Definition) : Option String := d.body?.bind (·.docstring)

end Definition

end CodeAtlas.Python
