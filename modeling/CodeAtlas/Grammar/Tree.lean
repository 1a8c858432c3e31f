/-!
The trees a parse produces: nodes with a kind, the field they fill in their
parent, the text range they cover and their children. Tokens leave a node
only where the grammar names them.
-/
namespace CodeAtlas.Grammar

/-- A position in a text: characters before it, and line breaks before it. -/
structure Mark where
  offset : Nat
  line : Nat
  deriving DecidableEq, Repr, Inhabited

/-- A piece of text, from `start` up to and without `stop`. -/
structure Span where
  start : Mark
  stop : Mark
  deriving DecidableEq, Repr, Inhabited

inductive Tree where
  | node (kind : String) (field : Option String) (span : Span) (children : List Tree)
  deriving Repr, Inhabited

/-- Put a node under a field, unless it already has one. -/
def Tree.label (name : String) : Tree → Tree
  | .node kind field span children => .node kind (field.or (some name)) span children

/-- Nodes in order, joined in constant time. -/
inductive Forest where
  | empty
  | tree (t : Tree)
  | join (first second : Forest)
  deriving Inhabited

namespace Forest

/-- The nodes of a forest in front of others. -/
def prepend : Forest → List Tree → List Tree
  | .empty, rest => rest
  | .tree t, rest => t :: rest
  | .join a b, rest => a.prepend (b.prepend rest)

def toList (f : Forest) : List Tree := f.prepend []

/-- Put the first node of a forest under a field. -/
def label (name : String) : Forest → Forest
  | .empty => .empty
  | .tree t => .tree (t.label name)
  | .join .empty b => .join .empty (b.label name)
  | .join a b => .join (a.label name) b

end Forest

end CodeAtlas.Grammar
