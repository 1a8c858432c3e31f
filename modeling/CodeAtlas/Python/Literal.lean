import CodeAtlas.Python.Node
import CodeAtlas.Text.Split

/-!
The texts that string literals stand for, as far as they are written plainly.
-/
namespace CodeAtlas.Python

def unquote? (quote body : List Char) : Option (List Char) :=
  if 2 * quote.length ≤ body.length ∧ quote.isPrefixOf body ∧ quote.isSuffixOf body then
    some ((body.drop quote.length).take (body.length - 2 * quote.length))
  else none

/-- What stands between the quotes of a literal, without the letters in front
of them. -/
def literalBody (text : String) : Option String :=
  let body := text.toList.dropWhile (['r', 'R', 'b', 'B', 'u', 'U', 'f', 'F'].contains ·)
  [['"', '"', '"'], ['\'', '\'', '\''], ['"'], ['\'']].findSome? (unquote? · body)
    |>.map String.ofList

/-- The text of a string literal, with escapes as written. A literal with an
interpolation or made of several literals has none. -/
def Node.stringLiteral (n : Node) : Option String :=
  if n.kind = .string ∧ !n.children.any (·.kind = .interpolation) then literalBody n.text else none

/-- The string literals among the elements of a list or a tuple. -/
def Node.stringList (n : Node) : Option (List String) :=
  if n.kind = .list ∨ n.kind = .tuple then some (n.children.filterMap (·.stringLiteral)) else none

/-- The doc comment that a module or a block starts with. -/
def Node.docstring (body : Node) : Option String := do
  let statement ← body.first?
  if statement.kind = .expressionStatement then (← statement.first?).stringLiteral else none

end CodeAtlas.Python
