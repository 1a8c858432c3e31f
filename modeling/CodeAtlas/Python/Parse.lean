import CodeAtlas.Grammar.Table
import CodeAtlas.Python.Grammar
import CodeAtlas.Python.Lexer
import CodeAtlas.Python.Node

/-!
Parsing Python. The parse table is computed once; a text is read as a whole or
not at all.
-/
namespace CodeAtlas.Python

open CodeAtlas.Grammar (Table parseTree)

def table : Table Token := .ofRules grammar

/-- More steps than reading a text of `n` characters takes: each character is
part of at most one token, line structure adds a few tokens per statement, and
few branches are open at a time. -/
def parseFuel (n : Nat) : Nat := 4096 * (n + 8)

/-- The syntax tree of a text; `none` if it has a syntax error. -/
def parse (source : String) : Option Node :=
  let chars := source.toList
  let tree := parseTree table.automaton table.grammar lexer (.ofText chars) (parseFuel chars.length)
  tree.map (Node.ofTree chars.toArray)

end CodeAtlas.Python
