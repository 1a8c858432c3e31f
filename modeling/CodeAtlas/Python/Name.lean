import CodeAtlas.Python.Node
import CodeAtlas.Text.Split

/-!
Names in syntax trees: identifiers and chains of attributes.
-/
namespace CodeAtlas.Python

mutual

/-- The segments of a chain `a.b.c` of identifiers; `none` if there is a call,
a subscript or a literal in it. -/
def Node.dottedSegments : Node → Option (List String)
  | .mk .identifier _ text _ _ => some [text]
  | .mk .attribute _ _ _ children => do
    let member ← children.find? (·.field = some .attribute)
    let segments ← objectSegments children
    some (segments ++ [member.text])
  | _ => none

/-- The segments of the object of an attribute with these children. -/
def objectSegments : List Node → Option (List String)
  | [] => none
  | c :: rest => if c.field = some .object then c.dottedSegments else objectSegments rest

end

/-- A chain of identifiers in one piece. -/
def Node.dottedName (n : Node) : Option String := n.dottedSegments.map (Text.join ".")

/-- A chain of identifiers in one piece, or else the text as written. -/
def Node.nameOrText (n : Node) : String := n.dottedName.getD n.text

def tailName (name : String) : String := Text.afterLast '.' name

/-- Whether a name is in upper case: it has a letter, and none in lower case. -/
def isUpperName (name : String) : Bool :=
  name.toList.any Text.isAlphabetic && !name.toList.any Text.isLowercase

end CodeAtlas.Python
