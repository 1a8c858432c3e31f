/-!
TOML values.

Tables and arrays remember how they were written down, because that decides
whether later lines may add to them.
-/
namespace CodeAtlas.Toml

inductive TableOrigin where
  /-- Written between braces; it is complete. -/
  | inline
  /-- Only named on the way to another table. -/
  | implied
  /-- Made by a key with dots in it. -/
  | dotted
  /-- Opened by a header of its own. -/
  | header
  deriving DecidableEq, Repr, Inhabited

inductive Value where
  | string (text : String)
  | integer (number : Int)
  /-- A float, as it is written. -/
  | float (text : String)
  | boolean (value : Bool)
  /-- A date, a time or both, in their canonical form. -/
  | datetime (text : String)
  /-- An array; it is open if its elements are tables with headers of their own. -/
  | array (isOpen : Bool) (elements : List Value)
  | table (origin : TableOrigin) (entries : List (String × Value))
  deriving Repr, Inhabited

/-- The entries of a table in the order in which they were written. -/
abbrev Entries := List (String × Value)

namespace Entries

def replace (es : Entries) (key : String) (v : Value) : Entries :=
  es.map fun e => if e.1 = key then (key, v) else e

/-- Add a key that is not there yet. -/
def add (es : Entries) (key : String) (v : Value) : Entries := es ++ [(key, v)]

end Entries

end CodeAtlas.Toml
