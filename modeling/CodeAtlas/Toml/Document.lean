import CodeAtlas.Toml.Value

/-!
Putting the lines of a TOML text together.

A line that opens a table sets the place to which later assignments belong. No
value is assigned twice, and no table is opened twice.
-/
namespace CodeAtlas.Toml

inductive Line where
  | assign (path : List String) (v : Value)
  /-- Open the table at a path. -/
  | header (path : List String)
  /-- Open a new table at the end of the array at a path. -/
  | element (path : List String)
  deriving Repr, Inhabited

namespace Entries

/-- Change the table at the end of a path. Tables on the way that are missing
are made. The last table of an open array stands for the array. A path of a key
with dots does not lead into tables that have a header. -/
def update (isDotted : Bool) (change : TableOrigin → Entries → Option Entries) :
    List String → TableOrigin → Entries → Option Entries
  | [], origin, es => change origin es
  | key :: path, _, es =>
    match es.lookup key with
    | none => do
      let origin := if isDotted then TableOrigin.dotted else .implied
      some (es.add key (.table origin (← update isDotted change path origin [])))
    | some (.table origin inner) =>
      if origin = .inline || (isDotted && origin = .header) then none
      else do some (es.replace key (.table origin (← update isDotted change path origin inner)))
    | some (.array true vs) =>
      match vs.getLast? with
      | some (.table origin inner) => do
        let inner ← update isDotted change path origin inner
        some (es.replace key (.array true (vs.dropLast ++ [.table origin inner])))
      | _ => none
    | some _ => none

/-- Assign a value to a key that has none. A key with dots in it adds only to
tables that were made by such keys. -/
def put (isDotted : Bool) (key : String) (v : Value) (origin : TableOrigin) (es : Entries) :
    Option Entries :=
  if isDotted != (origin == .dotted) || (es.lookup key).isSome then none else some (es.add key v)

/-- Assign a value to a key with dots in it, seen from a table. -/
def assign (path : List String) (v : Value) (origin : TableOrigin) (es : Entries) :
    Option Entries :=
  match path.getLast? with
  | none => none
  | some key => update true (put (path.length ≠ 1) key v) path.dropLast origin es

/-- Open a table. One that was only named on the way to another table may be
opened once. -/
def openTable (key : String) (_ : TableOrigin) (es : Entries) : Option Entries :=
  match es.lookup key with
  | none => some (es.add key (.table .header []))
  | some (.table .implied inner) => some (es.replace key (.table .header inner))
  | some _ => none

/-- Open a table at the end of an array. -/
def openElement (key : String) (_ : TableOrigin) (es : Entries) : Option Entries :=
  match es.lookup key with
  | none => some (es.add key (.array true [.table .header []]))
  | some (.array true vs) => some (es.replace key (.array true (vs ++ [.table .header []])))
  | some _ => none

end Entries

/-- All entries so far, and the path of the table that is open. -/
structure Document where
  entries : Entries := []
  place : List String := []
  deriving Repr, Inhabited

namespace Document

/-- Open a table by a change of the table that it is in. -/
def openAt (d : Document) (path : List String)
    (change : String → TableOrigin → Entries → Option Entries) : Option Document := do
  let key ← path.getLast?
  some ⟨← d.entries.update false (change key) path.dropLast .header, path⟩

def add (d : Document) : Line → Option Document
  | .assign path v => do
    some { d with entries := ← d.entries.update false (Entries.assign path v) d.place .header }
  | .header path => d.openAt path Entries.openTable
  | .element path => d.openAt path Entries.openElement

/-- The entries of lines, or `none` if they contradict each other. -/
def build (lines : List Line) : Option Entries := (lines.foldlM add {}).map (·.entries)

end Document

end CodeAtlas.Toml
