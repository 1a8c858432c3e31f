import CodeAtlas.Files.Disk
import CodeAtlas.Module.Path

/-!
A bounded memory of the texts of files.

The texts are kept in the order of their last use, and the one not used for the
longest time goes first. A text that is kept is not read again, whatever
happens to its file.
-/
namespace CodeAtlas

/-- Texts of files by path, the last used one first. -/
structure ContentCache where
  /-- The greatest number of texts; none are kept if it is zero. -/
  capacity : Nat
  entries : List (List String × String) := []
  deriving DecidableEq, Repr, Inhabited

namespace ContentCache

def size (c : ContentCache) : Nat := c.entries.length

def isEmpty (c : ContentCache) : Bool := c.entries.isEmpty

def clear (c : ContentCache) : ContentCache := { c with entries := [] }

def others (c : ContentCache) (path : List String) : List (List String × String) :=
  c.entries.filter (·.1 ≠ path)

def peek (c : ContentCache) (path : List String) : Option String := c.entries.lookup path

/-- Make a path the last used one. -/
def touch (c : ContentCache) (path : List String) (text : String) : ContentCache :=
  { c with entries := (path, text) :: c.others path }

/-- Keep a text for a path, in the place of the one not used for the longest
time if there are too many. -/
def store (c : ContentCache) (path : List String) (text : String) : ContentCache :=
  { c with entries := ((path, text) :: c.others path).take c.capacity }

/-- The text of the file at a path: the one kept, or else the one on disk,
which is kept then. -/
def read (c : ContentCache) (d : Disk) (path : String) : Except FileError String × ContentCache :=
  let steps := Path.components path
  match c.peek steps with
  | some text => (.ok text, c.touch steps text)
  | none =>
    match d.readLossy path with
    | .ok text => (.ok text, c.store steps text)
    | .error e => (.error e, c)

end ContentCache

end CodeAtlas
