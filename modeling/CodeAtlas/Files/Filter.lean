import CodeAtlas.Files.Glob
import CodeAtlas.Text.Split

/-!
Choosing paths by patterns.

A pattern speaks of a path if it matches the path or what stands behind one of
its slashes, so `*.py` and `tests/*.py` mean the same at any depth.
-/
namespace CodeAtlas

def suffixesBehindSlash : List Char → List (List Char)
  | [] => []
  | c :: rest => if c = '/' then rest :: suffixesBehindSlash rest else suffixesBehindSlash rest

/-- The path and what stands behind each of its slashes. -/
def trailingPaths (path : String) : List String :=
  path :: (suffixesBehindSlash path.toList).map String.ofList

/-- Whether some trailing part of a path has a property. -/
def matchesFromRight (isMatch : String → Bool) (path : String) : Bool :=
  (trailingPaths path).any isMatch

structure PathFilter where
  includeGlob : Option Glob := none
  excludeGlob : Option Glob := none
  deriving Repr, Inhabited

structure PatternError where
  pattern : String
  cause : GlobError
  deriving DecidableEq, Repr, Inhabited

def PatternError.message (e : PatternError) : String :=
  "Invalid glob pattern '" ++ e.pattern ++ "': error parsing glob '" ++ e.pattern ++ "': " ++
    e.cause.message

namespace PathFilter

/-- Read a pattern if there is one. -/
def compile (pattern : Option String) : Except PatternError (Option Glob) :=
  match pattern with
  | none => .ok none
  | some p =>
    match Glob.parse p with
    | .ok g => .ok (some g)
    | .error e => .error ⟨p, e⟩

/-- Read the pattern that paths have to match, and the one they must not match. -/
def ofPatterns (included excluded : Option String) : Except PatternError PathFilter := do
  return ⟨← compile included, ← compile excluded⟩

def accepts (f : PathFilter) (path : String) : Bool :=
  (match f.includeGlob with
    | some g => matchesFromRight g.isMatch path
    | none => true) &&
  match f.excludeGlob with
  | some g => !matchesFromRight g.isMatch path
  | none => true

end PathFilter

end CodeAtlas
