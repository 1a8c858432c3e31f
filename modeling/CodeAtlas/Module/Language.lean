/-!
The languages whose texts can be understood.
-/
namespace CodeAtlas

/-- A language whose texts can be understood. -/
structure Language where
  name : String
  extensions : List String
  deriving DecidableEq, Repr, Inhabited

def Language.ofTag : String → Option Language
  | "py" => some ⟨"python", ["py"]⟩
  | _ => none

end CodeAtlas
