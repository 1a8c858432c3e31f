import CodeAtlas.Module.Analysis

/-!
Names that packages offer in their own name although they are defined
elsewhere.
-/
namespace CodeAtlas

/-- The full name of a name in a package; the root package has no name. -/
def qualify (package name : String) : String :=
  if package = "" then name else package ++ "." ++ name

namespace ModuleRecord

/-- What a listed name of a package stands for: what an import binds it to, or
a definition of the package itself. -/
def exportOrigin (m : ModuleRecord) (name : String) : Option String :=
  match m.importAliases.get? name with
  | some origin => some origin
  | none => if m.topLevelDefinitions.contains name then some (qualify m.dotted name) else none

/-- The names that a package offers: all names bound by imports, and those of
the listed names that stand for something. -/
def offered (m : ModuleRecord) (listed : List String) : Dict String :=
  let bound := m.importAliases.toList.map fun (name, origin) => (qualify m.dotted name, origin)
  let named := listed.filterMap fun name => (m.exportOrigin name).map (qualify m.dotted name, ·)
  .ofList (bound ++ named)

/-- Record what the module offers, if it is a package. -/
def trackReexports (m : ModuleRecord) (listed : Option (List String)) : ModuleRecord :=
  if m.isPackageInit then { m with reexports := m.offered (listed.getD []) } else m

end ModuleRecord

/-- What all packages offer; a later module wins. -/
structure ReexportMap where
  entries : Dict String
  deriving DecidableEq, Repr, Inhabited

namespace ReexportMap

def build (t : ModuleTable) : ReexportMap := ⟨.ofList (t.values.flatMap (·.reexports.toList))⟩

/-- What an offered name stands for. A name that stands for itself leads
nowhere. -/
def origin (r : ReexportMap) (name : String) : Option String :=
  (r.entries.get? name).filter (· ≠ name)

def size (r : ReexportMap) : Nat := r.entries.size

def isEmpty (r : ReexportMap) : Bool := r.entries.isEmpty

end ReexportMap

end CodeAtlas
