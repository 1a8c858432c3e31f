import CodeAtlas.Config.Basic
import CodeAtlas.Module.Record
import CodeAtlas.Python.Definition

/-!
What is read off the definition of a class: its bases, its members, and whether
it declares data, errors or an enumeration.
-/
namespace CodeAtlas

open Python

namespace ClassBody

def statements (definition : Node) : List Node :=
  ((definition.child? .body).map (·.children)).getD []

def members (definition : Node) : List Definition :=
  ((statements definition).map Definition.ofStatement).filter (·.isFunction)

def assignments (definition : Node) : List Node :=
  (statements definition).filterMap fun s =>
    if s.kind = .expressionStatement then s.first?.filter (·.kind = .assignment) else none

/-- The bases of a class as written, without keyword arguments. -/
def bases (definition : Node) : List String :=
  let arguments := ((definition.child? .superclasses).map (·.children)).getD []
  (arguments.filter fun a => a.kind ≠ .keywordArgument ∧ a.kind ≠ .comment).map (·.nameOrText)

/-- The methods of a class whose instances act on the attributes they are
assigned to. -/
def descriptorMethods : List String := ["__get__", "__set__", "__set_name__"]

def isDescriptor (definition : Node) : Bool :=
  let names := (members definition).filterMap (·.name?)
  descriptorMethods.all (names.contains ·)

/-- Give a field its type; a field that is there already keeps its place. -/
def putField (name typeName : String) : List DataField → List DataField
  | [] => [⟨name, typeName⟩]
  | f :: rest =>
    if f.name = name then ⟨name, typeName⟩ :: rest else f :: putField name typeName rest

/-- The annotated fields of a class in the order of their first declarations,
with the types of the last. -/
def fields (definition : Node) : List DataField :=
  (assignments definition).foldl (fun found assignment =>
    match assignment.child? .left, assignment.child? .type with
    | some target, some type =>
      if target.kind = .identifier then putField target.text (Text.collapseBlanks type.text) found
      else found
    | _, _ => found) []

mutual

/-- The targets of a chain of assignments `a = b = value`. -/
def chainTargets : Node → List Node
  | .mk _ _ _ _ children =>
    (children.find? (·.field = some .left)).toList ++ furtherTargets children

/-- The targets in the value of an assignment with these children. -/
def furtherTargets : List Node → List Node
  | [] => []
  | c :: rest =>
    if c.field = some .right then (if c.kind = .assignment then chainTargets c else [])
    else furtherTargets rest

end

/-- The members of an enumeration: names in upper case that are assigned to
without a type. -/
def enumMembers (definition : Node) : List String :=
  let untyped := (assignments definition).filter fun a => (a.child? .type).isNone
  (untyped.flatMap chainTargets).filterMap fun target =>
    if target.kind = .identifier ∧ isUpperName target.text then some target.text else none

end ClassBody

def anyEndsWith (names markers : List String) : Bool :=
  names.any fun name => markers.any fun marker => Text.endsWith name marker

namespace HeuristicsConfig

def enumDecl (h : HeuristicsConfig) (name : String) (d : Definition) : Option EnumDecl :=
  let members := ClassBody.enumMembers d.core
  if anyEndsWith (ClassBody.bases d.core) h.enumSuffixes ∧ members ≠ [] then some ⟨name, members⟩
  else none

def errorType (h : HeuristicsConfig) (name : String) (d : Definition) : Option ErrorType :=
  if anyEndsWith (ClassBody.bases d.core) h.exceptionSuffixes then
    some ⟨name, "domain", "custom exception"⟩
  else none

def dataShape (h : HeuristicsConfig) (name : String) (d : Definition) : Option DataShape :=
  if anyEndsWith d.decoratorNames h.dataclassMarkers ||
      anyEndsWith (ClassBody.bases d.core) h.modelBases then
    some ⟨name, ClassBody.fields d.core⟩
  else none

end HeuristicsConfig

end CodeAtlas
