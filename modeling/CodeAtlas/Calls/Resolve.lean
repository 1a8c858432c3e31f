import CodeAtlas.Calls.Reexport
import CodeAtlas.Calls.Site
import CodeAtlas.Module.Index

/-!
Turning call sites into edges between symbols.

A dotted name is first looked up directly: the longest leading part that names
a module, then a symbol of it by the next segments. If that finds no symbol,
what packages offer in their own name is followed, for a bounded number of
hops.
-/
namespace CodeAtlas

/-- What a name stands for: a symbol of a module, or a module as a whole. -/
structure Target where
  module : ModuleId
  symbol : SymbolId
  deriving DecidableEq, Repr, Inhabited

/-- Whether only the module is known. -/
def Target.isAnchor (t : Target) : Bool := t.symbol = noSymbol

def maxReexportHops : Nat := 8

structure CallResolver where
  modules : ModuleTable
  index : RepoIndex
  reexports : ReexportMap
  deriving Inhabited

namespace CallResolver

def ofModules (t : ModuleTable) : CallResolver := ⟨t, .build t, .build t⟩

/-- The symbol that the segments behind a module's name stand for. A member of
a class goes before what its first segment alone stands for. -/
def symbolIn (m : ModuleRecord) : List String → Option SymbolId
  | [] => none
  | [name] => m.lookupCallable name
  | owner :: member :: _ => (m.lookupCallable (owner ++ "." ++ member)).or (m.lookupCallable owner)

/-- What a dotted name stands for without regard to what packages offer. -/
def tryDirect (r : CallResolver) (dotted : String) : Option Target := do
  let (path, used) ← r.index.longestPrefixModule dotted
  let m ← r.modules.get? path
  some ⟨m.id, (symbolIn m ((Text.split '.' dotted).drop used)).getD noSymbol⟩

def isPackageInit (r : CallResolver) (module : ModuleId) : Bool :=
  ((r.modules.byId module).map (·.isPackageInit)).getD false

/-- Whether a package might lead further than a target that was found directly. -/
def mayLeadFurther (r : CallResolver) : Option Target → Bool
  | none => true
  | some t => t.isAnchor && r.isPackageInit t.module

/-- The better of what was found directly and what a package led to: a symbol,
if the package led to one. -/
def better : Option Target → Option Target → Option Target
  | none, further => further
  | some direct, some further => if further.isAnchor then some direct else some further
  | some direct, none => some direct

/-- What a dotted name stands for when at most `hops` offers of packages may be
followed. -/
def chase (r : CallResolver) : Nat → String → Option Target
  | 0, dotted => r.tryDirect dotted
  | hops + 1, dotted =>
    let direct := r.tryDirect dotted
    if r.mayLeadFurther direct then better direct ((r.reexports.origin dotted).bind (r.chase hops))
    else direct

/-- What a dotted name stands for when so many hops have been made already. -/
def resolveDotted (r : CallResolver) (dotted : String) (hops : Nat) : Option Target :=
  r.chase (maxReexportHops - hops) dotted

/-- The dotted name of a chain of segments in a module, where an import may
have bound the first one. -/
def expand (m : ModuleRecord) (head : String) (rest : List String) : String :=
  Text.join "." ((m.importAliases.get? head).getD head :: rest)

def resolveQualified (r : CallResolver) (m : ModuleRecord) : List String → Option Target
  | [] => none
  | head :: rest => r.resolveDotted (expand m head rest) 0

/-- What a callee stands for in a module. A plain name can only be a function
of the module itself. -/
def resolveCallee (r : CallResolver) (m : ModuleRecord) : Callee → Option Target
  | .plain name => (m.functions.get? name).map (⟨m.id, ·⟩)
  | .qualified segments => r.resolveQualified m segments

def isProperty (r : CallResolver) (t : Target) : Bool :=
  !t.isAnchor &&
    (((r.modules.byId t.module).bind (·.symbol? t.symbol)).map (·.isProperty)).getD false

/-- The edge of a call site, if the caller is a function of the module and the
callee stands for something. A property is not called. -/
def resolveSite (r : CallResolver) (m : ModuleRecord) (site : CallSite) : Option CallEdge := do
  let caller ← m.functions.get? (← site.caller)
  let target ← r.resolveCallee m site.callee
  if r.isProperty target then none else some ⟨caller, target.module, target.symbol⟩

def resolveModule (r : CallResolver) (m : ModuleRecord) (sites : List CallSite) : List CallEdge :=
  sites.filterMap (r.resolveSite m)

end CallResolver

end CodeAtlas
