import CodeAtlas.Proofs.ImportStyle
import CodeAtlas.Proofs.Linked
import CodeAtlas.Proofs.Mirrored

/-! # Properties and functions of one name

A property is never called: a call whose name leads to a property gets no edge.
But a setter or a deleter of a property is a function with the name of the
property, and names are looked up among functions first. So every edge leads to
a function that the table of its module knows by its name, and where a class
has a property and a function of one name, a call of that name leads to the
function. -/
namespace CodeAtlas

/-! ## Tables of a whole analysis -/

theorem Scan.Outcome.tabulated {c : Context} {m m' : ModuleRecord} (ho : Outcome c m m')
    (hm : m.Tabulated) : m'.Tabulated := by
  apply ho.keeps hm
  · intro m digest hm
    exact ⟨hm.functions, hm.properties⟩
  · exact ModuleRecord.fill_tabulated

theorem Engine.analyze_tabulated {e : Engine} {d : Disk} {r : Request} {a : Analysis}
    (h : (e.analyze d r).1 = .ok a) {k : String} {m : ModuleRecord}
    (hm : a.modules.get? k = some m) : m.Tabulated := by
  unfold Engine.analyze at h
  split at h
  · cases h
  · cases h
    obtain ⟨m₀, hm₀, ho⟩ := Scan.table_origin (indexFiles_scanned _ _) hm
    obtain ⟨file, id, _, _, rfl⟩ := indexFiles_origin hm₀
    exact ho.tabulated (ModuleRecord.skeleton_tabulated ..)

/-! ## What edges lead to -/

/-- The edge leads to a function that its module knows by its name. If
the module has a property of that name as well, the property is another symbol. -/
def CallEdge.ToFunction (t : ModuleTable) (e : CallEdge) : Prop :=
  ∃ target ∈ t.values, target.id = e.targetModule ∧
    ∃ s ∈ target.symbols, s.id = e.targetSymbol ∧ s.kind = .function ∧
    target.functions.get? s.name = some s.id ∧
    ∀ p, target.properties.get? s.name = some p →
      p ≠ s.id ∧ ∃ property ∈ target.symbols, property.id = p ∧ property.kind = .property ∧
        property.name = s.name

namespace CallResolver

variable {t : ModuleTable} {k : String} {m : ModuleRecord}

/-- A symbol that a callee stands for is in one of the tables of its module. -/
theorem resolveCallee_callable (hm : t.get? k = some m) {callee : Callee} {target : Target}
    (h : (ofModules t).resolveCallee m callee = some target) (hsymbol : target.symbol ≠ noSymbol) :
    ∃ path owner name, t.get? path = some owner ∧ owner.id = target.module ∧
      owner.lookupCallable name = some target.symbol := by
  match callee, h with
  | .plain name, h =>
    obtain ⟨id, hid, rfl⟩ := Option.map_eq_some_iff.mp h
    exact ⟨k, m, name, hm, rfl, Option.or_eq_some_iff.mpr (.inl hid)⟩
  | .qualified (head :: rest), h =>
    obtain ⟨name, hname⟩ := exists_tryDirect_of_chase h
    obtain ⟨path, used, owner, _, howner, rfl⟩ := tryDirect_eq_some_iff.mp hname
    cases hs : symbolIn owner ((Text.split '.' name).drop used) with
    | none => exact absurd (by rw [hs]; rfl) hsymbol
    | some id =>
      obtain ⟨name, hname⟩ := symbolIn_callable hs
      exact ⟨path, owner, name, howner, rfl, hname⟩

/-- Edges over tables that hold the last symbols of all names lead to
functions. -/
theorem resolveSite_toFunction (ht : t.Scanned) (htables : ∀ k m, t.get? k = some m → m.Tabulated)
    (hm : t.get? k = some m) {site : CallSite} {e : CallEdge}
    (h : (ofModules t).resolveSite m site = some e) (hsymbol : e.targetSymbol ≠ noSymbol) :
    e.ToFunction t := by
  obtain ⟨key, caller, target, _, _, htarget, hprop, rfl⟩ := resolveSite_eq_some_iff.mp h
  obtain ⟨path, owner, name, howner, hid, hname⟩ := resolveCallee_callable hm htarget hsymbol
  have htables := htables path owner howner
  obtain ⟨module, symbol⟩ := target
  obtain rfl : owner.id = module := hid
  refine ⟨owner, Dict.mem_values_of_get? howner, rfl, ?_⟩
  rcases Option.or_eq_some_iff.mp hname with hfunction | ⟨_, hproperty⟩
  · obtain ⟨s, hs, rfl, hkind, rfl⟩ :=
      ModuleRecord.mem_of_lastSymbol (htables.functions name ▸ hfunction)
    refine ⟨s, hs, rfl, hkind, hfunction, ?_⟩
    intro p hp
    obtain ⟨property, hproperty, rfl, hpkind, hpname⟩ :=
      ModuleRecord.mem_of_lastSymbol (htables.properties s.name ▸ hp)
    refine ⟨?_, property, hproperty, rfl, hpkind, hpname⟩
    intro hsame
    have hdistinct := isProperty_eq ht howner hproperty
    rw [hsame, isProperty_eq ht howner hs, hkind, hpkind] at hdistinct
    cases hdistinct
  · -- had it been found among the properties only, the edge would have been dropped
    obtain ⟨s, hs, rfl, hkind, _⟩ :=
      ModuleRecord.mem_of_lastSymbol (htables.properties name ▸ hproperty)
    rw [isProperty_eq ht howner hs, hkind] at hprop
    cases hprop

/-- A call that spells out the name of a function gets its edge, whether or not
there is a property of that name. -/
theorem resolveSite_spelled (ht : t.Scanned) {key : String} {caller : SymbolId}
    (hcaller : m.functions.get? key = some caller) {segments path : List String}
    {module : ModuleRecord} {id : SymbolId} (h : t.Defines segments path module id)
    (hfirst : ∀ origin, m.importAliases.get? (segments.headD "") = some origin →
      origin = segments.headD "")
    (line : Nat) :
    (ofModules t).resolveSite m ⟨some key, .qualified (segments ++ path), line⟩ =
      some ⟨caller, module.id, id⟩ := by
  obtain ⟨k, _, hk⟩ := Option.bind_eq_some_iff.mp h.owner
  obtain ⟨s, hs, hid, hkind⟩ :=
    (ht.coherent_at hk).functions (_, id) (Dict.mem_toList.mpr h.function)
  have hprop := isProperty_eq ht hk hs
  rw [show s.id = id from hid, hkind] at hprop
  have hcallee := resolveQualified_spelled h hfirst
  exact resolveSite_eq_some_iff.mpr ⟨key, caller, ⟨module.id, id⟩, rfl, hcaller, hcallee, hprop,
    rfl⟩

end CallResolver

/-! ## Runs -/

namespace Engine

variable {e : Engine} {d : Disk} {r : Request} {b : Analysis}

/-- A run that succeeds is the second pass over the table of the first. -/
theorem run_origin (h : (e.run d r).1 = .ok b) :
    ∃ a cache, (e.analyze d r).1 = .ok a ∧ b.modules = (Link.table d r.root cache a.modules).1 := by
  unfold run at h
  split at h
  · cases h
  · rename_i a e' ha
    split at h
    · cases h
    · rename_i linked e'' hlinked
      refine ⟨a, e'.cache, congrArg Prod.fst ha, ?_⟩
      have hb : linked = b := by
        unfold checked at h
        split at h
        · exact Except.ok.inj h
        · cases h
      have hlinked := congrArg Prod.fst hlinked
      unfold resolveCalls relink at hlinked
      cases hroot : d.root r.root with
      | error why =>
        rw [hroot] at hlinked
        cases hlinked
      | ok place =>
        rw [hroot] at hlinked
        rw [← hb, ← Except.ok.inj hlinked]

theorem run_toFunction (h : (e.run d r).1 = .ok b) {m : ModuleRecord} (hm : m ∈ b.modules.values)
    {edge : CallEdge} (hedge : edge ∈ m.calls) (hsymbol : edge.targetSymbol ≠ noSymbol) :
    edge.ToFunction b.modules := by
  obtain ⟨a, cache, ha, hb⟩ := run_origin h
  have hscanned := analyze_scanned ha
  rw [hb] at hm ⊢
  obtain ⟨k, hk⟩ := Dict.mem_values.mp hm
  obtain ⟨m₀, sites, hm₀, rfl⟩ := Link.table_origin hscanned hk
  obtain ⟨site, _, hsite⟩ := CallResolver.mem_resolveModule.mp hedge
  obtain ⟨target, htarget, hid, hsymbol⟩ :=
    CallResolver.resolveSite_toFunction hscanned (fun _ _ => analyze_tabulated ha) hm₀ hsite hsymbol
  obtain ⟨path, hpath⟩ := Dict.mem_values.mp htarget
  obtain ⟨calls, hkept⟩ := Link.table_keeps d r.root cache hpath
  exact ⟨{ target with calls }, Dict.mem_values_of_get? hkept, hid, hsymbol⟩

/-- **Edges lead to functions, and a function goes before a property of its
name.** In the outcome of any run, an edge to a symbol leads to a function that
its module knows by its name; a property of that name in the module is another
symbol, so that there is none unless a class defines both. Where a module has
both, the property does not shield its name: over every table as the first pass
returns it, a call in a function that spells out the name, and whose first
segment no import binds to something else, gets an edge to the function. -/
theorem run_edges_lead_to_functions (e : Engine) (d : Disk) (r : Request) :
    (∀ b, (e.run d r).1 = .ok b → ∀ m ∈ b.modules.values, ∀ edge ∈ m.calls,
      edge.targetSymbol ≠ noSymbol →
      edge.ToFunction b.modules) ∧
    ∀ t : ModuleTable, t.Scanned → ∀ (m : ModuleRecord) key caller,
      m.functions.get? key = some caller →
      ∀ segments path module id, t.Defines segments path module id →
        (∀ origin, m.importAliases.get? (segments.headD "") = some origin →
          origin = segments.headD "") → ∀ line,
        (CallResolver.ofModules t).resolveSite m ⟨some key, .qualified (segments ++ path), line⟩ =
          some ⟨caller, module.id, id⟩ := by
  refine ⟨fun b hb m hm edge => run_toFunction hb hm, ?_⟩
  intro t ht m key caller hcaller segments path module id hdefines hfirst line
  exact CallResolver.resolveSite_spelled ht hcaller hdefines hfirst line

theorem run_of_find (h : (e.find d r).isOk = true) : ∃ b, (e.run d r).1 = .ok b := by
  obtain ⟨a, ha⟩ := analyze_of_find h
  unfold run
  split
  · rename_i why e' hanalyze
    rw [hanalyze] at ha
    cases ha
  · rename_i a' e' hanalyze
    have hscanned : a'.modules.Scanned := analyze_scanned (congrArg Prod.fst hanalyze)
    rcases resolveCalls_outcome hscanned e' d r.root with ⟨why, hroot, _⟩ | ⟨b, hb, hconsistent⟩
    · -- without a root no files would have been found
      unfold find at h
      rw [hroot] at h
      cases h
    · split
      · rename_i why e'' hlinked
        rw [hlinked] at hb
        cases hb
      · rename_i linked e'' hlinked
        rw [hlinked] at hb
        cases hb
        exact ⟨b, checked_of_consistent hconsistent⟩

def clientRecord : ModuleRecord :=
  (ModuleRecord.skeleton 2 "client.py" "client" "py" {}).withFunction "run"

/-- A module with a function that may call members of the class in the
other module. -/
def serviceTable : ModuleTable :=
  .ofList [("client.py", clientRecord), ("service.py", ModuleRecord.serviceRecord)]

/-- A call by the name of a property leads to the setter of the property. -/
theorem setter_called_by_property_name :
    (CallResolver.ofModules serviceTable).resolveSite clientRecord
        ⟨some "run", .qualified ["service", "Service", "config"], 4⟩ = some ⟨2, 1, 4⟩ ∧
      ∃ s ∈ ModuleRecord.serviceRecord.symbols, s.id = 4 ∧
        ModuleRecord.serviceRecord.properties.get? s.name = some 3 := by
  decide +kernel

/-- In a run over two modules all edges lead to functions, and a setter is
found by the name of its property. -/
theorem edges_lead_to_functions_and_setter :
    (∃ b, ((ofConfig {}).run callingProject ⟨"proj", none, none⟩).1 = .ok b ∧
      ∀ m ∈ b.modules.values, ∀ edge ∈ m.calls, edge.targetSymbol ≠ noSymbol →
        edge.ToFunction b.modules) ∧
    serviceTable.Scanned ∧
    serviceTable.Defines ["service"] ["Service", "config"] ModuleRecord.serviceRecord 4 ∧
    (CallResolver.ofModules serviceTable).resolveSite clientRecord
      ⟨some "run", .qualified ["service", "Service", "config"], 4⟩ = some ⟨2, 1, 4⟩ := by
  have hfind : ((ofConfig {}).find callingProject ⟨"proj", none, none⟩).isOk = true := by
    decide +kernel
  have hscanned : serviceTable.Scanned := by decide +kernel
  have hdefines :
      serviceTable.Defines ["service"] ["Service", "config"] ModuleRecord.serviceRecord 4 :=
    ⟨by decide +kernel, by decide, by decide, by decide, by decide +kernel, by decide,
      by decide +kernel⟩
  obtain ⟨b, hb⟩ := run_of_find hfind
  obtain ⟨hrun, htable⟩ :=
    run_edges_lead_to_functions (ofConfig {}) callingProject ⟨"proj", none, none⟩
  refine ⟨⟨b, hb, hrun b hb⟩, hscanned, hdefines, ?_⟩
  exact htable serviceTable hscanned clientRecord "run" 2 (by decide +kernel) ["service"]
    ["Service", "config"] _ 4 hdefines
    (by intro origin horigin; cases horigin) 4

end Engine

end CodeAtlas
