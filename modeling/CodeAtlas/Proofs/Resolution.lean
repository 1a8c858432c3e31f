import CodeAtlas.Calls.Resolve
import CodeAtlas.Proofs.Scanned

/-! # How call sites are resolved

One inversion lemma for each step of the resolver: what it takes to find a
target directly, through packages, for a callee, and for a call site to get its
edge. The first use of them is that over a scanned table every edge fits: its
caller is a symbol of the module, and its target is there and can be called. -/
namespace CodeAtlas

theorem ReexportMap.build_eq (t : ModuleTable) :
    build t = ⟨.ofList (t.toList.flatMap (·.2.reexports.toList))⟩ := by
  unfold build Dict.values
  rw [List.flatMap_map]
  rfl

namespace CallResolver

variable {r : CallResolver} {m : ModuleRecord} {dotted : String} {target : Target}

theorem tryDirect_eq_some_iff : r.tryDirect dotted = some target ↔
    ∃ path used m, r.index.longestPrefixModule dotted = some (path, used) ∧
      r.modules.get? path = some m ∧
      target = ⟨m.id, (symbolIn m ((Text.split '.' dotted).drop used)).getD noSymbol⟩ := by
  unfold tryDirect
  constructor
  · intro h
    obtain ⟨⟨path, used⟩, hp, h⟩ := Option.bind_eq_some_iff.mp h
    obtain ⟨m, hm, h⟩ := Option.bind_eq_some_iff.mp h
    exact ⟨path, used, m, hp, hm, (Option.some.inj h).symm⟩
  · rintro ⟨path, used, m, hp, hm, rfl⟩
    simp [hp, hm]

/-- A symbol that is found directly is the answer, whatever the number of hops. -/
theorem chase_of_symbol (hops : Nat) (h : r.tryDirect dotted = some target)
    (hsymbol : target.symbol ≠ noSymbol) : r.chase hops dotted = some target := by
  have hfinal : r.mayLeadFurther (some target) = false := by
    simp [mayLeadFurther, Target.isAnchor, hsymbol]
  cases hops with
  | zero => exact h
  | succ hops => simp [chase, h, hfinal]

theorem isPackageInit_of_get? {t : ModuleTable} {k : String} (hids : t.DistinctIds)
    (hm : t.get? k = some m) : (ofModules t).isPackageInit m.id = m.isPackageInit := by
  have hbyId : t.byId m.id = some m :=
    (ModuleTable.byId_eq_some_iff hids).mpr ⟨Dict.mem_values_of_get? hm, rfl⟩
  show ((t.byId m.id).map _).getD false = _
  rw [hbyId]
  rfl

/-- Segments mean what they spell unless an import binds the first one to
something else. -/
theorem resolveQualified_of_unbound {first : String} (rest : List String)
    (h : (m.importAliases.get? first).getD first = first) :
    r.resolveQualified m (first :: rest) = r.resolveDotted (Text.join "." (first :: rest)) 0 := by
  rw [resolveQualified, expand, h]

/-- Whatever is found is found directly, under the name asked for or under one
that packages lead to. -/
theorem exists_tryDirect_of_chase {hops : Nat} (h : r.chase hops dotted = some target) :
    ∃ name, r.tryDirect name = some target := by
  induction hops generalizing dotted with
  | zero => exact ⟨dotted, h⟩
  | succ hops ih =>
    simp only [chase] at h
    split at h
    · cases hd : r.tryDirect dotted with
      | none =>
        rw [hd] at h
        obtain ⟨name, _, h⟩ := Option.bind_eq_some_iff.mp h
        exact ih h
      | some direct =>
        rw [hd] at h
        cases hf : (r.reexports.origin dotted).bind (r.chase hops) with
        | none =>
          rw [hf] at h
          exact ⟨dotted, hd.trans h⟩
        | some further =>
          rw [hf] at h
          simp only [better] at h
          split at h
          · exact ⟨dotted, hd.trans h⟩
          · obtain ⟨name, _, hf⟩ := Option.bind_eq_some_iff.mp hf
            exact ih (hf.trans h)
    · exact ⟨dotted, h⟩

theorem resolveSite_eq_some_iff {site : CallSite} {e : CallEdge} : r.resolveSite m site = some e ↔
    ∃ key caller target, site.caller = some key ∧ m.functions.get? key = some caller ∧
      r.resolveCallee m site.callee = some target ∧ r.isProperty target = false ∧
      e = ⟨caller, target.module, target.symbol⟩ := by
  unfold resolveSite
  constructor
  · intro h
    obtain ⟨key, hkey, h⟩ := Option.bind_eq_some_iff.mp h
    obtain ⟨caller, hcaller, h⟩ := Option.bind_eq_some_iff.mp h
    obtain ⟨target, htarget, h⟩ := Option.bind_eq_some_iff.mp h
    split at h
    · cases h
    · rename_i hp
      exact ⟨key, caller, target, hkey, hcaller, htarget, by simpa using hp,
        (Option.some.inj h).symm⟩
  · rintro ⟨key, caller, target, hkey, hcaller, htarget, hp, rfl⟩
    simp [hkey, hcaller, htarget, hp]

/-- The edge of a site whose caller is known, by what the callee stands for. -/
theorem resolveSite_of_caller {site : CallSite} {key : String} {caller : SymbolId}
    (hkey : site.caller = some key) (hcaller : m.functions.get? key = some caller) :
    r.resolveSite m site = (r.resolveCallee m site.callee).bind fun target =>
      if r.isProperty target then none else some ⟨caller, target.module, target.symbol⟩ := by
  unfold resolveSite
  rw [hkey]
  simp [hcaller]

theorem symbolIn_callable {segments : List String} {id : SymbolId}
    (h : symbolIn m segments = some id) : ∃ name, m.lookupCallable name = some id := by
  match segments, h with
  | [name], h => exact ⟨name, h⟩
  | owner :: member :: _, h =>
    rcases Option.or_eq_some_iff.mp h with h | ⟨_, h⟩
    · exact ⟨_, h⟩
    · exact ⟨owner, h⟩

theorem mem_resolveModule {sites : List CallSite} {e : CallEdge} :
    e ∈ r.resolveModule m sites ↔ ∃ site ∈ sites, r.resolveSite m site = some e :=
  List.mem_filterMap

end CallResolver

/-! ## Edges over a scanned table fit -/

/-- The target is a module of the table, and nothing in particular or a
symbol in it. -/
def Target.Exists (t : ModuleTable) (target : Target) : Prop :=
  ∃ m ∈ t.values, m.id = target.module ∧
    (target.symbol = noSymbol ∨ ∃ s ∈ m.symbols, s.id = target.symbol)

namespace ModuleRecord.Coherent

variable {m : ModuleRecord} {name : String} {id : SymbolId}

theorem function_symbol (hm : m.Coherent) (h : m.functions.get? name = some id) :
    ∃ s ∈ m.symbols, s.id = id := by
  obtain ⟨s, hs, hid, _⟩ := hm.functions (name, id) (Dict.mem_toList.mpr h)
  exact ⟨s, hs, hid⟩

theorem callable_symbol (hm : m.Coherent) (h : m.lookupCallable name = some id) :
    ∃ s ∈ m.symbols, s.id = id := by
  rcases Option.or_eq_some_iff.mp h with h | ⟨_, h⟩
  · exact hm.function_symbol h
  · obtain ⟨s, hs, hid, _⟩ := hm.properties (name, id) (Dict.mem_toList.mpr h)
    exact ⟨s, hs, hid⟩

theorem symbolIn_symbol (hm : m.Coherent) {segments : List String}
    (h : CallResolver.symbolIn m segments = some id) : ∃ s ∈ m.symbols, s.id = id := by
  obtain ⟨name, hname⟩ := CallResolver.symbolIn_callable h
  exact hm.callable_symbol hname

end ModuleRecord.Coherent

namespace CallResolver

variable {t : ModuleTable} {target : Target}

theorem tryDirect_exists (ht : t.Scanned) {dotted : String}
    (h : (ofModules t).tryDirect dotted = some target) : target.Exists t := by
  obtain ⟨path, used, m, _, hm, rfl⟩ := tryDirect_eq_some_iff.mp h
  refine ⟨m, Dict.mem_values_of_get? hm, rfl, ?_⟩
  cases hs : symbolIn m ((Text.split '.' dotted).drop used) with
  | none => exact .inl rfl
  | some id => exact .inr ((ht.coherent_at hm).symbolIn_symbol hs)

theorem resolveCallee_exists (ht : t.Scanned) {k : String} {m : ModuleRecord}
    (hm : t.get? k = some m) {callee : Callee}
    (h : (ofModules t).resolveCallee m callee = some target) : target.Exists t := by
  match callee, h with
  | .plain name, h =>
    obtain ⟨id, hid, rfl⟩ := Option.map_eq_some_iff.mp h
    exact ⟨m, Dict.mem_values_of_get? hm, rfl, .inr ((ht.coherent_at hm).function_symbol hid)⟩
  | .qualified (head :: rest), h =>
    obtain ⟨name, hname⟩ := exists_tryDirect_of_chase h
    exact tryDirect_exists ht hname

/-- A target is dropped as a property exactly if its symbol is one. -/
theorem isProperty_eq (ht : t.Scanned) {k : String} {m : ModuleRecord} (hm : t.get? k = some m)
    {s : Symbol} (hs : s ∈ m.symbols) :
    (ofModules t).isProperty ⟨m.id, s.id⟩ = decide (s.kind = .property) := by
  have hbyId := (ModuleTable.byId_eq_some_iff ht.distinct).mpr ⟨Dict.mem_values_of_get? hm, rfl⟩
  have hfound := (ModuleRecord.symbol?_eq_some_iff (ht.coherent_at hm).toOwnsSymbols).mpr ⟨hs, rfl⟩
  have hpos := (ht.coherent_at hm).positive s hs
  have hnone : s.id ≠ noSymbol := Nat.pos_iff_ne_zero.mp hpos
  change (!(decide (s.id = noSymbol)) &&
    (((t.byId m.id).bind (·.symbol? s.id)).map (·.isProperty)).getD false) = _
  rw [hbyId, Option.bind_some, hfound]
  simp [hnone, Symbol.isProperty]

/-- Every edge of a module of a scanned table fits into the table, whatever the
call site is. -/
theorem resolveSite_fits (ht : t.Scanned) {k : String} {m : ModuleRecord} (hm : t.get? k = some m)
    {site : CallSite} {e : CallEdge} (h : (ofModules t).resolveSite m site = some e) :
    e.Fits t m := by
  obtain ⟨key, caller, ⟨module, symbol⟩, _, hcaller, htarget, hprop, rfl⟩ :=
    resolveSite_eq_some_iff.mp h
  obtain ⟨owner, howner, rfl, hsymbol⟩ := resolveCallee_exists ht hm htarget
  refine ⟨(ht.coherent_at hm).function_symbol hcaller, owner, howner, rfl, ?_⟩
  rcases hsymbol with hnone | ⟨s, hs, rfl⟩
  · exact .inl hnone
  · obtain ⟨k', hk'⟩ := Dict.mem_values.mp howner
    rw [isProperty_eq ht hk' hs] at hprop
    exact .inr ⟨s, hs, rfl, of_decide_eq_false hprop⟩

end CallResolver

end CodeAtlas
