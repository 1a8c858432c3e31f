import CodeAtlas.Module.Validate
import CodeAtlas.Proofs.DictLaws
import Mathlib.Data.List.Nodup

/-! # What the check of an analysis accepts

The check walks over the records and lists what is wrong. Here the same is said
as a property of the analysis, without an order of checking, and the two are
shown to agree: the check lists nothing exactly when the analysis is
consistent. -/
namespace CodeAtlas

/-! ## Finding by number -/

/-- Where no two elements share a number, looking for a number finds its one
element. -/
theorem find?_number_iff {α : Type} {number : α → Nat} {l : List α} (h : (l.map number).Nodup)
    {n : Nat} {x : α} : l.find? (fun y => number y = n) = some x ↔ x ∈ l ∧ number x = n := by
  constructor
  · intro hf
    exact ⟨List.mem_of_find?_eq_some hf, by simpa using List.find?_some hf⟩
  · rintro ⟨hm, hn⟩
    cases hf : l.find? (fun y => number y = n) with
    | none =>
      have := List.find?_eq_none.mp hf x hm
      simp [hn] at this
    | some y =>
      have hy : number y = n := by simpa using List.find?_some hf
      rw [List.inj_on_of_nodup_map h (List.mem_of_find?_eq_some hf) hm (hy.trans hn.symm)]

namespace ModuleTable

/-- No two modules share a number. -/
def DistinctIds (t : ModuleTable) : Prop := (t.values.map (·.id)).Nodup

instance (t : ModuleTable) : Decidable t.DistinctIds := inferInstanceAs (Decidable (List.Nodup _))

theorem byId_eq_some_iff {t : ModuleTable} (h : t.DistinctIds) {id : ModuleId} {m : ModuleRecord} :
    t.byId id = some m ↔ m ∈ t.values ∧ m.id = id := by
  have hr : (t.values.reverse.map (·.id)).Nodup := by
    rw [List.map_reverse]
    exact List.nodup_reverse.mpr h
  unfold byId
  rw [find?_number_iff hr, List.mem_reverse]

theorem byId_eq_none_iff {t : ModuleTable} {id : ModuleId} :
    t.byId id = none ↔ ∀ m ∈ t.values, m.id ≠ id := by
  simp [byId]

theorem DistinctIds.key_eq {t : ModuleTable} (h : t.DistinctIds) {k k' : String}
    {m m' : ModuleRecord} (hk : t.get? k = some m) (hk' : t.get? k' = some m')
    (hid : m.id = m'.id) : k = k' := by
  have hn : (t.entries.map fun e => e.2.id).Nodup := by
    simpa only [DistinctIds, Dict.values, List.map_map, Function.comp_def] using h
  have he :=
    List.inj_on_of_nodup_map hn (Dict.get?_eq_some_iff.mp hk) (Dict.get?_eq_some_iff.mp hk') hid
  exact congrArg Prod.fst he

theorem distinctIds_of_key_eq {t : ModuleTable}
    (h : ∀ {k k' m m'}, t.get? k = some m → t.get? k' = some m' → m.id = m'.id → k = k') :
    t.DistinctIds := by
  have hn : (t.entries.map fun e => e.2.id).Nodup := by
    refine List.Nodup.map_on ?_ t.nodup_entries
    intro x hx y hy hid
    exact Dict.eq_of_mem_sorted t.sorted hx hy
      (h (Dict.get?_eq_some_iff.mpr hx) (Dict.get?_eq_some_iff.mpr hy) hid)
  simpa only [DistinctIds, Dict.values, List.map_map, Function.comp_def] using hn

end ModuleTable

namespace ModuleRecord

/-- The symbols of a module have numbers of their own and belong to the module. -/
structure OwnsSymbols (m : ModuleRecord) : Prop where
  distinct : (m.symbols.map (·.id)).Nodup
  owned : ∀ s ∈ m.symbols, s.moduleId = m.id

theorem symbol?_eq_some_iff {m : ModuleRecord} (h : m.OwnsSymbols) {id : SymbolId} {s : Symbol} :
    m.symbol? id = some s ↔ s ∈ m.symbols ∧ s.id = id := find?_number_iff h.distinct

theorem symbol?_eq_none_iff {m : ModuleRecord} {id : SymbolId} :
    m.symbol? id = none ↔ ¬∃ s ∈ m.symbols, s.id = id := by
  simp [symbol?]

/-- The number picks out one symbol, so it is the number of something to call
if that symbol is no property. -/
theorem exists_callable_iff {m : ModuleRecord} (h : m.OwnsSymbols) {id : SymbolId} {s : Symbol}
    (hs : m.symbol? id = some s) :
    (∃ s' ∈ m.symbols, s'.id = id ∧ s'.kind ≠ .property) ↔ s.kind ≠ .property := by
  constructor
  · rintro ⟨s', hm', hid', hkind⟩
    rw [(symbol?_eq_some_iff h).mpr ⟨hm', hid'⟩] at hs
    rwa [← Option.some.inj hs]
  · intro hkind
    obtain ⟨hm, hid⟩ := (symbol?_eq_some_iff h).mp hs
    exact ⟨s, hm, hid, hkind⟩

end ModuleRecord

/-! ## Consistent analyses -/

/-- An edge of a module leads from a symbol of that module to a module of the
table, and there to nothing in particular or to a symbol that can be called. -/
structure CallEdge.Fits (t : ModuleTable) (m : ModuleRecord) (e : CallEdge) : Prop where
  caller : ∃ s ∈ m.symbols, s.id = e.caller
  target : ∃ target ∈ t.values, target.id = e.targetModule ∧
    (e.targetSymbol = noSymbol ∨ ∃ s ∈ target.symbols, s.id = e.targetSymbol ∧ s.kind ≠ .property)

theorem CallEdge.fits_iff {t : ModuleTable} {m target : ModuleRecord} {e : CallEdge}
    (hd : t.DistinctIds) (hb : t.byId e.targetModule = some target) :
    e.Fits t m ↔ (∃ s ∈ m.symbols, s.id = e.caller) ∧
      (e.targetSymbol = noSymbol ∨ ∃ s ∈ target.symbols, s.id = e.targetSymbol ∧
        s.kind ≠ .property) := by
  constructor
  · rintro ⟨hcaller, target', hm', hid', hsymbol⟩
    -- the search and the edge speak of the same module
    rw [(ModuleTable.byId_eq_some_iff hd).mpr ⟨hm', hid'⟩] at hb
    exact ⟨hcaller, Option.some.inj hb ▸ hsymbol⟩
  · rintro ⟨hcaller, hsymbol⟩
    obtain ⟨hm, hid⟩ := (ModuleTable.byId_eq_some_iff hd).mp hb
    exact ⟨hcaller, target, hm, hid, hsymbol⟩

/-- The parts of an analysis fit together. -/
structure Analysis.Consistent (a : Analysis) : Prop where
  positive : ∀ m ∈ a.modules.values, 0 < m.id
  distinct : a.modules.DistinctIds
  symbols : ∀ m ∈ a.modules.values, m.OwnsSymbols
  edges : ∀ m ∈ a.modules.values, ∀ e ∈ m.calls, e.Fits a.modules m

namespace Analysis

theorem symbolErrors_eq_nil_iff {path : String} {module : ModuleId} {seen : List SymbolId}
    {l : List Symbol} :
    symbolErrors path module seen l = [] ↔
      (l.map (·.id)).Nodup ∧ (∀ s ∈ l, s.moduleId = module) ∧ ∀ s ∈ l, s.id ∉ seen := by
  induction l generalizing seen with
  | nil => simp [symbolErrors]
  | cons s rest ih =>
    simp only [symbolErrors, List.append_eq_nil_iff, ih, List.map_cons, List.nodup_cons,
      List.mem_map, List.mem_cons, not_or]
    grind

theorem identityErrors_eq_nil_iff {seen l : List (String × ModuleRecord)} :
    identityErrors seen l = [] ↔
      (l.map (·.2.id)).Nodup ∧ (∀ e ∈ l, 0 < e.2.id) ∧ (∀ e ∈ l, e.2.OwnsSymbols) ∧
        ∀ e ∈ l, ∀ e' ∈ seen, e'.2.id ≠ e.2.id := by
  induction l generalizing seen with
  | nil => simp [identityErrors]
  | cons e rest ih =>
    obtain ⟨path, m⟩ := e
    have hs : symbolErrors path m.id [] m.symbols = [] ↔ m.OwnsSymbols := by
      rw [symbolErrors_eq_nil_iff]
      exact ⟨fun h => ⟨h.1, h.2.1⟩, fun h => ⟨h.distinct, h.owned, by simp⟩⟩
    have hp : (if m.id = 0 then [ValidationError.nonPositiveModuleId m.id path] else []) = [] ↔
        0 < m.id := by
      split <;> simp_all [Nat.pos_iff_ne_zero]
    simp only [identityErrors, List.append_eq_nil_iff, hs, hp, ih, List.map_cons, List.nodup_cons,
      List.mem_map, List.forall_mem_cons]
    cases hf : seen.find? (·.2.id = m.id) with
    | none =>
      have hnew : ∀ e' ∈ seen, e'.2.id ≠ m.id := by simpa using List.find?_eq_none.mp hf
      grind
    | some e' =>
      have hmem := List.mem_of_find?_eq_some hf
      have hid : e'.2.id = m.id := by simpa using List.find?_some hf
      grind

theorem edgeErrors_eq_nil_iff {t : ModuleTable} {path : String} {m : ModuleRecord} {e : CallEdge}
    (hd : t.DistinctIds) (hs : ∀ m ∈ t.values, m.OwnsSymbols) :
    edgeErrors t path m e = [] ↔ e.Fits t m := by
  have hcaller : (if (m.symbol? e.caller).isNone then [ValidationError.unknownCaller path e.caller]
      else []) = [] ↔
      ∃ s ∈ m.symbols, s.id = e.caller := by
    simp [Option.isNone_iff_eq_none, ModuleRecord.symbol?_eq_none_iff]
  unfold edgeErrors
  rw [List.append_eq_nil_iff, hcaller]
  cases hb : t.byId e.targetModule with
  | none =>
    have hnone := ModuleTable.byId_eq_none_iff.mp hb
    simp only [List.cons_ne_nil, and_false, false_iff]
    rintro ⟨_, target, htm, hid, _⟩
    exact hnone target htm hid
  | some target =>
    obtain ⟨htm, _⟩ := (ModuleTable.byId_eq_some_iff hd).mp hb
    rw [CallEdge.fits_iff hd hb]
    refine and_congr_right fun _ => ?_
    by_cases ha : e.targetSymbol = noSymbol
    · simp [CallEdge.isModuleAnchor, ha]
    · simp only [CallEdge.isModuleAnchor, ha, decide_false, Bool.false_eq_true, if_false, false_or]
      cases hsym : target.symbol? e.targetSymbol with
      | none =>
        have hn := ModuleRecord.symbol?_eq_none_iff.mp hsym
        simp only [List.cons_ne_nil, false_iff]
        rintro ⟨s, hms, hsid, _⟩
        exact hn ⟨s, hms, hsid⟩
      | some s =>
        rw [ModuleRecord.exists_callable_iff (hs target htm) hsym]
        simp [Symbol.isProperty]

/-- The check lists nothing exactly for consistent analyses. -/
theorem validate_eq_nil_iff {a : Analysis} : a.validate = [] ↔ a.Consistent := by
  have hids : (a.modules.toList.map (·.2.id)).Nodup ↔ a.modules.DistinctIds := by
    simp only [ModuleTable.DistinctIds, Dict.values, Dict.toList, List.map_map, Function.comp_def]
  have hmem : ∀ {e}, e ∈ a.modules.toList → e.2 ∈ a.modules.values :=
    fun he => List.mem_map_of_mem he
  unfold validate
  rw [List.append_eq_nil_iff, identityErrors_eq_nil_iff, hids, List.flatMap_eq_nil_iff]
  constructor
  · rintro ⟨⟨hdistinct, hpositive, hsymbols, _⟩, hedges⟩
    have hs : ∀ m ∈ a.modules.values, m.OwnsSymbols := Dict.forall_mem_values.mpr hsymbols
    refine ⟨Dict.forall_mem_values.mpr hpositive, hdistinct, hs, Dict.forall_mem_values.mpr ?_⟩
    intro e he edge hedge
    exact (edgeErrors_eq_nil_iff hdistinct hs).mp
      (List.flatMap_eq_nil_iff.mp (hedges e he) edge hedge)
  · rintro ⟨hpositive, hdistinct, hsymbols, hedges⟩
    refine ⟨⟨hdistinct, Dict.forall_mem_values.mp hpositive,
      Dict.forall_mem_values.mp hsymbols, by simp⟩, ?_⟩
    intro e he
    refine List.flatMap_eq_nil_iff.mpr fun edge hedge => ?_
    exact (edgeErrors_eq_nil_iff hdistinct hsymbols).mpr (hedges e.2 (hmem he) edge hedge)

/-! ## One record for each number -/

theorem lookup_filterMap_pair {α : Type} (f : Nat → Option α) (ids : List Nat) (id : Nat) :
    (ids.filterMap fun i => (f i).map (i, ·)).lookup id = if id ∈ ids then f id else none := by
  induction ids with
  | nil => rfl
  | cons i rest ih =>
    by_cases hid : id = i
    · subst hid
      cases hf : f id <;> simp [hf, ih]
    · have hne : (id == i) = false := beq_false_of_ne hid
      cases hf : f i <;> simp [hf, ih, hid, hne, List.lookup_cons]

/-- The table by number holds the last module of each number. -/
theorem idTable_lookup (a : Analysis) (id : ModuleId) :
    a.idTable.lookup id = a.modules.byId id := by
  simp only [idTable, lookup_filterMap_pair, List.mem_mergeSort, List.mem_eraseDups]
  split
  · rfl
  · rename_i hid
    symm
    rw [ModuleTable.byId_eq_none_iff]
    intro m hm hmid
    exact hid (List.mem_map.mpr ⟨m, hm, hmid⟩)

theorem moduleById_eq_some_iff {a : Analysis} (h : a.modules.DistinctIds) {id : ModuleId}
    {m : ModuleRecord} : a.moduleById id = some m ↔ m ∈ a.modules.values ∧ m.id = id :=
  find?_number_iff h

/-- The first module of a number is also the last one where no two modules
share a number. -/
theorem moduleById_eq_byId {a : Analysis} (h : a.modules.DistinctIds) (id : ModuleId) :
    a.moduleById id = a.modules.byId id := by
  ext m
  rw [moduleById_eq_some_iff h, ModuleTable.byId_eq_some_iff h]

/-- **The check finds nothing exactly in consistent analyses.** That is, if all
modules have positive numbers of their own, the symbols of each module have
numbers of their own and belong to it, and every edge leads from a symbol of
its module to a module of the analysis, and there to no symbol in particular or
to one that is no property. In such an analysis a search for a number and the
table by number give the same record, the only one with that number. -/
theorem validate_decides_consistency (a : Analysis) :
    (a.validate = [] ↔ a.Consistent) ∧
      (a.validate = [] → ∀ id, a.moduleById id = a.idTable.lookup id ∧
        ∀ m, a.moduleById id = some m ↔ m ∈ a.modules.values ∧ m.id = id) := by
  refine ⟨validate_eq_nil_iff, fun hvalid id => ?_⟩
  have hdistinct := (validate_eq_nil_iff.mp hvalid).distinct
  refine ⟨?_, fun m => moduleById_eq_some_iff hdistinct⟩
  rw [idTable_lookup, moduleById_eq_byId hdistinct]

/-- Two modules, the first of which calls a function of the second and the
second itself. -/
def linkedPair : Analysis where
  modules := .ofList [
    ("a.py", { id := 2, path := "a.py", dotted := "a", language := "py", roleTags := {}
               symbols :=
                 [⟨2, 1, .module, "a", none, [], {}, none, [], {}⟩,
                   ⟨2, 5, .function, "f", none, [], {}, none, [], {}⟩]
               calls := [⟨5, 1, 3⟩, ⟨5, 1, 0⟩] }),
    ("b.py", { id := 1, path := "b.py", dotted := "b", language := "py", roleTags := {}
               symbols :=
                 [⟨1, 1, .module, "b", none, [], {}, none, [], {}⟩,
                   ⟨1, 3, .function, "g", none, [], {}, none, [], {}⟩] })]

/-- The numbers of the two modules are not in the order of their paths. -/
theorem validate_linkedPair :
    linkedPair.validate = [] ∧ linkedPair.Consistent ∧
    linkedPair.moduleById 2 = linkedPair.idTable.lookup 2 := by
  have hvalid : linkedPair.validate = [] := by decide +kernel
  obtain ⟨hiff, hlookup⟩ := validate_decides_consistency linkedPair
  exact ⟨hvalid, hiff.mp hvalid, (hlookup hvalid 2).1⟩

end Analysis

end CodeAtlas
