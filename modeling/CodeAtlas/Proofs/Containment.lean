import CodeAtlas.Proofs.Linked
import CodeAtlas.Proofs.Ownership

/-! # A broken file does no harm elsewhere

Two runs of the resolver are compared: over a scanned table, and over the same
table in which the text of one module that is no package is not understood. The
index and the offers of packages are the same in both, so direct look-up
differs only in that symbols of the broken module are not found. A chain of
offers can turn such a loss into a fall back to a package further up, but never
into anything but a module as a whole. -/
namespace CodeAtlas

/-- The record of a file whose text is not understood. -/
def ModuleRecord.bare (p : ModuleRecord) (hash : Option String) : ModuleRecord :=
  { skeleton p.id p.path p.dotted p.language p.roleTags with contentHash := hash }

@[simp] theorem ModuleRecord.bare_id (p : ModuleRecord) (hash : Option String) :
    (p.bare hash).id = p.id := rfl

@[simp] theorem ModuleRecord.bare_isPackageInit (p : ModuleRecord) (hash : Option String) :
    (p.bare hash).isPackageInit = p.isPackageInit := rfl

/-- The table in which the text of a module is not understood. -/
def ModuleTable.broken (t : ModuleTable) (k : String) (p : ModuleRecord) (hash : Option String) :
    ModuleTable :=
  t.insert k (p.bare hash)

namespace ModuleTable

variable {t : ModuleTable} {k : String} {p : ModuleRecord} {hash : Option String}

theorem get?_broken (k' : String) :
    (t.broken k p hash).get? k' = if k' = k then some (p.bare hash) else t.get? k' :=
  Dict.get?_insert ..

theorem get?_broken_of_ne {k' : String} (h : k' ≠ k) : (t.broken k p hash).get? k' = t.get? k' := by
  rw [get?_broken, if_neg h]

theorem get?_broken_self : (t.broken k p hash).get? k = some (p.bare hash) := by
  rw [get?_broken, if_pos rfl]

theorem toList_broken (hp : t.get? k = some p) :
    (t.broken k p hash).toList = t.toList.map fun e => if e.1 = k then (k, p.bare hash) else e :=
  Dict.toList_insert_of_get? hp _

theorem build_broken (hp : t.get? k = some p) :
    RepoIndex.build (t.broken k p hash) = RepoIndex.build t := by
  have hone : ∀ e ∈ t.toList, e.1 = k → e.2 = p := by
    intro e he hk
    have hget := Dict.mem_toList.mp he
    rw [hk, hp] at hget
    exact (Option.some.inj hget).symm
  unfold RepoIndex.build
  rw [toList_broken hp]
  apply RepoIndex.foldl_add_map
  · intro e
    split
    · rename_i hk; exact hk.symm
    · rfl
  · intro e he
    split
    · rename_i hk; rw [hone e he hk]; rfl
    · rfl
  · intro e he
    split
    · rename_i hk; rw [hone e he hk]; rfl
    · rfl

theorem reexports_broken (hp : t.get? k = some p) (hnone : p.reexports = {}) :
    ReexportMap.build (t.broken k p hash) = ReexportMap.build t := by
  rw [ReexportMap.build_eq, ReexportMap.build_eq, toList_broken hp, List.flatMap_map]
  congr 2
  apply List.flatMap_congr
  intro e he
  split
  · rename_i hk
    have hget := Dict.mem_toList.mp he
    rw [hk, hp] at hget
    rw [← Option.some.inj hget, hnone]
    rfl
  · rfl

theorem Scanned.broken (ht : t.Scanned) (hp : t.get? k = some p) (hash : Option String) :
    (t.broken k p hash).Scanned := by
  apply ht.of_origin
  intro k' m' hm'
  rw [get?_broken] at hm'
  split at hm'
  · rename_i hk
    cases hm'
    obtain ⟨⟨hdistinct, howned⟩, hpositive, hfunctions, hproperties, hplain, hcalls⟩ :=
      ModuleRecord.skeleton_coherent p.id p.path p.dotted p.language p.roleTags
    exact ⟨p, hk ▸ hp, rfl, rfl, ⟨hdistinct, howned⟩, hpositive, hfunctions, hproperties, hplain,
      hcalls⟩
  · exact ⟨m', hm', rfl, rfl, ht.coherent_at hm'⟩

theorem byId_broken (ht : t.Scanned) (hp : t.get? k = some p) (id : ModuleId) :
    (t.broken k p hash).byId id = (t.byId id).map fun m => if m.id = p.id then p.bare hash
      else m := by
  cases hb : t.byId id with
  | none =>
    have hnone := byId_eq_none_iff.mp hb
    rw [Option.map_none, byId_eq_none_iff]
    intro m hm
    obtain ⟨k', hk'⟩ := Dict.mem_values.mp hm
    rw [get?_broken] at hk'
    split at hk'
    · cases hk'
      exact hnone p (Dict.mem_values_of_get? hp)
    · exact hnone m (Dict.mem_values_of_get? hk')
  | some m =>
    obtain ⟨hm, hid⟩ := (byId_eq_some_iff ht.distinct).mp hb
    obtain ⟨k', hk'⟩ := Dict.mem_values.mp hm
    rw [Option.map_some, byId_eq_some_iff (ht.broken hp hash).distinct]
    split
    · rename_i hpid
      exact ⟨Dict.mem_values_of_get? get?_broken_self, hpid.symm.trans hid⟩
    · rename_i hpid
      have hne : k' ≠ k := by
        intro he
        rw [he, hp] at hk'
        cases hk'
        exact hpid rfl
      exact ⟨Dict.mem_values_of_get? ((get?_broken_of_ne hne).trans hk'), hid⟩

end ModuleTable

/-! ## Direct look-up -/

/-- A target without the symbol, if it is in a module. -/
def Target.forget (p : ModuleId) (x : Target) : Target := if x.module = p then ⟨p, noSymbol⟩ else x

namespace CallResolver

open ModuleTable

variable {t : ModuleTable} {k : String} {p : ModuleRecord} {hash : Option String}

theorem symbolIn_bare (segments : List String) : symbolIn (p.bare hash) segments = none := by
  match segments with
  | [] => rfl
  | [_] => rfl
  | _ :: _ :: _ => rfl

/-- Over the broken table the same is found, but for symbols of the
broken module. -/
theorem tryDirect_broken (ht : t.Scanned) (hp : t.get? k = some p) (dotted : String) :
    (ofModules (t.broken k p hash)).tryDirect dotted = ((ofModules t).tryDirect dotted).map
      (Target.forget p.id) := by
  have hindex : (ofModules (t.broken k p hash)).index = (ofModules t).index := build_broken hp
  unfold tryDirect
  rw [hindex]
  cases (ofModules t).index.longestPrefixModule dotted with
  | none => rfl
  | some found =>
    obtain ⟨path, used⟩ := found
    show ((t.broken k p hash).get? path).bind _ = ((t.get? path).bind _).map _
    by_cases hk : path = k
    · subst hk
      rw [get?_broken_self, hp]
      simp [symbolIn_bare, Target.forget]
    · rw [get?_broken_of_ne hk]
      cases hm : t.get? path with
      | none => rfl
      | some m =>
        have hne : m.id ≠ p.id := fun hid => hk (ht.distinct.key_eq hm hp hid)
        simp [Target.forget, hne]

theorem isPackageInit_broken (ht : t.Scanned) (hp : t.get? k = some p) (id : ModuleId) :
    (ofModules (t.broken k p hash)).isPackageInit id = (ofModules t).isPackageInit id := by
  show (((t.broken k p hash).byId id).map _).getD false = ((t.byId id).map _).getD false
  rw [byId_broken ht hp]
  cases hb : t.byId id with
  | none => rfl
  | some m =>
    obtain ⟨hm, _⟩ := (byId_eq_some_iff ht.distinct).mp hb
    obtain ⟨k', hk'⟩ := Dict.mem_values.mp hm
    by_cases hid : m.id = p.id
    · have he := ht.distinct.key_eq hk' hp hid
      rw [he, hp] at hk'
      cases hk'
      simp
    · simp [hid]

theorem mayLeadFurther_broken (ht : t.Scanned) (hp : t.get? k = some p) (x : Option Target) :
    (ofModules (t.broken k p hash)).mayLeadFurther x = (ofModules t).mayLeadFurther x := by
  cases x with
  | none => rfl
  | some x => simp only [mayLeadFurther, isPackageInit_broken ht hp]

/-! ## Chains of offers -/

/-- What a broken module can do to a target: one that is no symbol of it stays,
and a symbol of it becomes a module as a whole. -/
inductive Degrades (p : ModuleId) : Option Target → Option Target → Prop
  | same {x : Option Target} : (∀ s, s ≠ noSymbol → x ≠ some ⟨p, s⟩) → Degrades p x x
  | lost {s : SymbolId} (m : ModuleId) : s ≠ noSymbol →
      Degrades p (some ⟨p, s⟩) (some ⟨m, noSymbol⟩)

theorem degrades_forget (p : ModuleId) (x : Target) : Degrades p (some x) (some (x.forget p)) := by
  obtain ⟨m, s⟩ := x
  by_cases hm : m = p
  · subst hm
    by_cases hs : s = noSymbol
    · subst hs
      simp only [Target.forget, if_true]
      refine .same ?_
      intro s hs he
      cases he
      exact hs rfl
    · simp only [Target.forget, if_true]
      exact .lost m hs
  · simp only [Target.forget, hm, if_false]
    refine .same ?_
    intro s _ he
    cases he
    exact hm rfl

/-- If what lies further degrades, then so does the choice between it and
a module as a whole elsewhere. -/
theorem degrades_better {p : ModuleId} {direct : Target} {further further' : Option Target}
    (hanchor : direct.symbol = noSymbol) (h : Degrades p further further') :
    Degrades p (better (some direct) further) (better (some direct) further') := by
  have hdirect : ∀ s, s ≠ noSymbol → some direct ≠ some ⟨p, s⟩ := by
    intro s hs he
    cases he
    exact hs hanchor
  cases h with
  | same hsame =>
    refine .same ?_
    match further, hsame with
    | none, _ => exact hdirect
    | some x, hsame =>
      simp only [better]
      split
      · exact hdirect
      · exact hsame
  | @lost s m hs =>
    -- the symbol would have been taken, while a module as a whole is no better than the
    -- one found directly
    have hbefore : better (some direct) (some ⟨p, s⟩) = some ⟨p, s⟩ := by
      simp [better, Target.isAnchor, hs]
    have hafter : better (some direct) (some ⟨m, noSymbol⟩) = some direct := by
      simp [better, Target.isAnchor]
    rw [hbefore, hafter]
    obtain ⟨dm, ds⟩ := direct
    cases hanchor
    exact .lost dm hs

/-- One hop: if what lies further degrades, then so does the choice made with
what is found directly. -/
theorem hop_degrades (ht : t.Scanned) (hp : t.get? k = some p) (hplain : p.isPackageInit = false)
    (direct : Option Target) {further further' : Option Target}
    (h : Degrades p.id further further') :
    Degrades p.id
      (if (ofModules t).mayLeadFurther direct then better direct further else direct)
      (if (ofModules t).mayLeadFurther (direct.map (Target.forget p.id)) then
        better (direct.map (Target.forget p.id)) further'
      else direct.map (Target.forget p.id)) := by
  cases direct with
  | none => simpa [mayLeadFurther, better] using h
  | some x =>
    simp only [Option.map_some]
    by_cases hm : x.module = p.id
    · -- found in the broken module: no package is asked in either run
      have hfinal : ∀ y : Target, y.module = p.id →
          (ofModules t).mayLeadFurther (some y) = false := by
        intro y hy
        simp [mayLeadFurther, hy, (isPackageInit_of_get? ht.distinct hp).trans hplain]
      have hforget : (x.forget p.id).module = p.id := by simp [Target.forget, hm]
      simp only [hfinal x hm, hfinal _ hforget, Bool.false_eq_true, if_false]
      exact degrades_forget p.id x
    · have hforget : x.forget p.id = x := by simp [Target.forget, hm]
      rw [hforget]
      split
      · rename_i hmay
        refine degrades_better ?_ h
        simp only [mayLeadFurther, Bool.and_eq_true] at hmay
        simpa [Target.isAnchor] using hmay.1
      · refine .same ?_
        intro s _ he
        cases he
        exact hm rfl

/-- Whatever number of hops is allowed, breaking a module that is no package
only degrades what is found. -/
theorem chase_degrades (ht : t.Scanned) (hp : t.get? k = some p) (hplain : p.isPackageInit = false)
    (hops : Nat) (dotted : String) :
    Degrades p.id ((ofModules t).chase hops dotted)
      ((ofModules (t.broken k p hash)).chase hops dotted) := by
  have hreexports : (ofModules (t.broken k p hash)).reexports = (ofModules t).reexports :=
    reexports_broken hp ((ht.coherent_at hp).plain hplain)
  induction hops generalizing dotted with
  | zero =>
    simp only [chase, tryDirect_broken ht hp]
    cases (ofModules t).tryDirect dotted with
    | none => exact .same (by simp)
    | some x => exact degrades_forget p.id x
  | succ hops ih =>
    simp only [chase, tryDirect_broken ht hp, mayLeadFurther_broken ht hp, hreexports]
    apply hop_degrades ht hp hplain
    cases (ofModules t).reexports.origin dotted with
    | none => exact .same (by simp)
    | some name => exact ih name

/-! ## Call sites -/

theorem resolveCallee_degrades (ht : t.Scanned) (hp : t.get? k = some p)
    (hplain : p.isPackageInit = false) {kq : String} {q : ModuleRecord} (hq : t.get? kq = some q)
    (hne : kq ≠ k) (callee : Callee) :
    Degrades p.id ((ofModules t).resolveCallee q callee)
      ((ofModules (t.broken k p hash)).resolveCallee q callee) := by
  match callee with
  | .plain name =>
    refine .same ?_
    intro s _ he
    obtain ⟨_, _, hx⟩ := Option.map_eq_some_iff.mp he
    have hid : q.id = p.id := congrArg Target.module hx
    exact hne (ht.distinct.key_eq hq hp hid)
  | .qualified [] => exact .same (by simp [resolveCallee, resolveQualified])
  | .qualified (head :: rest) => exact chase_degrades ht hp hplain _ _

theorem isProperty_broken (ht : t.Scanned) (hp : t.get? k = some p) {x : Target}
    (hx : x.module = p.id → x.symbol = noSymbol) :
    (ofModules (t.broken k p hash)).isProperty x = (ofModules t).isProperty x := by
  by_cases hs : x.symbol = noSymbol
  · simp [isProperty, Target.isAnchor, hs]
  · have hm : x.module ≠ p.id := fun he => hs (hx he)
    have hbyId : (t.broken k p hash).byId x.module = t.byId x.module := by
      rw [byId_broken ht hp]
      cases hb : t.byId x.module with
      | none => rfl
      | some m =>
        obtain ⟨_, hid⟩ := (byId_eq_some_iff ht.distinct).mp hb
        simp [hid, hm]
    unfold isProperty
    show (_ && ((((t.broken k p hash).byId x.module).bind _).map _).getD false) = _
    rw [hbyId]
    rfl

theorem resolveSite_bare (r : CallResolver) (site : CallSite) :
    r.resolveSite (p.bare hash) site = none := by
  cases h : r.resolveSite (p.bare hash) site with
  | none => rfl
  | some e =>
    obtain ⟨key, caller, _, _, hcaller, _⟩ := resolveSite_eq_some_iff.mp h
    cases hcaller

/-- Over the broken table no edge leads to a symbol of the broken module. -/
theorem resolveSite_broken_target (ht : t.Scanned) (hp : t.get? k = some p) {kq : String}
    {q : ModuleRecord} (hq : (t.broken k p hash).get? kq = some q) {site : CallSite} {e : CallEdge}
    (h : (ofModules (t.broken k p hash)).resolveSite q site = some e) (he : e.targetModule = p.id) :
    e.targetSymbol = noSymbol := by
  by_cases hk : kq = k
  · subst hk
    rw [get?_broken_self] at hq
    cases hq
    rw [resolveSite_bare] at h
    cases h
  · rw [get?_broken_of_ne hk] at hq
    obtain ⟨_, _, target, _, _, htarget, _, rfl⟩ := resolveSite_eq_some_iff.mp h
    match hc : site.callee with
    | .plain name =>
      rw [hc] at htarget
      obtain ⟨_, _, rfl⟩ := Option.map_eq_some_iff.mp htarget
      exact absurd (ht.distinct.key_eq hq hp he) hk
    | .qualified [] =>
      rw [hc] at htarget
      cases htarget
    | .qualified (head :: rest) =>
      rw [hc] at htarget
      obtain ⟨name, hname⟩ := exists_tryDirect_of_chase htarget
      rw [tryDirect_broken ht hp] at hname
      obtain ⟨x, _, rfl⟩ := Option.map_eq_some_iff.mp hname
      by_cases hx : x.module = p.id
      · simp [Target.forget, hx]
      · simp only [Target.forget, hx, if_false] at he

variable {kq : String} {q : ModuleRecord} {site : CallSite} {key : String} {caller : SymbolId}

theorem resolveSite_broken_of_other (ht : t.Scanned) (hp : t.get? k = some p)
    (hplain : p.isPackageInit = false) (hq : t.get? kq = some q) (hne : kq ≠ k)
    (hkey : site.caller = some key) (hcaller : q.functions.get? key = some caller)
    (hother : ∀ s, s ≠ noSymbol → (ofModules t).resolveCallee q site.callee ≠ some ⟨p.id, s⟩) :
    (ofModules (t.broken k p hash)).resolveSite q site = (ofModules t).resolveSite q site := by
  have hdegrades := @resolveCallee_degrades t k p hash ht hp hplain kq q hq hne site.callee
  rw [resolveSite_of_caller hkey hcaller, resolveSite_of_caller hkey hcaller]
  generalize (ofModules t).resolveCallee q site.callee = before at hdegrades hother ⊢
  generalize (ofModules (t.broken k p hash)).resolveCallee q site.callee = after at hdegrades ⊢
  cases hdegrades with
  | lost m hs => exact absurd rfl (hother _ hs)
  | same _ =>
    cases before with
    | none => rfl
    | some x =>
      have hx : x.module = p.id → x.symbol = noSymbol := by
        intro hm
        by_contra hs
        exact hother x.symbol hs (by rw [← hm])
      simp only [Option.bind_some, isProperty_broken ht hp hx]

theorem resolveSite_broken_of_lost (ht : t.Scanned) (hp : t.get? k = some p)
    (hplain : p.isPackageInit = false) (hq : t.get? kq = some q) (hne : kq ≠ k)
    (hkey : site.caller = some key) (hcaller : q.functions.get? key = some caller) {s : SymbolId}
    (hs : s ≠ noSymbol) (hlost : (ofModules t).resolveCallee q site.callee = some ⟨p.id, s⟩) :
    ∃ e, (ofModules (t.broken k p hash)).resolveSite q site = some e ∧
      e.targetSymbol = noSymbol := by
  have hdegrades := @resolveCallee_degrades t k p hash ht hp hplain kq q hq hne site.callee
  rw [hlost] at hdegrades
  rw [resolveSite_of_caller hkey hcaller]
  generalize (ofModules (t.broken k p hash)).resolveCallee q site.callee = after at hdegrades ⊢
  cases hdegrades with
  | same hsame => exact absurd rfl (hsame s hs)
  | lost m _ => exact ⟨⟨caller, m, noSymbol⟩, by simp [isProperty, Target.isAnchor], rfl⟩

/-- After the second pass over the broken table, the broken module has no edges
and none leads to a symbol of it. -/
theorem table_broken_edges (ht : t.Scanned) (hp : t.get? k = some p) (disk : Disk) (root : String)
    (cache : ContentCache)
    (hq : (Link.table disk root cache (t.broken k p hash)).1.get? kq = some q) :
    (kq = k → q.calls = []) ∧ ∀ e ∈ q.calls, e.targetModule = p.id → e.targetSymbol = noSymbol := by
  obtain ⟨m, sites, hm, rfl⟩ := Link.table_origin (ht.broken hp hash) hq
  refine ⟨?_, ?_⟩
  · intro hk
    subst hk
    rw [get?_broken_self] at hm
    cases hm
    show List.filterMap _ sites = []
    simp [resolveSite_bare]
  · intro e he
    obtain ⟨site, _, hsite⟩ := mem_resolveModule.mp he
    exact resolveSite_broken_target ht hp hm hsite

/-- **A broken file does no harm elsewhere.** Let the text of a module that is
no package not be understood. A call site of another module whose callee stood
for anything but a symbol of it keeps its edge or stays without one, and one
whose callee stood for a symbol of it gets an edge to a module as a whole. So
no edge leads to a symbol of the broken module, and none leads out of it, for
single call sites as for the whole second pass. -/
theorem broken_module_contained (ht : t.Scanned) (hp : t.get? k = some p)
    (hplain : p.isPackageInit = false) (hash : Option String) :
    (∀ kq q, t.get? kq = some q → kq ≠ k → ∀ site key, site.caller = some key →
      q.functions.contains key = true →
      ((∀ s, s ≠ noSymbol → (ofModules t).resolveCallee q site.callee ≠ some ⟨p.id, s⟩) →
        (ofModules (t.broken k p hash)).resolveSite q site = (ofModules t).resolveSite q site) ∧
      (∀ s, s ≠ noSymbol → (ofModules t).resolveCallee q site.callee = some ⟨p.id, s⟩ →
        ∃ e, (ofModules (t.broken k p hash)).resolveSite q site = some e ∧
          e.targetSymbol = noSymbol)) ∧
    (∀ kq q, (t.broken k p hash).get? kq = some q → ∀ site e,
      (ofModules (t.broken k p hash)).resolveSite q site = some e → e.targetModule = p.id →
        e.targetSymbol = noSymbol) ∧
    (∀ site, (ofModules (t.broken k p hash)).resolveSite (p.bare hash) site = none) ∧
    (∀ disk root cache kq q, (Link.table disk root cache (t.broken k p hash)).1.get? kq = some q →
      (kq = k → q.calls = []) ∧ ∀ e ∈ q.calls, e.targetModule = p.id →
        e.targetSymbol = noSymbol) := by
  refine ⟨?_, ?_, resolveSite_bare _, ?_⟩
  · intro kq q hq hne site key hkey hcontains
    obtain ⟨caller, hcaller⟩ := Option.isSome_iff_exists.mp hcontains
    constructor
    · intro hother
      exact resolveSite_broken_of_other ht hp hplain hq hne hkey hcaller hother
    · intro s hs hlost
      exact resolveSite_broken_of_lost ht hp hplain hq hne hkey hcaller hs hlost
  · intro kq q hq site e he
    exact resolveSite_broken_target ht hp hq he
  · intro disk root cache kq q hq
    exact table_broken_edges ht hp disk root cache hq

/-- A module that calls, a package that offers a function, and the module that
defines it. -/
def offeringTable : ModuleTable := .ofList [
  ("main.py", (ModuleRecord.skeleton 1 "main.py" "main" "py" {}).withFunction "run"),
  ("pkg/__init__.py", { ModuleRecord.skeleton 2 "pkg/__init__.py" "pkg" "py" {} with
    parsed := true
    importAliases := .ofList [("f", "pkg.core.f")]
    reexports := .ofList [("pkg.f", "pkg.core.f")] }),
  ("pkg/core.py", (ModuleRecord.skeleton 3 "pkg/core.py" "pkg.core" "py" {}).withFunction "f")]

/-- A call of a function through a package falls back to the package when
the module with the function is broken. -/
theorem broken_module_behind_package :
    ∃ main core, offeringTable.get? "main.py" = some main ∧
      offeringTable.get? "pkg/core.py" = some core ∧
      (ofModules offeringTable).resolveCallee main (.qualified ["pkg", "f"]) = some ⟨core.id, 2⟩ ∧
      ∃ e, (ofModules (offeringTable.broken "pkg/core.py" core none)).resolveSite main
        ⟨some "run", .qualified ["pkg", "f"], 3⟩ = some e ∧ e.targetSymbol = noSymbol := by
  have hscanned : offeringTable.Scanned := by decide +kernel
  have hmain : offeringTable.get? "main.py" =
      some ((ModuleRecord.skeleton 1 "main.py" "main" "py" {}).withFunction "run") := by
    decide +kernel
  have hcore : offeringTable.get? "pkg/core.py" =
      some ((ModuleRecord.skeleton 3 "pkg/core.py" "pkg.core" "py" {}).withFunction "f") := by
    decide +kernel
  have hlost : (ofModules offeringTable).resolveCallee
      ((ModuleRecord.skeleton 1 "main.py" "main" "py" {}).withFunction "run")
        (.qualified ["pkg", "f"]) =
        some ⟨3, 2⟩ := by decide +kernel
  have hcontained := broken_module_contained hscanned hcore (by decide +kernel) none
  have hcaller :=
    hcontained.1 "main.py" _ hmain (by decide) ⟨some "run", .qualified ["pkg", "f"], 3⟩ "run" rfl
    (by decide +kernel)
  exact ⟨_, _, hmain, hcore, hlost, hcaller.2 2 (by decide) hlost⟩

end CallResolver

end CodeAtlas
