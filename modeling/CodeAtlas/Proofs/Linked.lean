import CodeAtlas.Proofs.Resolution

/-! # The second pass never breaks an analysis

The second pass reads every text again, and by then files may have changed,
vanished or become unreadable. Whatever is read, the edges that a module gets
are those of some list of call sites over the tables of the first pass, and
nothing but its edges changes. Since every such edge fits, the outcome is
consistent and a whole run never ends in an error of the final check. -/
namespace CodeAtlas

namespace Link

/-! ## What the second pass changes -/

theorem module_edges (c : Context) (cache : ContentCache) (m : ModuleRecord) :
    ∃ sites, (module c cache m).1 = c.resolver.resolveModule m sites := by
  unfold module
  split
  · split
    · unfold edgesIn
      split
      · exact ⟨_, rfl⟩
      · exact ⟨[], rfl⟩
    · exact ⟨[], rfl⟩
  · exact ⟨[], rfl⟩

theorem modules_edges {c : Context} {ms : List ModuleRecord} (cache : ContentCache)
    {e : String × List CallEdge} (he : e ∈ (modules c cache ms).1) :
    ∃ m ∈ ms, e.1 = m.path ∧ ∃ sites, e.2 = c.resolver.resolveModule m sites := by
  induction ms generalizing cache with
  | nil => simp [modules] at he
  | cons m rest ih =>
    simp only [modules, List.mem_cons] at he
    rcases he with rfl | he
    · exact ⟨m, by simp, rfl, module_edges c cache m⟩
    · obtain ⟨m', hm', h⟩ := ih _ he
      exact ⟨m', by simp [hm'], h⟩

theorem get?_attach (t : ModuleTable) (path : String) (edges : List CallEdge) (k : String) :
    (attach t path edges).get? k =
      (t.get? k).map fun m => if k = path then { m with calls := edges } else m := by
  unfold attach
  by_cases hk : k = path
  · subst hk
    cases ht : t.get? k with
    | none => simp [ht]
    | some m => simp
  · cases ht : t.get? path with
    | none => simp [hk]
    | some m => simp [hk]

/-- After attaching several lists of edges a record has the last one for its
path, and is else as it was. -/
theorem get?_attachAll (l : List (String × List CallEdge)) (t : ModuleTable) (k : String) :
    (l.foldl (fun t e => attach t e.1 e.2) t).get? k =
      (t.get? k).map fun m => { m with calls := (l.reverse.lookup k).getD m.calls } := by
  induction l generalizing t with
  | nil => simp
  | cons e rest ih =>
    obtain ⟨path, edges⟩ := e
    rw [List.foldl_cons, ih, get?_attach, Option.map_map, List.reverse_cons, List.lookup_append]
    congr 1
    funext m
    by_cases hk : k = path
    · subst hk
      cases rest.reverse.lookup k <;> simp
    · cases rest.reverse.lookup k <;> simp [hk, List.lookup_cons, beq_false_of_ne hk]

variable {t : ModuleTable} {disk : Disk} {root : String} {cache : ContentCache}

/-- A record after the second pass is one from before with the edges of some
call sites. -/
theorem table_origin (ht : t.Scanned) {k : String} {m' : ModuleRecord}
    (h : (table disk root cache t).1.get? k = some m') :
    ∃ m sites, t.get? k = some m ∧
      m' = { m with calls := (CallResolver.ofModules t).resolveModule m sites } := by
  unfold table at h
  simp only [get?_attachAll, Option.map_eq_some_iff] at h
  obtain ⟨m, hm, rfl⟩ := h
  cases hl :
    (modules ⟨.ofModules t, disk, root⟩ cache (t.values.filter (·.parsed))).1.reverse.lookup k with
  | none =>
    -- no edges were attached: there were none before the pass, as for no sites at all
    exact ⟨m, [], hm, by simp [(ht.coherent_at hm).unlinked, CallResolver.resolveModule]⟩
  | some edges =>
    obtain ⟨m₀, hm₀, hpath, sites, hedges⟩ := modules_edges cache (Dict.mem_of_lookup_reverse hl)
    obtain ⟨k₀, hk₀⟩ := Dict.mem_values.mp (List.mem_filter.mp hm₀).1
    have hk : k₀ = k := (ht.path_eq hk₀).symm.trans hpath.symm
    rw [hk, hm] at hk₀
    cases hk₀
    exact ⟨m, sites, hm, by simpa using hedges⟩

/-- A record from before is there after the second pass, with the same number
and symbols. -/
theorem table_keeps (disk : Disk) (root : String) (cache : ContentCache) {k : String}
    {m : ModuleRecord} (h : t.get? k = some m) :
    ∃ calls, (table disk root cache t).1.get? k = some { m with calls } := by
  unfold table
  simp only [get?_attachAll, h, Option.map_some]
  exact ⟨_, rfl⟩

/-! ## The outcome is consistent -/

theorem table_consistent (ht : t.Scanned) (languages : List String) :
    Analysis.Consistent ⟨(table disk root cache t).1, languages⟩ where
  positive := by
    intro m' hm'
    obtain ⟨k, hk⟩ := Dict.mem_values.mp hm'
    obtain ⟨m, sites, hm, rfl⟩ := table_origin ht hk
    show 0 < m.id
    exact ht.id_pos hm
  distinct := by
    apply ModuleTable.distinctIds_of_key_eq
    intro k k' m₁ m₂ h₁ h₂ hid
    obtain ⟨m, _, hm, rfl⟩ := table_origin ht h₁
    obtain ⟨m', _, hm', rfl⟩ := table_origin ht h₂
    exact ht.distinct.key_eq hm hm' hid
  symbols := by
    intro m' hm'
    obtain ⟨k, hk⟩ := Dict.mem_values.mp hm'
    obtain ⟨m, sites, hm, rfl⟩ := table_origin ht hk
    exact ⟨(ht.coherent_at hm).distinct, (ht.coherent_at hm).owned⟩
  edges := by
    intro m' hm' e he
    obtain ⟨k, hk⟩ := Dict.mem_values.mp hm'
    obtain ⟨m, sites, hm, rfl⟩ := table_origin ht hk
    obtain ⟨site, _, hsite⟩ := CallResolver.mem_resolveModule.mp he
    obtain ⟨hcaller, target, htarget, hid, hsymbol⟩ := CallResolver.resolveSite_fits ht hm hsite
    obtain ⟨kt, hkt⟩ := Dict.mem_values.mp htarget
    obtain ⟨calls, hkept⟩ := table_keeps disk root cache hkt
    exact ⟨hcaller, { target with calls }, Dict.mem_values_of_get? hkept, hid, hsymbol⟩

end Link

theorem Disk.root_of_isDirectory {d : Disk} {path : String} (h : d.isDirectory path = true) :
    ∃ place, d.root path = .ok place := by
  unfold isDirectory stat at h
  unfold root
  cases hl : d.locate path with
  | error cause => simp [hl, bind, Except.bind] at h
  | ok place =>
    cases he : d.entryAt place with
    | none => simp [hl, he, bind, Except.bind] at h
    | some e => cases e <;> simp_all [bind, Except.bind]

namespace Engine

variable {e : Engine} {d : Disk} {r : Request}

/-- The second pass over what the first one returned: it fails only for want of
a root. -/
theorem resolveCalls_outcome {a : Analysis} (ha : a.modules.Scanned) (e : Engine) (d : Disk)
    (root : String) :
    (∃ why, d.root root = .error why ∧ (e.resolveCalls d root a).1 = .error (.root why)) ∨
      ∃ b, (e.resolveCalls d root a).1 = .ok b ∧ b.Consistent := by
  unfold resolveCalls relink
  cases hroot : d.root root with
  | error why => exact .inl ⟨why, rfl, rfl⟩
  | ok place => exact .inr ⟨_, rfl, Link.table_consistent ha a.languages⟩

/-- Finding the files fails only because of the root or of a pattern. -/
theorem find_error {cause : Error} (h : e.find d r = .error cause) :
    (∃ why, cause = .root why) ∨ ∃ why, cause = .pattern why := by
  unfold find at h
  cases hroot : d.root r.root with
  | error why =>
    rw [hroot] at h
    cases h
    exact .inl ⟨why, rfl⟩
  | ok place =>
    rw [hroot] at h
    cases hpattern : PathFilter.ofPatterns r.includePattern r.excludePattern with
    | error why =>
      rw [hpattern] at h
      cases h
      exact .inr ⟨why, rfl⟩
    | ok filter =>
      rw [hpattern] at h
      cases hwalk : d.walk e.config.scanning filter r.root with
      | error why =>
        simp only [Except.mapError, bind, Except.bind, hwalk] at h
        cases h
        exact .inl ⟨why, rfl⟩
      | ok found =>
        simp only [Except.mapError, bind, Except.bind, hwalk] at h
        cases h

theorem checked_of_consistent {a : Analysis} (h : a.Consistent) : checked a = .ok a := by
  unfold checked
  rw [Analysis.validate_eq_nil_iff.mpr h]

theorem analyze_error {cause : Error} (h : (e.analyze d r).1 = .error cause) :
    e.find d r = .error cause := by
  unfold analyze at h
  split at h
  · rename_i hfind
    rw [hfind]
    exact congrArg _ (Except.error.inj h)
  · cases h

/-- No run ends in an error of the final check. -/
theorem run_no_validation (e : Engine) (d : Disk) (r : Request) (cause : ValidationError) :
    (e.run d r).1 ≠ .error (.validation cause) := by
  intro h
  unfold run at h
  split at h
  · rename_i why e' ha
    cases h
    have hfind := analyze_error (congrArg Prod.fst ha)
    rcases find_error hfind with ⟨_, hwhy⟩ | ⟨_, hwhy⟩ <;> cases hwhy
  · rename_i a e' ha
    have hscanned := analyze_scanned (congrArg Prod.fst ha)
    split at h
    · rename_i why e'' hr
      cases h
      rcases resolveCalls_outcome hscanned e' d r.root with ⟨_, _, hwhy⟩ | ⟨_, hb, _⟩
      · rw [hr] at hwhy; cases hwhy
      · rw [hr] at hb; cases hb
    · rename_i b e'' hr
      rcases resolveCalls_outcome hscanned e' d r.root with ⟨_, _, hwhy⟩ | ⟨_, hb, hconsistent⟩
      · rw [hr] at hwhy; cases hwhy
      · rw [hr] at hb
        cases hb
        rw [checked_of_consistent hconsistent] at h
        cases h

/-- **Both passes agree whatever happens between them.** Take what the first
pass returns for any tree, settings and patterns, with any texts kept. However
the disk and the kept texts change, as long as the root is a directory the
second pass returns an analysis in which the check finds nothing: numbers are
positive and distinct, symbols belong to their modules, and every edge fits. In
particular a run never ends in an error of that check. -/
theorem resolveCalls_valid_after_changes (e : Engine) (d : Disk) (r : Request) :
    (∀ cause, (e.run d r).1 ≠ .error (.validation cause)) ∧
      ∀ a, (e.analyze d r).1 = .ok a → ∀ (later : Engine) (changed : Disk),
        changed.isDirectory r.root = true →
        ∃ b, (later.resolveCalls changed r.root a).1 = .ok b ∧ b.validate = [] ∧ b.Consistent := by
  refine ⟨run_no_validation e d r, ?_⟩
  intro a ha later changed hroot
  obtain ⟨place, hplace⟩ := Disk.root_of_isDirectory hroot
  rcases resolveCalls_outcome (analyze_scanned ha) later changed r.root with
    ⟨_, hwhy, _⟩ | ⟨b, hb, hconsistent⟩
  · rw [hplace] at hwhy
    cases hwhy
  · exact ⟨b, hb, Analysis.validate_eq_nil_iff.mpr hconsistent, hconsistent⟩

theorem analyze_of_find (h : (e.find d r).isOk = true) : ∃ a, (e.analyze d r).1 = .ok a := by
  unfold analyze
  cases hfind : e.find d r with
  | error why => rw [hfind] at h; cases h
  | ok found => exact ⟨_, rfl⟩

/-- A project with a module that calls another one. -/
def callingProject : Disk where
  entries := .ofList [("proj", .directory),
    ("proj/a.py", .file "import b\ndef f():\n    b.g()\n".toUTF8.toList),
    ("proj/b.py", .file "def g():\n    pass\n".toUTF8.toList)]

/-- The same project when all its files are gone. -/
def clearedProject : Disk where
  entries := .ofList [("proj", .directory)]

/-- Between the passes all files go away, and a text that was never on disk is
kept for one of them. -/
theorem resolveCalls_valid_after_clearing :
    ∃ a b, ((ofConfig {}).analyze callingProject ⟨"proj", none, none⟩).1 = .ok a ∧
      clearedProject.isDirectory "proj" = true ∧
      ((Engine.mk {} ⟨4, [(["proj", "a.py"], "def f():\n    f()\n")]⟩).resolveCalls clearedProject
        "proj" a).1 = .ok b ∧
      b.validate = [] := by
  have hfind : ((ofConfig {}).find callingProject ⟨"proj", none, none⟩).isOk = true := by
    decide +kernel
  have hroot : clearedProject.isDirectory "proj" = true := by decide +kernel
  obtain ⟨a, ha⟩ := analyze_of_find hfind
  obtain ⟨b, hb, hvalid, _⟩ := (resolveCalls_valid_after_changes _ _ _).2 a ha _ _ hroot
  exact ⟨a, b, ha, hroot, hb, hvalid⟩

end Engine

end CodeAtlas
