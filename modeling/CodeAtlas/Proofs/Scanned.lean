import CodeAtlas.Engine.Run
import CodeAtlas.Proofs.Consistency

/-! # What the first pass leaves behind

A record is coherent if its tables of functions and properties lead to symbols
of that kind among its own, and nothing has been resolved in it yet. A skeleton
is coherent, and filling a record from any syntax tree keeps it so: the symbols
that are added have numbers above all others, and the tables are read off the
same numbered list. Hence every table that the first pass returns is scanned,
whatever the files contain and whatever texts are kept. -/
namespace CodeAtlas

open Python

/-! ## Coherent records -/

/-- Every name in a table stands for a symbol of a kind. -/
def SymbolTable (symbols : List Symbol) (kind : SymbolKind) (table : Dict SymbolId) : Prop :=
  ∀ e ∈ table.toList, ∃ s ∈ symbols, s.id = e.2 ∧ s.kind = kind

instance (symbols : List Symbol) (kind : SymbolKind) (table : Dict SymbolId) :
    Decidable (SymbolTable symbols kind table) :=
  inferInstanceAs (Decidable (∀ e ∈ table.toList, ∃ s ∈ symbols, s.id = e.2 ∧ s.kind = kind))

namespace ModuleRecord

/-- The symbols and tables of a record agree, only a package offers names, and
there are no edges yet. -/
structure Coherent (m : ModuleRecord) : Prop extends m.OwnsSymbols where
  positive : ∀ s ∈ m.symbols, 0 < s.id
  functions : SymbolTable m.symbols .function m.functions
  properties : SymbolTable m.symbols .property m.properties
  plain : m.isPackageInit = false → m.reexports = {}
  unlinked : m.calls = []

instance (m : ModuleRecord) : Decidable m.Coherent :=
  decidable_of_iff ((m.symbols.map (·.id)).Nodup ∧ (∀ s ∈ m.symbols, s.moduleId = m.id) ∧
    (∀ s ∈ m.symbols, 0 < s.id) ∧
      SymbolTable m.symbols .function m.functions ∧ SymbolTable m.symbols .property m.properties ∧
      (m.isPackageInit = false → m.reexports = {}) ∧ m.calls = [])
    ⟨fun ⟨hd, ho, hpos, hf, hp, hplain, hcalls⟩ => ⟨⟨hd, ho⟩, hpos, hf, hp, hplain, hcalls⟩,
      fun h => ⟨h.distinct, h.owned, h.positive, h.functions, h.properties, h.plain, h.unlinked⟩⟩

theorem skeleton_coherent (id : ModuleId) (path dotted language : String) (roleTags : NameSet) :
    (skeleton id path dotted language roleTags).Coherent where
  distinct := by simp [skeleton]
  owned := by simp [skeleton]
  positive := by simp [skeleton, anchorId]
  functions := by intro e he; cases he
  properties := by intro e he; cases he
  plain := fun _ => rfl
  unlinked := rfl

theorem le_foldl_max (l : List Nat) :
    ∀ start, start ≤ l.foldl max start ∧ ∀ n ∈ l, n ≤ l.foldl max start := by
  induction l with
  | nil => simp
  | cons x rest ih =>
    intro start
    obtain ⟨hstart, hrest⟩ := ih (max start x)
    simp only [List.foldl_cons, List.forall_mem_cons]
    exact ⟨by omega, by omega, hrest⟩

theorem lt_nextSymbolId {m : ModuleRecord} {s : Symbol} (h : s ∈ m.symbols) :
    s.id < m.nextSymbolId := by
  have hle := (le_foldl_max (m.symbols.map (·.id)) 0).2 s.id (List.mem_map_of_mem h)
  exact Nat.lt_succ_of_le hle

/-- A record with one more function, as tables for examples are made of. -/
def withFunction (m : ModuleRecord) (name : String) : ModuleRecord :=
  { m with
    parsed := true
    symbols := m.symbols ++ [{ moduleId := m.id, id := m.nextSymbolId, kind := .function, name }]
    functions := m.functions.insert name m.nextSymbolId }

/-! ## Filling a record -/

/-- The definitions of a module with the numbers of their symbols. -/
def numbered (m : ModuleRecord) (root : Node) : List (Declared × SymbolId) :=
  (Declared.ofModule root).zipIdx m.nextSymbolId

theorem isPackageInit_eq_of_path {m m' : ModuleRecord} (h : m'.path = m.path) :
    m'.isPackageInit = m.isPackageInit := by
  unfold isPackageInit
  rw [h]

theorem trackReexports_eq (m : ModuleRecord) (listed : Option (List String)) :
    ∃ table, m.trackReexports listed = { m with reexports := table } ∧
      (m.isPackageInit = false → table = m.reexports) := by
  unfold trackReexports
  by_cases h : m.isPackageInit = true
  · rw [if_pos h]
    exact ⟨_, rfl, by simp [h]⟩
  · rw [if_neg h]
    exact ⟨m.reexports, rfl, fun _ => rfl⟩

/-- Two records speak of the same file. -/
structure SameFile (m m' : ModuleRecord) : Prop where
  id : m'.id = m.id
  path : m'.path = m.path
  dotted : m'.dotted = m.dotted
  language : m'.language = m.language
  roleTags : m'.roleTags = m.roleTags

variable {m : ModuleRecord} {h : HeuristicsConfig} {index : RepoIndex} {root : Node}

theorem fill_sameFile : m.SameFile (m.fill h index root) := by
  unfold fill
  obtain ⟨table, ht, _⟩ := trackReexports_eq _ _
  rw [ht]
  exact ⟨rfl, rfl, rfl, rfl, rfl⟩

/-- A text either cannot be parsed and changes nothing, or fills the record
from its tree. -/
theorem extract_cases (m : ModuleRecord) (h : HeuristicsConfig) (index : RepoIndex)
    (source : String) :
    m.extract h index source = m ∨ ∃ root, m.extract h index source = m.fill h index root := by
  unfold extract
  cases parse source with
  | none => exact .inl rfl
  | some root => exact .inr ⟨root, rfl⟩

theorem map_id_numbered (m : ModuleRecord) (root : Node) :
    ((m.numbered root).map fun e => e.1.symbol m.id e.2).map (·.id) =
      List.range' m.nextSymbolId (Declared.ofModule root).length := by
  rw [List.map_map]
  exact List.zipIdx_map_snd _ _

theorem nodup_numbered (hm : m.Coherent) :
    ((m.symbols ++ (m.numbered root).map fun e => e.1.symbol m.id e.2).map (·.id)).Nodup := by
  rw [List.map_append, map_id_numbered, List.nodup_append]
  refine ⟨hm.distinct, List.nodup_range', ?_⟩
  intro old hold new hnew he
  obtain ⟨s, hs, rfl⟩ := List.mem_map.mp hold
  have hlt := lt_nextSymbolId hs
  have hge := (List.mem_range'_1.mp hnew).1
  rw [he] at hlt
  exact Nat.not_lt.mpr hge hlt

/-- A table that gains the numbered definitions of a kind leads to symbols of
that kind again. -/
theorem symbolTable_numbered {kind : SymbolKind} {table : Dict SymbolId}
    (ht : SymbolTable m.symbols kind table) :
    SymbolTable (m.symbols ++ (m.numbered root).map fun e => e.1.symbol m.id e.2) kind
      (table.insertMany ((m.numbered root).filterMap fun e => e.1.tableEntry kind e.2)) := by
  rintro ⟨name, id⟩ he
  rw [Dict.mem_toList, Dict.get?_insertMany, Option.or_eq_some_iff] at he
  rcases he with he | ⟨_, he⟩
  · obtain ⟨x, hx, hentry⟩ := List.mem_filterMap.mp (Dict.mem_of_lookup_reverse he)
    unfold Declared.tableEntry at hentry
    split at hentry
    · rename_i hkind
      have hid : x.2 = id := (Prod.mk.inj (Option.some.inj hentry)).2
      exact ⟨x.1.symbol m.id x.2, List.mem_append_right _ (List.mem_map_of_mem hx), hid, hkind⟩
    · cases hentry
  · obtain ⟨s, hs, hid⟩ := ht (name, id) (Dict.mem_toList.mpr he)
    exact ⟨s, List.mem_append_left _ hs, hid⟩

theorem fill_coherent (hm : m.Coherent) : (m.fill h index root).Coherent := by
  unfold fill
  obtain ⟨table, ht, hplain⟩ := trackReexports_eq _ _
  rw [ht]
  have hnew : ∀ s ∈ (m.numbered root).map (fun e => e.1.symbol m.id e.2), s.moduleId = m.id ∧
      0 < s.id := by
    intro s hs
    obtain ⟨x, hx, rfl⟩ := List.mem_map.mp hs
    exact ⟨rfl, Nat.lt_of_lt_of_le (Nat.succ_pos _) (List.le_snd_of_mem_zipIdx hx)⟩
  refine ⟨⟨nodup_numbered hm, ?_⟩, ?_, symbolTable_numbered hm.functions,
    symbolTable_numbered hm.properties, ?_, hm.unlinked⟩
  · intro s hs
    rcases List.mem_append.mp hs with hs | hs
    · exact hm.owned s hs
    · exact (hnew s hs).1
  · intro s hs
    rcases List.mem_append.mp hs with hs | hs
    · exact hm.positive s hs
    · exact (hnew s hs).2
  · intro hp
    have hinit : m.isPackageInit = false := (isPackageInit_eq_of_path rfl).symm.trans hp
    exact (hplain ((isPackageInit_eq_of_path rfl).trans hinit)).trans (hm.plain hinit)

end ModuleRecord

/-! ## The first pass -/

namespace Scan

/-- What can become of a record in the first pass: it is kept, or filled from
some text. -/
inductive Outcome (c : Context) (m : ModuleRecord) : ModuleRecord → Prop
  | kept : Outcome c m m
  | filled (text : String) : Outcome c m (fillFrom c m text)

variable {c : Context} {m m' : ModuleRecord}

theorem module_outcome (cache : ContentCache) : Outcome c m (module c cache m).1 := by
  unfold module
  split
  · split
    · exact .filled _
    · exact .kept
  · exact .kept

theorem modules_outcome {ms : List ModuleRecord} (cache : ContentCache)
    (hm : m' ∈ (modules c cache ms).1) : ∃ m ∈ ms, Outcome c m m' := by
  induction ms generalizing cache with
  | nil => simp [modules] at hm
  | cons m rest ih =>
    simp only [modules, List.mem_cons] at hm
    rcases hm with rfl | hm
    · exact ⟨m, by simp, module_outcome cache⟩
    · obtain ⟨m₀, hm₀, ho⟩ := ih _ hm
      exact ⟨m₀, by simp [hm₀], ho⟩

/-- What a record keeps when its digest is set and when it is filled from any
tree, it keeps in the first pass. -/
theorem Outcome.keeps {P : ModuleRecord → Prop} (ho : Outcome c m m') (hm : P m)
    (hdigest : ∀ {m} digest, P m → P { m with contentHash := digest })
    (hfill : ∀ {m root}, P m → P (m.fill c.config.heuristics c.index root)) : P m' := by
  cases ho with
  | kept => exact hm
  | filled text =>
    unfold fillFrom
    rcases ModuleRecord.extract_cases _ c.config.heuristics c.index text with he | ⟨root, he⟩
    · rw [he]
      exact hdigest _ hm
    · rw [he]
      exact hfill (hdigest _ hm)

theorem Outcome.sameFile (ho : Outcome c m m') : m.SameFile m' := by
  apply ho.keeps ⟨rfl, rfl, rfl, rfl, rfl⟩
  · intro m' digest h
    exact ⟨h.id, h.path, h.dotted, h.language, h.roleTags⟩
  · intro m' root h
    obtain ⟨hid, hpath, hdotted, hlanguage, htags⟩ := ModuleRecord.fill_sameFile
    exact ⟨hid.trans h.id, hpath.trans h.path, hdotted.trans h.dotted, hlanguage.trans h.language,
      htags.trans h.roleTags⟩

theorem Outcome.coherent (ho : Outcome c m m') (hm : m.Coherent) : m'.Coherent := by
  apply ho.keeps hm
  · intro m digest hm
    exact ⟨⟨hm.distinct, hm.owned⟩, hm.positive, hm.functions, hm.properties, hm.plain, hm.unlinked⟩
  · exact ModuleRecord.fill_coherent

end Scan

/-- A table of records by path, with a number for each and everything in them
coherent. -/
structure ModuleTable.Scanned (t : ModuleTable) : Prop where
  keyed : ∀ e ∈ t.toList, e.2.path = e.1
  positive : ∀ e ∈ t.toList, 0 < e.2.id
  distinct : t.DistinctIds
  coherent : ∀ e ∈ t.toList, e.2.Coherent

instance (t : ModuleTable) : Decidable t.Scanned :=
  decidable_of_iff ((∀ e ∈ t.toList, e.2.path = e.1) ∧ (∀ e ∈ t.toList, 0 < e.2.id) ∧
    t.DistinctIds ∧
      ∀ e ∈ t.toList, e.2.Coherent)
    ⟨fun ⟨hk, hpos, hd, hc⟩ => ⟨hk, hpos, hd, hc⟩,
      fun h => ⟨h.keyed, h.positive, h.distinct, h.coherent⟩⟩

namespace ModuleTable.Scanned

variable {t : ModuleTable} {k : String} {m : ModuleRecord}

theorem path_eq (ht : t.Scanned) (hk : t.get? k = some m) : m.path = k :=
  ht.keyed (k, m) (Dict.mem_toList.mpr hk)

theorem id_pos (ht : t.Scanned) (hk : t.get? k = some m) : 0 < m.id :=
  ht.positive (k, m) (Dict.mem_toList.mpr hk)

theorem coherent_at (ht : t.Scanned) (hk : t.get? k = some m) : m.Coherent :=
  ht.coherent (k, m) (Dict.mem_toList.mpr hk)

/-- A table whose records come, each at its path, from records of a scanned one
is scanned. -/
theorem of_origin {t' : ModuleTable} (ht : t.Scanned)
    (h : ∀ {k m'}, t'.get? k = some m' →
      ∃ m, t.get? k = some m ∧ m'.id = m.id ∧ m'.path = m.path ∧ m'.Coherent) :
    t'.Scanned := by
  refine ⟨?_, ?_, distinctIds_of_key_eq ?_, ?_⟩
  · intro e he
    obtain ⟨m, hm, _, hpath, _⟩ := h (Dict.mem_toList.mp he)
    rw [hpath]
    exact ht.path_eq hm
  · intro e he
    obtain ⟨m, hm, hid, _⟩ := h (Dict.mem_toList.mp he)
    rw [hid]
    exact ht.id_pos hm
  · intro k₁ k₂ m₁ m₂ h₁ h₂ hid
    obtain ⟨m, hm, hid₁, _⟩ := h h₁
    obtain ⟨m', hm', hid₂, _⟩ := h h₂
    rw [hid₁, hid₂] at hid
    exact ht.distinct.key_eq hm hm' hid
  · intro e he
    obtain ⟨_, _, _, _, hcoherent⟩ := h (Dict.mem_toList.mp he)
    exact hcoherent

end ModuleTable.Scanned

/-- Every record that the first pass returns has become of the one at its path. -/
theorem Scan.table_origin {t : ModuleTable} (ht : t.Scanned) {config : Config} {disk : Disk}
    {root : String} {cache : ContentCache} {k : String} {m' : ModuleRecord}
    (h : (Scan.table config disk root cache t).1.get? k = some m') :
    ∃ m, t.get? k = some m ∧ Outcome ⟨config, .build t, disk, root⟩ m m' := by
  obtain ⟨m'', hm'', he⟩ := List.mem_map.mp (Dict.mem_of_get?_ofList h)
  cases he
  obtain ⟨m, hm, ho⟩ := Scan.modules_outcome cache hm''
  obtain ⟨k, hk⟩ := Dict.mem_values.mp hm
  have hpath : m'.path = k := ho.sameFile.path.trans (ht.path_eq hk)
  exact ⟨m, hpath ▸ hk, ho⟩

theorem Scan.table_scanned {t : ModuleTable} (ht : t.Scanned) (config : Config) (disk : Disk)
    (root : String) (cache : ContentCache) :
    ModuleTable.Scanned (Scan.table config disk root cache t).1 := by
  apply ht.of_origin
  intro k m' hk
  obtain ⟨m, hm, ho⟩ := Scan.table_origin ht hk
  exact ⟨m, hm, ho.sameFile.id, ho.sameFile.path, ho.coherent (ht.coherent_at hm)⟩

/-- Every record in the table of a list of files is the skeleton of one of
them, numbered by its place in the list. -/
theorem indexFiles_origin {h : HeuristicsConfig} {files : List SourceFile} {k : String}
    {m : ModuleRecord} (hk : (indexFiles h files).get? k = some m) :
    ∃ file id, (file, id) ∈ files.zipIdx 1 ∧ k = file.path ∧
      m = .skeleton id file.path (Path.dottedName file.path) file.language
        (h.roleTags file.path) := by
  obtain ⟨⟨file, id⟩, hmem, he⟩ := List.mem_map.mp (Dict.mem_of_get?_ofList hk)
  cases he
  exact ⟨file, id, hmem, rfl, rfl⟩

/-- The skeletons of any list of files make a scanned table; the numbers are
places in the list. -/
theorem indexFiles_scanned (h : HeuristicsConfig) (files : List SourceFile) :
    ModuleTable.Scanned (indexFiles h files) := by
  refine ⟨?_, ?_, ModuleTable.distinctIds_of_key_eq ?_, ?_⟩
  · intro e he
    obtain ⟨file, id, _, hk, hm⟩ := indexFiles_origin (Dict.mem_toList.mp he)
    rw [hk, hm]
    rfl
  · intro e he
    obtain ⟨file, id, hmem, _, hm⟩ := indexFiles_origin (Dict.mem_toList.mp he)
    rw [hm]
    exact List.le_snd_of_mem_zipIdx hmem
  · intro k k' m m' hk hk' hid
    obtain ⟨file, id, hmem, rfl, rfl⟩ := indexFiles_origin hk
    obtain ⟨file', id', hmem', rfl, rfl⟩ := indexFiles_origin hk'
    have he : id = id' := hid
    subst he
    rw [List.mk_mem_zipIdx_iff_le_and_getElem?_sub] at hmem hmem'
    have hfile : some file = some file' := hmem.2.symm.trans hmem'.2
    cases hfile
    rfl
  · intro e he
    obtain ⟨file, id, _, _, hm⟩ := indexFiles_origin (Dict.mem_toList.mp he)
    rw [hm]
    exact ModuleRecord.skeleton_coherent ..

/-- Whatever the disk holds and whatever texts are kept, the first pass returns
a scanned table. -/
theorem Engine.analyze_scanned {e : Engine} {d : Disk} {r : Request} {a : Analysis}
    (h : (e.analyze d r).1 = .ok a) : a.modules.Scanned := by
  unfold Engine.analyze at h
  split at h
  · cases h
  · cases h
    exact Scan.table_scanned (indexFiles_scanned _ _) _ _ _ _

end CodeAtlas
