import CodeAtlas.Proofs.Ownership
import CodeAtlas.Proofs.Schedule

/-! # Linking again changes nothing

The second pass reads edges from nowhere and writes nothing but edges. The
resolver is the same for two tables that differ in edges only, and so are the
files that the pass asks for. Hence the edges that it writes depend on no edges
from before, whatever texts it gets.

As long as what is kept is what is on disk, the pass has a closed form: every
record that was understood gets the edges of the text on disk, and every other
record stays. A second pass over the outcome then finds the same resolver and
the same texts. For this no text may be kept for a path that cannot be read.
Texts are kept by the steps of paths, so it takes two spellings of one path,
of which one ends in a name and the other one in a slash or a dot: a text that
was read by the first one is found by the second one later. -/
namespace CodeAtlas

open CodeAtlas.Path

/-! ## Nothing looks at edges -/

/-- The record without its edges. -/
def ModuleRecord.uncalled (m : ModuleRecord) : ModuleRecord := { m with calls := [] }

theorem ModuleRecord.recalled_eq {m m' : ModuleRecord} (h : m.uncalled = m'.uncalled)
    (calls : List CallEdge) : { m with calls } = { m' with calls } :=
  congrArg (fun m : ModuleRecord => { m with calls }) h

/-- The table without any edges. -/
def ModuleTable.uncalled (t : ModuleTable) : ModuleTable := t.map fun _ => ModuleRecord.uncalled

namespace ModuleTable

variable {t : ModuleTable}

theorem get?_uncalled (k : String) : t.uncalled.get? k = (t.get? k).map ModuleRecord.uncalled :=
  Dict.get?_map _ t k

theorem values_uncalled : t.uncalled.values = t.values.map ModuleRecord.uncalled :=
  Dict.values_map _ t

theorem byId_uncalled (id : ModuleId) :
    t.uncalled.byId id = (t.byId id).map ModuleRecord.uncalled := by
  simp only [byId, values_uncalled, ← List.map_reverse, List.find?_map]
  rfl

theorem build_uncalled : RepoIndex.build t.uncalled = RepoIndex.build t :=
  RepoIndex.foldl_add_map (f := fun e => (e.1, e.2.uncalled)) (fun _ => rfl) t.toList
    (fun _ _ => rfl) (fun _ _ => rfl) {}

theorem reexports_uncalled : ReexportMap.build t.uncalled = ReexportMap.build t := by
  simp only [ReexportMap.build, values_uncalled, List.flatMap_map]
  rfl

end ModuleTable

namespace CallResolver

variable {t : ModuleTable}

theorem symbolIn_uncalled (m : ModuleRecord) (segments : List String) :
    symbolIn m.uncalled segments = symbolIn m segments := by
  match segments with
  | [] | [_] | _ :: _ :: _ => rfl

theorem tryDirect_uncalled (dotted : String) :
    (ofModules t.uncalled).tryDirect dotted = (ofModules t).tryDirect dotted := by
  simp only [tryDirect, ofModules, ModuleTable.build_uncalled, ModuleTable.get?_uncalled]
  congr 1
  funext found
  cases t.get? found.1 with
  | none => rfl
  | some m =>
    simp only [Option.map_some, Option.bind_eq_bind, Option.bind_some, symbolIn_uncalled]
    rfl

theorem mayLeadFurther_uncalled (x : Option Target) :
    (ofModules t.uncalled).mayLeadFurther x = (ofModules t).mayLeadFurther x := by
  cases x with
  | none => rfl
  | some x =>
    simp only [mayLeadFurther, isPackageInit, ofModules, ModuleTable.byId_uncalled, Option.map_map]
    rfl

theorem chase_uncalled (hops : Nat) (dotted : String) :
    (ofModules t.uncalled).chase hops dotted = (ofModules t).chase hops dotted := by
  have horigin : (ofModules t.uncalled).reexports = (ofModules t).reexports :=
    ModuleTable.reexports_uncalled
  induction hops generalizing dotted with
  | zero => exact tryDirect_uncalled dotted
  | succ hops ih =>
    simp only [chase, tryDirect_uncalled, mayLeadFurther_uncalled, horigin, funext ih]

theorem resolveCallee_uncalled (m : ModuleRecord) (callee : Callee) :
    (ofModules t.uncalled).resolveCallee m.uncalled callee =
      (ofModules t).resolveCallee m callee := by
  match callee with
  | .plain _ | .qualified [] => rfl
  | .qualified (head :: rest) => exact chase_uncalled _ _

theorem isProperty_uncalled (x : Target) :
    (ofModules t.uncalled).isProperty x = (ofModules t).isProperty x := by
  simp only [isProperty, ofModules, ModuleTable.byId_uncalled]
  cases t.byId x.module <;> rfl

/-- The edges of call sites depend on no edges. -/
theorem resolveModule_uncalled (m : ModuleRecord) (sites : List CallSite) :
    (ofModules t.uncalled).resolveModule m.uncalled sites =
      (ofModules t).resolveModule m sites := by
  have hsite : (ofModules t.uncalled).resolveSite m.uncalled = (ofModules t).resolveSite m := by
    funext site
    simp only [resolveSite, resolveCallee_uncalled, isProperty_uncalled]
    rfl
  rw [resolveModule, resolveModule, hsite]

end CallResolver

/-! ## Texts that agree with the disk -/

/-- All that is kept for these files is what is on disk. -/
def ContentCache.AgreesOn (c : ContentCache) (d : Disk) (files : List String) : Prop :=
  ∀ file ∈ files, ∀ text, (components file, text) ∈ c.entries → d.readLossy file = .ok text

/-- Of two files whose paths have the same steps, both paths end in a name or
neither. -/
def SpelledAlike (files : List String) : Prop :=
  ∀ file ∈ files, ∀ file' ∈ files, components file = components file' →
    (EndsInName file ↔ EndsInName file')

theorem Job.Step.agreesOn {d : Disk} {c c' : ContentCache} {job job' : Job} {files : List String}
    (h : Step d c job c' job') (halike : SpelledAlike files) (hc : c.AgreesOn d files)
    (hjob : job.Drawn [] d) (hfile : ∀ file, job.file? = some file → file ∈ files) :
    c'.AgreesOn d files ∧ job'.Drawn [] d := by
  cases h with
  | @hit file text hpeek =>
    have hmem := ContentCache.mem_of_peek hpeek
    refine ⟨?_, .inr (hc file (hfile file rfl) text hmem)⟩
    intro other hother text' htext'
    rcases ContentCache.mem_touch.mp htext' with he | ⟨hold, _⟩
    · exact hc other hother text' (he ▸ hmem)
    · exact hc other hother text' hold
  | miss _ => exact ⟨hc, trivial⟩
  | fetch hread => exact ⟨hc, hread⟩
  | fail hread => exact ⟨hc, hread⟩
  | @keep file text =>
    refine ⟨?_, .inr hjob⟩
    intro other hother text' htext'
    rcases ContentCache.of_mem_store htext' with he | ⟨hold, _⟩
    · obtain ⟨hsteps, rfl⟩ := Prod.ext_iff.mp he
      have hend := halike other hother file (hfile file rfl) hsteps
      exact (Disk.readLossy_congr hend hsteps).trans hjob
    · exact hc other hother text' hold

namespace Pool

/-- What is kept for these files and what jobs have read of them is what is on disk. -/
structure AgreesOn (p : Pool) (d : Disk) (files : List String) : Prop where
  cache : p.cache.AgreesOn d files
  jobs : ∀ job ∈ p.jobs, job.Drawn [] d
  asked : ∀ job ∈ p.jobs, ∀ file, job.file? = some file → file ∈ files

theorem Step.agreesOn {d : Disk} {p q : Pool} {files : List String} (h : Step d p q)
    (halike : SpelledAlike files) (hp : p.AgreesOn d files) : q.AgreesOn d files := by
  obtain ⟨job, hmem, job', _, hjob, hothers, _⟩ := h.exists_job
  obtain ⟨hcache, hdrawn⟩ := hjob.agreesOn halike hp.cache (hp.jobs job hmem) (hp.asked job hmem)
  refine ⟨hcache, ?_, ?_⟩
  · intro other hother
    rcases hothers other hother with rfl | hother
    · exact hdrawn
    · exact hp.jobs other hother
  · intro other hother
    rcases hothers other hother with rfl | hother
    · rw [hjob.file?_eq]
      exact hp.asked job hmem
    · exact hp.asked other hother

end Pool

/-- Files have the answers of the disk, and what is kept for them agrees with
it afterwards. -/
theorem Reads.agreesOn {d : Disk} {cache cache' : ContentCache} {asked : List (Option String)}
    {answers : List (Option (Except FileError String))} {files : List String}
    (h : Reads d cache asked answers cache') (halike : SpelledAlike files)
    (hcache : cache.AgreesOn d files) (hasked : ∀ file, some file ∈ asked → file ∈ files) :
    answers = asked.map (Option.map d.readLossy) ∧ cache'.AgreesOn d files := by
  obtain ⟨jobs, hsteps, hfinished, rfl⟩ := h
  have hstart : Pool.AgreesOn ⟨cache, asked.map .start⟩ d files := by
    refine ⟨hcache, ?_, ?_⟩
    · intro job hjob
      obtain ⟨file, _, rfl⟩ := List.mem_map.mp hjob
      cases file <;> trivial
    · intro job hjob file hfile
      obtain ⟨file', hfile', rfl⟩ := List.mem_map.mp hjob
      rw [Job.file?_start] at hfile
      exact hasked file (hfile ▸ hfile')
  have hend :=
    Pool.Steps.keeps (P := fun q => q.AgreesOn d files) (fun hstep hq => hstep.agreesOn halike hq)
      hsteps hstart
  refine ⟨?_, hend.cache⟩
  rw [← files_of_jobs hsteps, List.map_map]
  apply List.map_congr_left
  intro job hjob
  exact (hend.jobs job hjob).answer?_eq (hfinished job hjob)

/-! ## Nothing but edges is written -/

namespace Link

/-- Every record is kept under its own path. -/
def Keyed (t : ModuleTable) : Prop := ∀ k m, t.get? k = some m → m.path = k

theorem keyed_iff {t : ModuleTable} : Keyed t ↔ ∀ e ∈ t.toList, e.2.path = e.1 := by
  constructor
  · intro h e he
    exact h e.1 e.2 (Dict.mem_toList.mp he)
  · intro h k m hm
    exact h (k, m) (Dict.mem_toList.mpr hm)

theorem Keyed.congr {t t' : ModuleTable} (h : Keyed t) (hsame : t.uncalled = t'.uncalled) :
    Keyed t' := by
  intro k m hm
  have hget : (t.get? k).map ModuleRecord.uncalled = some m.uncalled := by
    rw [← ModuleTable.get?_uncalled, hsame, ModuleTable.get?_uncalled, hm, Option.map_some]
  obtain ⟨m₀, hm₀, he⟩ := Option.map_eq_some_iff.mp hget
  exact (congrArg ModuleRecord.path he).symm.trans (h k m₀ hm₀)

/-- A list of edges by path, one for each module that was understood, has some
for a record exactly if the record was understood. -/
theorem isSome_lookup {t : ModuleTable} (ht : Keyed t) {edges : List (String × List CallEdge)}
    (hpaths : edges.map (·.1) = (t.values.filter (·.parsed)).map (·.path)) {k : String}
    {m : ModuleRecord} (hm : t.get? k = some m) : (edges.reverse.lookup k).isSome = m.parsed := by
  rw [Bool.eq_iff_iff, Dict.isSome_lookup_reverse, hpaths, List.mem_map]
  constructor
  · rintro ⟨m', hm', hpath⟩
    obtain ⟨hmem, hparsed⟩ := List.mem_filter.mp hm'
    obtain ⟨k', hk'⟩ := Dict.mem_values.mp hmem
    rw [← ht k' m' hk', hpath, hm] at hk'
    cases hk'
    exact hparsed
  · intro hparsed
    exact ⟨m, List.mem_filter.mpr ⟨Dict.mem_values_of_get? hm, hparsed⟩, ht k m hm⟩

variable {c : Context} {t t' : ModuleTable} {disk : Disk} {root : String}
  {answers : List (Option (Except FileError String))}

theorem map_fst_edgesAll {ms : List ModuleRecord} (hlength : answers.length = ms.length) :
    (edgesAll c ms answers).map (·.1) = ms.map (·.path) := by
  have hfst : (ms.zip answers).map Prod.fst = ms := List.map_fst_zip (Nat.le_of_eq hlength.symm)
  rw [edgesAll, List.map_map]
  conv_rhs => rw [← hfst, List.map_map]
  rfl

theorem get?_assemble (ms : List ModuleRecord) (k : String) :
    (assemble c t ms answers).get? k = (t.get? k).map fun m =>
      { m with calls := ((edgesAll c ms answers).reverse.lookup k).getD m.calls } :=
  get?_attachAll _ t k

theorem keys_assemble (ms : List ModuleRecord) : (assemble c t ms answers).keys = t.keys := by
  have hmap : assemble c t ms answers = t.map fun k m =>
      { m with calls := ((edgesAll c ms answers).reverse.lookup k).getD m.calls } := by
    apply Dict.ext_get?
    intro k
    rw [get?_assemble, Dict.get?_map]
  rw [hmap, Dict.keys_map]

theorem edgesIn_eq (c : Context) (m : ModuleRecord) (text : String) : edgesIn c m text =
    ((Python.parse text).map fun tree => c.resolver.resolveModule m (callSites tree)).getD [] := by
  unfold edgesIn
  cases Python.parse text <;> rfl

theorem edgesFrom_uncalled (m : ModuleRecord) (answer : Option (Except FileError String)) :
    edgesFrom ⟨.ofModules t.uncalled, disk, root⟩ m.uncalled answer =
      edgesFrom ⟨.ofModules t, disk, root⟩ m answer := by
  match answer with
  | none | some (.error _) => rfl
  | some (.ok text) =>
    simp only [edgesFrom, edgesIn_eq, CallResolver.resolveModule_uncalled]

theorem edgesAll_uncalled (ms : List ModuleRecord) :
    edgesAll ⟨.ofModules t.uncalled, disk, root⟩ (ms.map ModuleRecord.uncalled) answers =
      edgesAll ⟨.ofModules t, disk, root⟩ ms answers := by
  rw [edgesAll, edgesAll, List.zip_map_left, List.map_map]
  apply List.map_congr_left
  intro x _
  exact congrArg (Prod.mk x.1.path) (edgesFrom_uncalled x.1 x.2)

end Link

namespace Analysis

/-- The second analysis has the languages and modules of the first one. Modules
that were not understood are the same, and others are so but for their edges. -/
structure SameButEdges (a b : Analysis) : Prop where
  languages : b.languages = a.languages
  keys : b.modules.keys = a.modules.keys
  records : ∀ k m, a.modules.get? k = some m →
    ∃ calls, b.modules.get? k = some (if m.parsed then { m with calls } else m)

/-- The second analysis has all modules of the first one that were understood,
and they have the same edges there. -/
def EdgesIn (a b : Analysis) : Prop :=
  ∀ k m, a.modules.get? k = some m → m.parsed = true → b.modules.get? k = some m

end Analysis

namespace Engine

variable {e e' : Engine} {d : Disk} {root : String} {place : List String} {a a' b : Analysis}
  {answers : List (Option (Except FileError String))} {outcome : Except Error Analysis}

theorem map_uncalled_understood (a : Analysis) : (understood a).map ModuleRecord.uncalled =
    a.modules.uncalled.values.filter (·.parsed) := by
  rw [ModuleTable.values_uncalled, List.filter_map]
  rfl

theorem asked_congr (h : a.modules.uncalled = a'.modules.uncalled) :
    asked d root a = asked d root a' := by
  have huncalled : ∀ a : Analysis, asked d root a =
      ((understood a).map ModuleRecord.uncalled).map (Link.file? (linkContext d root a)) := by
    intro a
    rw [List.map_map]
    rfl
  rw [huncalled, huncalled, map_uncalled_understood, map_uncalled_understood, h]
  rfl

theorem edgesAll_congr (h : a.modules.uncalled = a'.modules.uncalled) :
    Link.edgesAll (linkContext d root a) (understood a) answers =
      Link.edgesAll (linkContext d root a') (understood a') answers := by
  unfold linkContext
  rw [← Link.edgesAll_uncalled, ← Link.edgesAll_uncalled (understood a'), map_uncalled_understood,
    map_uncalled_understood, h]

theorem length_answers {cache : ContentCache} (h : Reads d e.cache (asked d root a) answers cache) :
    answers.length = (understood a).length := by
  rw [h.length_eq, asked, List.length_map]

theorem isSome_lookup_answers (d : Disk) (root : String) (hkeyed : Link.Keyed a.modules)
    (hlength : answers.length = (understood a).length) {k : String} {m : ModuleRecord}
    (hm : a.modules.get? k = some m) :
    ((Link.edgesAll (linkContext d root a) (understood a) answers).reverse.lookup k).isSome =
      m.parsed :=
  Link.isSome_lookup hkeyed (Link.map_fst_edgesAll hlength) hm

theorem uncalled_linked (d : Disk) (root : String) (a : Analysis)
    (answers : List (Option (Except FileError String))) :
    (linked d root a answers).modules.uncalled = a.modules.uncalled := by
  apply Dict.ext_get?
  intro k
  rw [ModuleTable.get?_uncalled, ModuleTable.get?_uncalled, linked, Link.get?_assemble,
    Option.map_map]
  rfl

/-- Whatever was read, nothing but edges of modules that were understood is
written. -/
theorem linked_sameButEdges (hkeyed : Link.Keyed a.modules)
    (hlength : answers.length = (understood a).length) :
    a.SameButEdges (linked d root a answers) where
  languages := rfl
  keys := Link.keys_assemble _
  records := by
    intro k m hm
    have hsome := isSome_lookup_answers d root hkeyed hlength hm
    rw [linked, Link.get?_assemble, hm, Option.map_some]
    by_cases hparsed : m.parsed = true
    · exact ⟨_, congrArg some (if_pos hparsed).symm⟩
    · rw [Bool.not_eq_true] at hparsed
      rw [hparsed, Option.isSome_eq_false_iff, Option.isNone_iff_eq_none] at hsome
      refine ⟨[], ?_⟩
      rw [hsome, if_neg (by simp [hparsed])]
      rfl

/-- With the same answers, edges from before make no difference. -/
theorem linked_edgesIn (hkeyed : Link.Keyed a.modules)
    (hlength : answers.length = (understood a).length)
    (hsame : a.modules.uncalled = a'.modules.uncalled) :
    (linked d root a answers).EdgesIn (linked d root a' answers) := by
  intro k m hm hparsed
  rw [linked, Link.get?_assemble, Option.map_eq_some_iff] at hm
  obtain ⟨m₀, hm₀, rfl⟩ := hm
  obtain ⟨m₁, hm₁, hboth⟩ : ∃ m₁, a'.modules.get? k = some m₁ ∧ m₁.uncalled = m₀.uncalled := by
    apply Option.map_eq_some_iff.mp
    rw [← ModuleTable.get?_uncalled, ← hsame, ModuleTable.get?_uncalled, hm₀, Option.map_some]
  have hsome := isSome_lookup_answers d root hkeyed hlength hm₀
  rw [show m₀.parsed = true from hparsed, Option.isSome_iff_exists] at hsome
  obtain ⟨edges, hedges⟩ := hsome
  rw [linked, Link.get?_assemble, hm₁, Option.map_some, ← edgesAll_congr hsame, hedges]
  exact congrArg some (ModuleRecord.recalled_eq hboth edges)

end Engine

/-! ## The closed form of the second pass -/

namespace Link

variable {t t' : ModuleTable} {disk : Disk} {root : String}

/-- The tree of the text that is on disk; none if it cannot be read or is not
understood. -/
def treeOnDisk (d : Disk) (root : String) (m : ModuleRecord) : Option Python.Node :=
  if (Language.ofTag m.language).isSome then
    (d.readLossy (Path.join root m.path)).toOption.bind Python.parse
  else none

/-- The edges of the tree that is on disk; none if there is no tree. -/
def edgesOnDisk (c : Context) (m : ModuleRecord) : List CallEdge :=
  ((treeOnDisk c.disk c.root m).map fun tree =>
    c.resolver.resolveModule m (callSites tree)).getD []

theorem edgesFrom_disk (c : Context) (m : ModuleRecord) :
    edgesFrom c m ((file? c m).map c.disk.readLossy) = edgesOnDisk c m := by
  unfold file? edgesOnDisk treeOnDisk
  split
  · cases hread : c.disk.readLossy (Path.join c.root m.path) with
    | error why => simp [edgesFrom, hread, Except.toOption]
    | ok text =>
      simp only [Option.map_some, hread, edgesFrom, edgesIn_eq, Except.toOption, Option.bind_some]
  · rfl

/-- Every record that was understood with the edges of the text on disk, and
all others as they are. -/
def relinked (c : Context) (t : ModuleTable) : ModuleTable :=
  t.map fun _ m => if m.parsed then { m with calls := edgesOnDisk c m } else m

theorem get?_relinked (c : Context) (k : String) : (relinked c t).get? k =
    (t.get? k).map fun m => if m.parsed then { m with calls := edgesOnDisk c m } else m :=
  Dict.get?_map _ t k

theorem uncalled_relinked (c : Context) : (relinked c t).uncalled = t.uncalled := by
  apply Dict.ext_get?
  intro k
  rw [ModuleTable.get?_uncalled, ModuleTable.get?_uncalled, get?_relinked, Option.map_map]
  congr 1
  funext m
  simp only [Function.comp_apply]
  split <;> rfl

/-- Of what is written down by path for every record that was understood, that
of the one record at a path is found there. -/
theorem lookup_by_path (ht : Keyed t) (edges : ModuleRecord → List CallEdge) {k : String}
    {m : ModuleRecord} (hm : t.get? k = some m) :
    ((t.values.filter (·.parsed)).map fun m => (m.path, edges m)).reverse.lookup k =
      if m.parsed then some (edges m) else none := by
  have hpaths : ((t.values.filter (·.parsed)).map fun m => (m.path, edges m)).map (·.1) =
      (t.values.filter (·.parsed)).map (·.path) := by
    rw [List.map_map]
    rfl
  have hsome := isSome_lookup ht hpaths hm
  cases hl : ((t.values.filter (·.parsed)).map fun m => (m.path, edges m)).reverse.lookup k with
  | none =>
    rw [hl] at hsome
    rw [if_neg (fun hparsed => by simp [hparsed] at hsome)]
  | some found =>
    obtain ⟨m', hm', he⟩ := List.mem_map.mp (Dict.mem_of_lookup_reverse hl)
    cases he
    obtain ⟨hmem, hparsed⟩ := List.mem_filter.mp hm'
    obtain ⟨k', hk'⟩ := Dict.mem_values.mp hmem
    rw [← ht k' m' hk', hm] at hk'
    cases hk'
    rw [if_pos hparsed]

theorem assemble_on_disk {c : Context} (ht : Keyed t) :
    assemble c t (t.values.filter (·.parsed))
      ((t.values.filter (·.parsed)).map fun m => (file? c m).map c.disk.readLossy) =
        relinked c t := by
  have hedges : edgesAll c (t.values.filter (·.parsed))
      ((t.values.filter (·.parsed)).map fun m => (file? c m).map c.disk.readLossy) =
      (t.values.filter (·.parsed)).map fun m => (m.path, edgesOnDisk c m) := by
    rw [edgesAll, ← List.map_prod_left_eq_zip, List.map_map]
    simp only [Function.comp_def, edgesFrom_disk]
  apply Dict.ext_get?
  intro k
  rw [get?_assemble, hedges, get?_relinked]
  cases hm : t.get? k with
  | none => rfl
  | some m =>
    rw [Option.map_some, Option.map_some, lookup_by_path ht _ hm]
    by_cases hparsed : m.parsed = true
    · rw [if_pos hparsed, if_pos hparsed, Option.getD_some]
    · rw [if_neg hparsed, if_neg hparsed, Option.getD_none]

theorem edgesOnDisk_uncalled (m : ModuleRecord) :
    edgesOnDisk ⟨.ofModules t.uncalled, disk, root⟩ m.uncalled =
      edgesOnDisk ⟨.ofModules t, disk, root⟩ m := by
  rw [← edgesFrom_disk, ← edgesFrom_disk]
  exact edgesFrom_uncalled m _

theorem relinked_relinked :
    relinked ⟨.ofModules (relinked ⟨.ofModules t, disk, root⟩ t), disk, root⟩
        (relinked ⟨.ofModules t, disk, root⟩ t) =
      relinked ⟨.ofModules t, disk, root⟩ t := by
  have hedges : ∀ m m' : ModuleRecord, m'.uncalled = m.uncalled →
      edgesOnDisk ⟨.ofModules (relinked ⟨.ofModules t, disk, root⟩ t), disk, root⟩ m' =
        edgesOnDisk ⟨.ofModules t, disk, root⟩ m := by
    intro m m' hm
    rw [← edgesOnDisk_uncalled, uncalled_relinked, hm, edgesOnDisk_uncalled]
  apply Dict.ext_get?
  intro k
  rw [get?_relinked, get?_relinked, Option.map_map]
  congr 1
  funext m
  simp only [Function.comp_apply]
  by_cases hparsed : m.parsed = true
  · rw [if_pos hparsed]
    exact (if_pos hparsed).trans (congrArg (fun calls => { m with calls }) (hedges m _ rfl))
  · rw [if_neg hparsed, if_neg hparsed]

end Link

namespace Engine

variable {e e' : Engine} {d : Disk} {root : String} {place : List String} {a a' b : Analysis}
  {answers : List (Option (Except FileError String))} {outcome : Except Error Analysis}

/-- The files that the second pass reads. -/
def linkFiles (d : Disk) (root : String) (a : Analysis) : List String :=
  (asked d root a).filterMap id

/-- For every file that the second pass reads, the engine keeps nothing but
what is on disk. -/
def AgreesWith (e : Engine) (d : Disk) (root : String) (a : Analysis) : Prop :=
  e.cache.AgreesOn d (linkFiles d root a)

theorem linkFiles_congr (h : a.modules.uncalled = b.modules.uncalled) :
    linkFiles d root a = linkFiles d root b :=
  congrArg (List.filterMap id) (asked_congr h)

/-- Of two modules that were understood and whose paths below the root have the
same steps, both paths end in a name or neither. -/
def PathsEndAlike (root : String) (a : Analysis) : Prop :=
  ∀ m ∈ understood a, ∀ m' ∈ understood a,
    components (join root m.path) = components (join root m'.path) →
      (EndsInName m.path ↔ EndsInName m'.path)

theorem PathsEndAlike.linkFiles (h : PathsEndAlike root a) (d : Disk) :
    SpelledAlike (linkFiles d root a) := by
  have hjoin : ∀ file ∈ Engine.linkFiles d root a, ∃ m ∈ understood a, file = join root m.path := by
    intro file hfile
    obtain ⟨_, hasked, rfl⟩ := List.mem_filterMap.mp hfile
    obtain ⟨m, hm, hfile⟩ := List.mem_map.mp hasked
    unfold Link.file? at hfile
    split at hfile
    · cases hfile
      exact ⟨m, hm, rfl⟩
    · cases hfile
  intro file hfile file' hfile' hsteps
  obtain ⟨m, hm, rfl⟩ := hjoin file hfile
  obtain ⟨m', hm', rfl⟩ := hjoin file' hfile'
  rw [endsInName_join, endsInName_join]
  exact h m hm m' hm' hsteps

/-- The outcome of the second pass by the texts on disk. -/
def relinked (d : Disk) (root : String) (a : Analysis) : Analysis :=
  { a with modules := Link.relinked (linkContext d root a) a.modules }

theorem uncalled_relinked (d : Disk) (root : String) (a : Analysis) :
    (relinked d root a).modules.uncalled = a.modules.uncalled := Link.uncalled_relinked _

theorem relinked_relinked (d : Disk) (root : String) (a : Analysis) :
    relinked d root (relinked d root a) = relinked d root a :=
  congrArg (fun modules => Analysis.mk modules a.languages) Link.relinked_relinked

/-- In any order of steps the second pass has the outcome that the texts on
disk give, and the engine still agrees with the disk. -/
theorem Resolves.relinked (h : e.Resolves d root a answers outcome e')
    (hroot : d.root root = .ok place) (hkeyed : Link.Keyed a.modules)
    (hagree : e.AgreesWith d root a) (halike : SpelledAlike (linkFiles d root a)) :
    outcome = .ok (Engine.relinked d root a) ∧ e'.AgreesWith d root a := by
  obtain ⟨rfl, cache, rfl, hreads⟩ := h.of_root hroot
  obtain ⟨rfl, hkept⟩ := hreads.agreesOn halike hagree fun file hfile =>
    List.mem_filterMap.mpr ⟨some file, hfile, rfl⟩
  refine ⟨?_, hkept⟩
  have hmodules : Link.assemble (linkContext d root a) a.modules (understood a)
      ((asked d root a).map (Option.map d.readLossy)) =
      Link.relinked (linkContext d root a) a.modules := by
    rw [asked, List.map_map]
    exact Link.assemble_on_disk hkeyed
  rw [linked, hmodules]
  rfl

/-- A second pass over such an outcome, in any order of steps, returns it as it is. -/
theorem Resolves.relinked_again
    (h : e.Resolves d root (Engine.relinked d root a) answers outcome e')
    (hroot : d.root root = .ok place) (hkeyed : Link.Keyed a.modules)
    (hagree : e.AgreesWith d root a) (halike : SpelledAlike (linkFiles d root a)) :
    outcome = .ok (Engine.relinked d root a) := by
  have hsame := (uncalled_relinked d root a).symm
  have hfiles : linkFiles d root a = linkFiles d root (Engine.relinked d root a) :=
    linkFiles_congr hsame
  have hagree' : e.AgreesWith d root (Engine.relinked d root a) := by
    unfold AgreesWith
    rw [← hfiles]
    exact hagree
  rw [(h.relinked hroot (hkeyed.congr hsame) hagree' (hfiles ▸ halike)).1, relinked_relinked]

/-- What the second pass does is one of the things it can do. -/
theorem relink_resolves (e : Engine) (hroot : d.root root = .ok place) (a : Analysis) :
    ∃ answers b e', e.relink d root a = (.ok (), b, e') ∧ e.Resolves d root a answers (.ok b) e' :=
  ⟨_, _, _, e.relink_of_root d hroot a, .finished hroot (ContentCache.readAll_reads _ _ _)⟩

/-- Edges from before have no part in what is read or in what is made of it. -/
theorem relink_congr (hroot : d.root root = .ok place) (hkeyed : Link.Keyed a.modules)
    (hsame : a.modules.uncalled = a'.modules.uncalled) (h : e.relink d root a = (.ok (), b, e')) :
    ∃ b', e.relink d root a' = (.ok (), b', e') ∧ b.EdgesIn b' := by
  have hlength := length_answers (ContentCache.readAll_reads d e.cache (asked d root a))
  have hasked : asked d root a = asked d root a' := asked_congr hsame
  rw [e.relink_of_root d hroot] at h
  cases h
  rw [e.relink_of_root d hroot a', ← hasked]
  exact ⟨_, rfl, linked_edgesIn hkeyed hlength hsame⟩

/-- The same in any order of steps. -/
theorem Resolves.congr (h : e.Resolves d root a answers outcome e')
    (hroot : d.root root = .ok place) (hkeyed : Link.Keyed a.modules) :
    ∃ b, outcome = .ok b ∧ a.SameButEdges b ∧
      ∀ a', a.modules.uncalled = a'.modules.uncalled →
        ∃ b', e.Resolves d root a' answers (.ok b') e' ∧ b.EdgesIn b' := by
  obtain ⟨rfl, cache, rfl, hreads⟩ := h.of_root hroot
  have hlength := length_answers hreads
  refine ⟨_, rfl, linked_sameButEdges hkeyed hlength, ?_⟩
  intro a' hsame
  rw [asked_congr hsame] at hreads
  exact ⟨_, .finished hroot hreads, linked_edgesIn hkeyed hlength hsame⟩

/-- **Linking touches only edges, fails as a whole, and is repeatable.** Take
an analysis whose records are kept under their own paths. If the root is no
directory, the second pass returns that error, and the analysis is as it was.
Otherwise the pass succeeds, in any order of steps. Languages, keys and all
records that were not understood stay as they are, and of the other records
only edges change. No edges from before have a part in the new ones.

Let moreover the engine agree with the disk about the files of the analysis,
and let no two records be of one path, the one spelled so that it ends in a
name and the other one not. Then every record that was understood gets the
edges of the text on disk, or none if there is no such text or it is not
understood, and a second pass leaves all as it is. -/
theorem relink_repeatable {a : Analysis} (hkeyed : Link.Keyed a.modules) (e : Engine) (d : Disk)
    (root : String) :
    (∀ why, d.root root = .error why → e.relink d root a = (.error (.root why), a, e)) ∧
    ∀ place, d.root root = .ok place → ∃ b e', e.relink d root a = (.ok (), b, e') ∧
      a.SameButEdges b ∧
      (∀ a', a.modules.uncalled = a'.modules.uncalled →
        ∃ b', e.relink d root a' = (.ok (), b', e') ∧ b.EdgesIn b') ∧
      (∀ answers outcome e₁, e.Resolves d root a answers outcome e₁ →
        ∃ b₁, outcome = .ok b₁ ∧ a.SameButEdges b₁ ∧
          ∀ a', a.modules.uncalled = a'.modules.uncalled →
            ∃ b', e.Resolves d root a' answers (.ok b') e₁ ∧ b₁.EdgesIn b') ∧
      (e.AgreesWith d root a → PathsEndAlike root a →
        (∀ k m, a.modules.get? k = some m → m.parsed = true →
          b.modules.get? k = some { m with calls := Link.edgesOnDisk (linkContext d root a) m }) ∧
        (∃ e₂, e'.relink d root b = (.ok (), b, e₂)) ∧
        ∀ answers outcome e₁, e.Resolves d root a answers outcome e₁ → outcome = .ok b ∧
          ∀ answers' outcome' e₂, e₁.Resolves d root b answers' outcome' e₂ →
            outcome' = .ok b) := by
  refine ⟨fun why hroot => by simp only [relink, hroot], fun place hroot => ?_⟩
  obtain ⟨answers, b, e', hrelink, hresolves⟩ := e.relink_resolves hroot a
  obtain ⟨_, hb, hframe, _⟩ := hresolves.congr hroot hkeyed
  cases hb
  refine ⟨b, e', hrelink, hframe, fun a' hsame => relink_congr hroot hkeyed hsame hrelink,
    fun answers outcome e₁ h => h.congr hroot hkeyed, ?_⟩
  intro hagree halike
  have halike := halike.linkFiles d
  obtain ⟨hok, hagree'⟩ := hresolves.relinked hroot hkeyed hagree halike
  obtain rfl : b = Engine.relinked d root a := Except.ok.inj hok
  refine ⟨?_, ?_, ?_⟩
  · intro k m hm hparsed
    refine (Link.get?_relinked _ k).trans ?_
    rw [hm, Option.map_some, if_pos hparsed]
  · obtain ⟨_, b, e₂, hagain, hresolves'⟩ := e'.relink_resolves hroot (Engine.relinked d root a)
    cases hresolves'.relinked_again hroot hkeyed hagree' halike
    exact ⟨e₂, hagain⟩
  · intro answers outcome e₁ h
    obtain ⟨houtcome, hagree₁⟩ := h.relinked hroot hkeyed hagree halike
    exact ⟨houtcome, fun _ _ _ h' => h'.relinked_again hroot hkeyed hagree₁ halike⟩

/-! ## Two spellings of one path -/

/-- The text of a module with a function that calls itself. -/
def selfCallingText : String := "def f():\n    f()\n"

def selfCalling : Disk where
  entries := .ofList [("proj", .directory), ("proj/a.py", .file selfCallingText.toUTF8.toList)]

/-- The record of the module under a spelling of its path that does not end in
a name. -/
def slashedRecord : ModuleRecord :=
  (ModuleRecord.skeleton 1 "./a.py/" "b" "py" {}).withFunction "f"

def spelledTwice : Analysis where
  modules := .ofList [("./a.py/", slashedRecord),
    ("a.py", (ModuleRecord.skeleton 2 "a.py" "a" "py" {}).withFunction "f")]
  languages := ["py"]

/-- The record has the edges of what was read for it. -/
theorem linked_spelledTwice (answer other : Option (Except FileError String)) :
    (linked selfCalling "proj" spelledTwice [answer, other]).modules.get? "./a.py/" =
      some { slashedRecord with
        calls :=
          Link.edgesFrom (linkContext selfCalling "proj" spelledTwice) slashedRecord answer } := by
  have hget : spelledTwice.modules.get? "./a.py/" = some slashedRecord := by decide +kernel
  have hunderstood : understood spelledTwice =
      [slashedRecord, (ModuleRecord.skeleton 2 "a.py" "a" "py" {}).withFunction "f"] := by
    decide +kernel
  rw [linked, Link.get?_assemble, hget, hunderstood]
  rfl

/-- By the spelling that ends in a slash no file can be read, but its text can
be kept. An engine that keeps nothing at first gets no edges for that record in
the first pass, and those of the kept text in the second one. -/
theorem relink_again_changes_second_spelling : Link.Keyed spelledTwice.modules ∧
    (ofConfig {}).AgreesWith selfCalling "proj" spelledTwice ∧
    ∃ b e' c e₂, (ofConfig {}).relink selfCalling "proj" spelledTwice = (.ok (), b, e') ∧
      e'.relink selfCalling "proj" b = (.ok (), c, e₂) ∧
      b.modules.get? "./a.py/" = some slashedRecord ∧
      c.modules.get? "./a.py/" = some { slashedRecord with
        calls := Link.edgesIn (linkContext selfCalling "proj" spelledTwice) slashedRecord
          selfCallingText } ∧
      ((Python.parse selfCallingText).map callSites = some [⟨some "f", .plain "f", 2⟩] →
        c ≠ b) := by
  have hroot : selfCalling.root "proj" = .ok ["proj"] := by decide +kernel
  have hkeyed : Link.Keyed spelledTwice.modules := Link.keyed_iff.mpr (by decide +kernel)
  -- what the first pass reads and keeps, and what the second one reads then
  have hfirst : (ofConfig {}).cache.readAll selfCalling (asked selfCalling "proj" spelledTwice) =
      ([some (.error .notADirectory), some (.ok selfCallingText)],
        ⟨1000, [(["proj", "a.py"], selfCallingText)]⟩) := by decide +kernel
  have hsecond : (ContentCache.readAll selfCalling ⟨1000, [(["proj", "a.py"], selfCallingText)]⟩
      (asked selfCalling "proj" spelledTwice)).1 =
        [some (.ok selfCallingText), some (.ok selfCallingText)] := by decide +kernel
  obtain ⟨b, hb⟩ : ∃ b, b = linked selfCalling "proj" spelledTwice
    [some (.error .notADirectory), some (.ok selfCallingText)] := ⟨_, rfl⟩
  have hslashed : b.modules.get? "./a.py/" = some slashedRecord := by
    rw [hb, linked_spelledTwice]
    rfl
  have hsame : spelledTwice.modules.uncalled = b.modules.uncalled := by
    rw [hb]
    exact (uncalled_linked _ _ _ _).symm
  have hrelink : (ofConfig {}).relink selfCalling "proj" spelledTwice =
      (.ok (), b, ⟨{}, ⟨1000, [(["proj", "a.py"], selfCallingText)]⟩⟩) := by
    rw [relink_of_root _ _ hroot, hfirst, hb]
    rfl
  have hedges : (linked selfCalling "proj" b
      [some (.ok selfCallingText), some (.ok selfCallingText)]).modules.get? "./a.py/" =
        some { slashedRecord with
          calls := Link.edgesIn (linkContext selfCalling "proj" spelledTwice) slashedRecord
            selfCallingText } :=
    linked_edgesIn hkeyed (by decide +kernel) hsame _ _ (linked_spelledTwice _ _) rfl
  have hagain := relink_of_root ⟨{}, ⟨1000, [(["proj", "a.py"], selfCallingText)]⟩⟩ _ hroot b
  rw [← asked_congr hsame, hsecond] at hagain
  refine ⟨hkeyed, fun _ _ _ hmem => (List.not_mem_nil hmem).elim, b, _, _, _, hrelink, hagain,
    hslashed, hedges, ?_⟩
  intro hsites hsame
  rw [hsame, hslashed, Option.some.injEq] at hedges
  have hcalls := congrArg ModuleRecord.calls hedges
  obtain ⟨tree, hparse, htree⟩ := Option.map_eq_some_iff.mp hsites
  simp only [Link.edgesIn_eq, hparse, Option.map_some, Option.getD_some, htree] at hcalls
  revert hcalls
  decide +kernel

/-! ## Files that agree and files that are gone -/

/-- Modules with edges from before: one under two spellings that both end in a
name, one whose file is gone, and one that was not understood. -/
def staleAnalysis : Analysis where
  modules := .ofList [
    ("./b.py", { (ModuleRecord.skeleton 3 "./b.py" "c" "py" {}).withFunction "g" with
      calls := [⟨1, 1, 0⟩] }),
    ("a.py", { (ModuleRecord.skeleton 1 "a.py" "a" "py" {}).withFunction "f" with
      calls := [⟨1, 1, 0⟩] }),
    ("b.py", (ModuleRecord.skeleton 2 "b.py" "b" "py" {}).withFunction "g"),
    ("gone.py", { (ModuleRecord.skeleton 4 "gone.py" "gone" "py" {}).withFunction "h" with
      calls := [⟨1, 1, 0⟩] }),
    ("notes.md", { ModuleRecord.skeleton 5 "notes.md" "notes" "md" {} with
      calls := [⟨1, 1, 0⟩] })]
  languages := ["py"]

/-- An engine that keeps the text of one of the files as it is on disk. -/
def keepsOne : Engine :=
  ⟨{}, ⟨2, [(["proj", "a.py"], "import b\ndef f():\n    b.g()\n")]⟩⟩

/-- Edges from before give way to those of the text, edges of a file that is
gone go, a record that was not understood is left alone, and a second pass
changes nothing. -/
theorem keepsOne_relinks : Link.Keyed staleAnalysis.modules ∧
    keepsOne.AgreesWith callingProject "proj" staleAnalysis ∧
    PathsEndAlike "proj" staleAnalysis ∧
    ∃ b e' e₂, keepsOne.relink callingProject "proj" staleAnalysis = (.ok (), b, e') ∧
      (∃ m, staleAnalysis.modules.get? "a.py" = some m ∧ b.modules.get? "a.py" = some { m with
        calls := Link.edgesIn (linkContext callingProject "proj" staleAnalysis) m
          "import b\ndef f():\n    b.g()\n" }) ∧
      (b.modules.get? "gone.py").map (·.calls) = some [] ∧
      b.modules.get? "notes.md" = staleAnalysis.modules.get? "notes.md" ∧
      e'.relink callingProject "proj" b = (.ok (), b, e₂) := by
  have hkeyed : Link.Keyed staleAnalysis.modules := Link.keyed_iff.mpr (by decide +kernel)
  have hroot : callingProject.root "proj" = .ok ["proj"] := by decide +kernel
  have hagree : keepsOne.AgreesWith callingProject "proj" staleAnalysis := by
    intro file hfile text hmem
    obtain ⟨hsteps, rfl⟩ := Prod.ext_iff.mp (List.mem_singleton.mp hmem)
    revert file
    decide +kernel
  have halike : PathsEndAlike "proj" staleAnalysis := by
    unfold PathsEndAlike EndsInName
    decide +kernel
  obtain ⟨b, e', hrelink, hframe, _, _, hdisk⟩ :=
    (relink_repeatable hkeyed keepsOne callingProject "proj").2 _ hroot
  obtain ⟨hedges, ⟨e₂, hagain⟩, _⟩ := hdisk hagree halike
  refine ⟨hkeyed, hagree, halike, b, e', e₂, hrelink, ?_, ?_, ?_, hagain⟩
  · obtain ⟨m, hm, hparsed, hpath, hlanguage⟩ : ∃ m, staleAnalysis.modules.get? "a.py" = some m ∧
        m.parsed = true ∧ m.path = "a.py" ∧ m.language = "py" := ⟨_, rfl, rfl, rfl, rfl⟩
    have hfile : Link.file? (linkContext callingProject "proj" staleAnalysis) m =
        some "proj/a.py" := by
      rw [Link.file?, hlanguage, hpath]
      rfl
    have hread : (linkContext callingProject "proj" staleAnalysis).disk.readLossy "proj/a.py" =
        .ok "import b\ndef f():\n    b.g()\n" := by decide +kernel
    refine ⟨m, hm, ?_⟩
    rw [hedges "a.py" m hm hparsed, ← Link.edgesFrom_disk, hfile, Option.map_some, hread,
      Link.edgesFrom]
  · obtain ⟨m, hm, hparsed, hpath⟩ : ∃ m, staleAnalysis.modules.get? "gone.py" = some m ∧
        m.parsed = true ∧ m.path = "gone.py" := ⟨_, rfl, rfl, rfl⟩
    have hgone : callingProject.readLossy (join "proj" m.path) = .error .notFound := by
      rw [hpath]
      decide +kernel
    rw [hedges "gone.py" m hm hparsed]
    simp [Link.edgesOnDisk, Link.treeOnDisk, linkContext, hgone, Except.toOption]
  · obtain ⟨m, hm, hparsed⟩ : ∃ m, staleAnalysis.modules.get? "notes.md" = some m ∧
        m.parsed = false := ⟨_, rfl, rfl⟩
    obtain ⟨_, hnotes⟩ := hframe.records "notes.md" m hm
    rw [hnotes, hm, if_neg (by simp [hparsed])]

end Engine

end CodeAtlas
