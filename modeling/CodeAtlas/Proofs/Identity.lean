import CodeAtlas.Proofs.Ownership
import CodeAtlas.Proofs.Provenance

/-! # Modules keep their identity

The first pass takes the table of skeletons apart into a list of records, reads
a file for some of them, and makes a table of the list again. Files come in
ascending order of paths and no record changes its path, so the table has the
same keys in the same order, and the number of a module is its place in that
order. Reading leaves the anchor in front of all symbols, takes imports from
the keys of the table, and does nothing at all unless a text is understood,
except that the digest of every text that was read is noted. -/
namespace CodeAtlas

/-! ## What filling a record leaves -/

theorem ModuleRecord.fill_view (m : ModuleRecord) (h : HeuristicsConfig) (index : RepoIndex)
    (root : Python.Node) :
    (m.fill h index root).parsed = true ∧ (m.fill h index root).contentHash = m.contentHash ∧
      (m.fill h index root).importPaths = (ImportTable.ofModule m.path root).resolve index ∧
      ∃ symbols, (m.fill h index root).symbols = m.symbols ++ symbols := by
  unfold fill
  obtain ⟨table, ht, _⟩ := trackReexports_eq _ _
  rw [ht]
  dsimp only
  exact ⟨rfl, rfl, rfl, (m.numbered root).map (fun e => e.1.symbol m.id e.2), rfl⟩

namespace RepoIndex

/-- A token only names modules of the table. -/
theorem resolveToken_mem_keys {t : ModuleTable} {token : ImportToken} {path : String}
    (h : path ∈ (build t).resolveToken token) : path ∈ t.keys := by
  have hstem : ∀ {stem}, path ∈ (build t).pathsForStem stem → path ∈ t.keys := by
    intro stem hmem
    rw [pathsForStem_build] at hmem
    exact (List.mem_filter.mp hmem).1
  have howner : ∀ {dotted}, (build t).pathForDotted dotted = some path → path ∈ t.keys := by
    intro dotted howner
    obtain ⟨_, m, hm, _⟩ := owner_dotted howner
    exact Dict.mem_keys.mpr ⟨m, hm⟩
  cases token with
  | path target =>
    simp only [resolveToken] at h
    split at h
    · rename_i hfile
      obtain rfl := List.mem_singleton.mp h
      exact hstem (List.contains_iff_mem.mp hfile)
    · exact howner (Option.mem_toList.mp h)
  | dotted name =>
    simp only [resolveToken] at h
    split at h
    · rename_i owner hname
      exact howner (by rw [hname, List.mem_singleton.mp h])
    · exact hstem h

end RepoIndex

theorem ImportTable.resolve_mem_keys {t : ModuleTable} (imports : ImportTable) {path : String}
    (h : path ∈ (imports.resolve (.build t)).keys) : path ∈ t.keys := by
  obtain ⟨_, hget⟩ := Dict.mem_keys.mp h
  obtain ⟨name, hname, he⟩ := List.mem_map.mp (Dict.mem_of_get?_ofList hget)
  cases he
  obtain ⟨token, _, hmem⟩ := List.mem_flatMap.mp hname
  exact RepoIndex.resolveToken_mem_keys hmem

/-! ## The table of the first pass -/

/-- The record that a file starts with. -/
def SourceFile.skeleton (h : HeuristicsConfig) (file : SourceFile) (number : ModuleId) :
    ModuleRecord :=
  .skeleton number file.path (Path.dottedName file.path) file.language (h.roleTags file.path)

theorem indexFiles_toList (h : HeuristicsConfig) {files : List SourceFile}
    (hsorted : files.Pairwise fun a b => a.path < b.path) :
    (indexFiles h files).toList = (files.zipIdx 1).map fun x => (x.1.path, x.1.skeleton h x.2) := by
  apply Dict.toList_ofList
  rw [List.pairwise_map]
  have hfiles : ((files.zipIdx 1).map Prod.fst).Pairwise fun a b => a.path < b.path := by
    rwa [List.zipIdx_map_fst]
  rw [List.pairwise_map] at hfiles
  exact hfiles

namespace Scan

variable {c : Context} {t : ModuleTable} {m : ModuleRecord}
  {answer : Option (Except FileError String)}
  {answers : List (Option (Except FileError String))}

theorem map_fst_zip_answers (hlength : answers.length = t.values.length) :
    (t.toList.zip answers).map Prod.fst = t.toList :=
  List.map_fst_zip (by rw [hlength]; simp [Dict.values, Dict.toList])

/-- The table has the entries from before, each with what was read for it. -/
theorem assemble_toList (ht : t.Scanned) (hlength : answers.length = t.values.length) :
    (assemble c t.values answers).toList = (t.toList.zip answers).map fun x =>
      (x.1.1, filled c x.1.2 x.2) := by
  have hentries : (fillAll c t.values answers).map (fun m => (m.path, m)) =
      (t.toList.zip answers).map fun x => (x.1.1, filled c x.1.2 x.2) := by
    have hvalues : t.values = t.toList.map (·.2) := rfl
    rw [fillAll, hvalues, List.zip_map_left, List.map_map, List.map_map]
    apply List.map_congr_left
    rintro ⟨⟨k, m⟩, answer⟩ hx
    have hpath :=
      (filled_outcome c m answer).sameFile.path.trans (ht.keyed (k, m) (List.of_mem_zip hx).1)
    exact Prod.ext hpath rfl
  unfold assemble
  rw [hentries]
  apply Dict.toList_ofList
  rw [List.pairwise_map]
  have hkeys : ((t.toList.zip answers).map Prod.fst).Pairwise fun a b => a.1 < b.1 := by
    rw [map_fst_zip_answers hlength]
    exact t.sorted
  rw [List.pairwise_map] at hkeys
  exact hkeys

theorem keys_assemble (ht : t.Scanned) (hlength : answers.length = t.values.length) :
    (assemble c t.values answers).keys = t.keys := by
  calc (assemble c t.values answers).keys = (assemble c t.values answers).toList.map (·.1) := rfl
    _ = ((t.toList.zip answers).map Prod.fst).map (·.1) := by
        rw [assemble_toList ht hlength, List.map_map, List.map_map]; rfl
    _ = t.keys := by rw [map_fst_zip_answers hlength]; rfl

theorem values_assemble (ht : t.Scanned) (hlength : answers.length = t.values.length) :
    (assemble c t.values answers).values = fillAll c t.values answers := by
  have hvalues : ∀ t : ModuleTable, t.values = t.toList.map (·.2) := fun _ => rfl
  rw [hvalues, assemble_toList ht hlength, List.map_map, fillAll, hvalues, List.zip_map_left,
    List.map_map]
  rfl

/-! ## One record -/

theorem wants_iff : wants c m = true ↔ m.language = "py" ∧
    ∃ size, c.disk.size (Path.join c.root m.path) = .ok size ∧
      size ≤ c.config.scanning.maxFileSize := by
  have hlanguage : (Language.ofTag m.language).isSome = true ↔ m.language = "py" := by
    unfold Language.ofTag
    split <;> simp_all
  unfold wants
  rw [Bool.and_eq_true, hlanguage]
  refine and_congr_right fun _ => ?_
  cases c.disk.size (Path.join c.root m.path) <;> simp

/-- What the first pass leaves in the record of a file, as the one with this
number and after this answer for it. The keys are those of the table, and the
texts those that were kept before the pass. -/
structure Identified (c : Context) (keys : List String) (kept : List (List String × String))
    (file : SourceFile) (number : ModuleId) (answer : Option (Except FileError String))
    (m : ModuleRecord) : Prop where
  id : m.id = number
  path : m.path = file.path
  dotted : m.dotted = Path.dottedName file.path
  language : m.language = file.language
  roleTags : m.roleTags = c.config.heuristics.roleTags file.path
  anchor : m.symbols.head? =
    some { moduleId := number, id := anchorId, kind := .module, name := Path.fileStem file.path }
  unlinked : m.calls = []
  imports : ∀ path ∈ m.importPaths.keys, path ∈ keys
  plain : Path.fileName file.path ≠ "__init__.py" → m.reexports = {}
  unparsed : m.parsed = false →
    m = { file.skeleton c.config.heuristics number with contentHash := m.contentHash }
  /-- The digest is set exactly for a Python file that is small enough and was
  not found unreadable. -/
  hashed : m.contentHash.isSome = true ↔ file.language = "py" ∧
    (∃ size, c.disk.size (Path.join c.root file.path) = .ok size ∧
      size ≤ c.config.scanning.maxFileSize) ∧
    ∀ why, answer ≠ some (.error why)
  digest : ∀ text, answer = some (.ok text) → m.contentHash = some (Sha256.hexDigest text)
  source : ∀ text, answer = some (.ok text) →
    (Path.components (Path.join c.root file.path), text) ∈ kept ∨
    c.disk.readLossy (Path.join c.root file.path) = .ok text
  unreadable : ∀ why, answer = some (.error why) →
    c.disk.readLossy (Path.join c.root file.path) = .error why

/-- A record that is kept or filled keeps the anchor, the imports and the
digest in order. -/
theorem Outcome.anchored {m' : ModuleRecord} (ho : Outcome c m m') (hindex : c.index = .build t)
    (himports : m.importPaths = {}) (hne : m.symbols ≠ []) :
    m'.symbols.head? = m.symbols.head? ∧ (∀ path ∈ m'.importPaths.keys, path ∈ t.keys) ∧
      (m.parsed = false → m'.parsed = false → m' = { m with contentHash := m'.contentHash }) := by
  cases ho with
  | kept =>
    refine ⟨rfl, ?_, fun _ _ => rfl⟩
    rw [himports]
    intro path hpath
    cases hpath
  | filled text =>
    unfold fillFrom
    rcases ModuleRecord.extract_cases _ c.config.heuristics c.index text with he | ⟨root, he⟩
    · rw [he]
      refine ⟨rfl, ?_, fun _ _ => rfl⟩
      intro path hpath
      rw [show ({ m with contentHash := some (Sha256.hexDigest text) } : ModuleRecord).importPaths =
        {} from himports] at hpath
      cases hpath
    · obtain ⟨hparsed, _, hpaths, symbols, hsymbols⟩ := ModuleRecord.fill_view
        { m with contentHash := some (Sha256.hexDigest text) } c.config.heuristics c.index root
      rw [he]
      refine ⟨?_, ?_, ?_⟩
      · rw [hsymbols]
        exact List.head?_append_of_ne_nil _ hne
      · rw [hpaths, hindex]
        intro path hpath
        exact ImportTable.resolve_mem_keys _ hpath
      · intro _ hunparsed
        rw [hparsed] at hunparsed
        cases hunparsed

theorem fillFrom_contentHash (m : ModuleRecord) (text : String) :
    (fillFrom c m text).contentHash = some (Sha256.hexDigest text) := by
  unfold fillFrom
  rcases ModuleRecord.extract_cases _ c.config.heuristics c.index text with he | ⟨root, he⟩
  · rw [he]
  · rw [he]
    exact (ModuleRecord.fill_view _ _ _ _).2.1

theorem filled_contentHash_isSome (hwants : answer.isSome = wants c m) (hm : m.contentHash = none) :
    (filled c m answer).contentHash.isSome = true ↔ wants c m = true ∧
    ∀ why, answer ≠ some (.error why) := by
  rw [← hwants]
  match answer with
  | none => simp [filled, hm]
  | some (.error why) => simp [filled, hm]
  | some (.ok text) => simp [filled, fillFrom_contentHash]

/-- A skeleton becomes what it should, by an answer that there is if the file
is wanted, and that comes from a text kept at first or from disk. -/
theorem filled_identified {kept : List (List String × String)} (hindex : c.index = .build t)
    {file : SourceFile} {number : ModuleId} (hm : m = file.skeleton c.config.heuristics number)
    (hasked : answer.isSome = (file? c m).isSome) (hanswer : ∀ path, file? c m = some path →
      (∀ text, answer = some (.ok text) → (Path.components path, text) ∈ kept ∨
        c.disk.readLossy path = .ok text) ∧
      ∀ why, answer = some (.error why) → c.disk.readLossy path = .error why) :
    Identified c t.keys kept file number answer (filled c m answer) := by
  have ho := filled_outcome c m answer
  obtain ⟨hid, hpath, hdotted, hlanguage, htags⟩ := ho.sameFile
  obtain ⟨hanchor, himports, hunparsed⟩ :=
    ho.anchored hindex (by rw [hm]; rfl) (by rw [hm]; exact List.cons_ne_nil _ _)
  have hcoherent := ho.coherent (by rw [hm]; exact ModuleRecord.skeleton_coherent ..)
  have hwants : answer.isSome = wants c m := by
    rw [hasked]
    unfold file?
    split <;> simp_all
  have hfile : answer.isSome = true → file? c m = some (Path.join c.root file.path) := by
    intro h
    rw [hwants] at h
    simp only [file?, h, if_true]
    rw [hm]
    rfl
  subst hm
  refine ⟨hid, hpath, hdotted, hlanguage, htags, hanchor, hcoherent.unlinked, himports, ?_,
    hunparsed rfl, ?_, ?_, ?_, ?_⟩
  · intro hname
    apply hcoherent.plain
    rw [ModuleRecord.isPackageInit, hpath]
    exact decide_eq_false hname
  · rw [filled_contentHash_isSome hwants rfl, wants_iff, and_assoc]
    rfl
  · rintro text rfl
    exact fillFrom_contentHash _ text
  · rintro text rfl
    exact (hanswer _ (hfile rfl)).1 text rfl
  · rintro why rfl
    exact (hanswer _ (hfile rfl)).2 why rfl

end Scan

namespace Engine

variable {e e' : Engine} {d : Disk} {r : Request} {found : WalkOutcome}

theorem skeletons_scanned (e : Engine) (found : WalkOutcome) : (e.skeletons found).Scanned :=
  indexFiles_scanned _ _

theorem skeletons_getElem? (h : e.find d r = .ok found) {i : Nat} {file : SourceFile}
    (hfile : found.files[i]? = some file) :
    (e.skeletons found).toList[i]? =
      some (file.path, file.skeleton e.config.heuristics (i + 1)) := by
  rw [skeletons, indexFiles_toList _ (find_sorted h), List.getElem?_map, List.getElem?_zipIdx,
    hfile]
  simp [Nat.add_comm]

theorem skeletons_keys (h : e.find d r = .ok found) :
    (e.skeletons found).keys = found.files.map (·.path) := by
  have hkeys : (e.skeletons found).keys = (e.skeletons found).toList.map (·.1) := rfl
  rw [hkeys, skeletons, indexFiles_toList _ (find_sorted h), List.map_map]
  calc (found.files.zipIdx 1).map (fun x => x.1.path)
    _ = ((found.files.zipIdx 1).map Prod.fst).map (·.path) := by
        rw [List.map_map]
        rfl
    _ = found.files.map (·.path) := by rw [List.zipIdx_map_fst]

/-- **The first pass keeps identities.** It can always be finished, and
whatever texts are kept before and in whatever order of steps files are read:
the keys of the table are the paths of the files found, in ascending order of
their bytes, and the record of the file at each place is identified by it, with
the place as its number. -/
theorem analyze_keeps_identity (e : Engine) (d : Disk) (r : Request) :
    (∃ answers, e.Analyzes d r answers (e.analyze d r).1 (e.analyze d r).2) ∧
      ∀ answers a e', e.Analyzes d r answers (.ok a) e' → ∃ found, e.find d r = .ok found ∧
        a.modules.keys = found.files.map (·.path) ∧
        (a.modules.keys.map (·.toUTF8.data.toList)).Pairwise (· < ·) ∧
        ∀ i file, found.files[i]? = some file → ∃ answer m, answers[i]? = some answer ∧
          a.modules.toList[i]? = some (file.path, m) ∧
          Scan.Identified (e.scanContext d r found) a.modules.keys e.cache.entries
            file (i + 1) answer m := by
  refine ⟨e.analyze_analyzes d r, ?_⟩
  intro answers a e' h
  cases h with
  | @finished found _ _ hfind hreads =>
    have hscanned := e.skeletons_scanned found
    have hlength : answers.length = (e.skeletons found).values.length := by
      rw [hreads.length_eq, List.length_map]
    have hkeys : (Scan.assemble (e.scanContext d r found) (e.skeletons found).values answers).keys =
        found.files.map (·.path) :=
      (Scan.keys_assemble hscanned hlength).trans (skeletons_keys hfind)
    refine ⟨found, hfind, hkeys, ?_, ?_⟩
    · rw [hkeys, List.map_map, List.pairwise_map]
      exact (find_sorted hfind).imp Text.bytes_lt
    · intro i file hfile
      have hentry := skeletons_getElem? hfind hfile
      have hvalue : ((e.skeletons found).values.map (Scan.file? (e.scanContext d r found)))[i]? =
          some (Scan.file? (e.scanContext d r found)
            (file.skeleton e.config.heuristics (i + 1))) := by
        have hvalues : (e.skeletons found).values = (e.skeletons found).toList.map (·.2) := rfl
        rw [List.getElem?_map, hvalues, List.getElem?_map, hentry]
        rfl
      obtain ⟨answer, hanswer, hasked, hsource⟩ := hreads.answer_of_file (files_named hfind) hvalue
      have hpair : ((e.skeletons found).toList.zip answers)[i]? =
          some ((file.path, file.skeleton e.config.heuristics (i + 1)), answer) :=
        List.getElem?_zip_eq_some.mpr ⟨hentry, hanswer⟩
      refine ⟨answer,
        Scan.filled (e.scanContext d r found) (file.skeleton e.config.heuristics (i + 1)) answer,
        hanswer, ?_, ?_⟩
      · rw [Scan.assemble_toList hscanned hlength, List.getElem?_map, hpair]
        rfl
      · rw [hkeys, ← skeletons_keys hfind]
        exact Scan.filled_identified rfl rfl hasked hsource

/-- Of two files the second in order is number two, and since it can be read
its digest is noted. -/
theorem analyze_identifies_second_file :
    ∃ a m, ((ofConfig {}).analyze callingProject ⟨"proj", none, none⟩).1 = .ok a ∧
      a.modules.keys = ["a.py", "b.py"] ∧
      a.modules.toList[1]? = some ("b.py", m) ∧ m.id = 2 ∧ m.contentHash.isSome = true := by
  have hfind : ((ofConfig {}).find callingProject ⟨"proj", none, none⟩).toOption.map (·.files) =
      some [⟨"a.py", "py"⟩, ⟨"b.py", "py"⟩] := by decide +kernel
  have hread : callingProject.readLossy (Path.join "proj" "b.py") = .ok "def g():\n    pass\n" := by
    decide +kernel
  have hsize : callingProject.size (Path.join "proj" "b.py") = .ok 18 := by decide +kernel
  obtain ⟨⟨answers, hanalyzes⟩, hall⟩ :=
    analyze_keeps_identity (ofConfig {}) callingProject ⟨"proj", none, none⟩
  obtain ⟨a, ha⟩ :=
    analyze_of_find (e := ofConfig {}) (d := callingProject) (r := ⟨"proj", none, none⟩)
      (by decide +kernel)
  rw [ha] at hanalyzes
  obtain ⟨found, hok, hkeys, _, hrecords⟩ := hall answers a _ hanalyzes
  have hfiles : found.files = [⟨"a.py", "py"⟩, ⟨"b.py", "py"⟩] := by
    simpa [hok, Except.toOption] using hfind
  obtain ⟨answer, m, _, hentry, hm⟩ := hrecords 1 ⟨"b.py", "py"⟩ (by rw [hfiles]; rfl)
  have hsmall : 18 ≤ ({} : Config).scanning.maxFileSize := by decide
  refine ⟨a, m, ha, by rw [hkeys, hfiles]; rfl, hentry, hm.id,
    hm.hashed.mpr ⟨rfl, ⟨18, hsize, hsmall⟩, ?_⟩⟩
  intro why hwhy
  cases hread.symm.trans (hm.unreadable why hwhy)

end Engine

end CodeAtlas
