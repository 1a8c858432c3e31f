import CodeAtlas.Proofs.Identity
import CodeAtlas.Proofs.Retention

/-! # Both passes see one snapshot

With room for all texts that the first pass reads, they are all kept when it
ends. The second pass asks for files of those modules only whose texts were
understood, so it finds every text kept, the one that the record was filled
from, and never looks at the disk. Whatever happens to files between the
passes, its edges are the same. -/
namespace CodeAtlas

open CodeAtlas.Path

namespace Scan

/-- The record is what the first pass made of a text, which was the answer for
it and has the digest that is noted. -/
structure TakenFrom (c : Context) (skeletons : ModuleTable)
    (answer : Option (Except FileError String)) (text : String) (m : ModuleRecord) : Prop where
  answer : answer = some (.ok text)
  filled : ∃ m₀ ∈ skeletons.values, m = fillFrom c m₀ text
  digest : m.contentHash = some (Sha256.hexDigest text)

theorem exists_takenFrom {c : Context} {skeletons : ModuleTable}
    {answer : Option (Except FileError String)} {m₀ : ModuleRecord} (hm₀ : m₀ ∈ skeletons.values)
    (hunparsed : m₀.parsed = false) (hparsed : (Scan.filled c m₀ answer).parsed = true) :
    ∃ text, TakenFrom c skeletons answer text (Scan.filled c m₀ answer) := by
  match answer with
  | some (.ok text) => exact ⟨text, rfl, ⟨m₀, hm₀, rfl⟩, fillFrom_contentHash m₀ text⟩
  | some (.error _) | none => cases hunparsed.symm.trans hparsed

/-- A relation that holds of every filled record and its answer holds along the
table and the answers. -/
theorem forall₂_assemble {c : Context} {t : ModuleTable}
    {answers : List (Option (Except FileError String))}
    {R : ModuleRecord → Option (Except FileError String) → Prop} (ht : t.Scanned)
    (hlength : answers.length = t.values.length)
    (h : ∀ m answer, (m, answer) ∈ t.values.zip answers → R (Scan.filled c m answer) answer) :
    List.Forall₂ R (assemble c t.values answers).values answers := by
  rw [values_assemble ht hlength, fillAll, List.forall₂_map_left_iff]
  have hanswers : (t.values.zip answers).map Prod.snd = answers :=
    List.map_snd_zip (Nat.le_of_eq hlength)
  have hpairs :
      List.Forall₂ (fun x answer => R (Scan.filled c x.1 x.2) answer) (t.values.zip answers)
      ((t.values.zip answers).map Prod.snd) :=
    List.forall₂_map_right_iff.mpr (List.forall₂_same.mpr fun x hx => h x.1 x.2 hx)
  rwa [hanswers] at hpairs

end Scan

namespace Engine

/-! ## What earlier passes leave -/

/-- The engine is what passes leave of an engine that kept nothing at first.
Each of them is over a disk of its own, as its request or the caller wants,
and in any order of steps. -/
inductive Reachable : Engine → Prop
  | fresh (config : Config) : Reachable (ofConfig config)
  | analyzed {e e' : Engine} {d r answers outcome} : Reachable e →
      e.Analyzes d r answers outcome e' → Reachable e'
  | resolved {e e' : Engine} {d root a answers outcome} :
      Reachable e → e.Resolves d root a answers outcome e' → Reachable e'

variable {e e' : Engine} {d : Disk} {r : Request} {a : Analysis} {outcome : Except Error Analysis}
  {answers : List (Option (Except FileError String))}

/-- No path has two texts, and there is room for as many as the settings say. -/
theorem Reachable.cache_sound (h : e.Reachable) :
    e.cache.Distinct ∧ e.cache.capacity = e.config.performance.cacheSize := by
  induction h with
  | fresh config => exact ⟨List.nodup_nil, rfl⟩
  | analyzed _ hpass ih =>
    cases hpass with
    | failed _ => exact ih
    | finished _ hreads => exact ⟨hreads.distinct ih.1, hreads.capacity_eq.trans ih.2⟩
  | resolved _ hpass ih =>
    cases hpass with
    | failed _ => exact ih
    | finished _ hreads => exact ⟨hreads.distinct ih.1, hreads.capacity_eq.trans ih.2⟩

/-! ## The first pass keeps its texts -/

theorem skeletons_unparsed {found : WalkOutcome} {m : ModuleRecord}
    (hm : m ∈ (e.skeletons found).values) : m.parsed = false := by
  obtain ⟨k, hk⟩ := Dict.mem_values.mp hm
  obtain ⟨_, _, _, _, rfl⟩ := indexFiles_origin hk
  rfl

/-- The second pass will find a text for the module. -/
def Findable (cache : ContentCache) (root : String) (m : ModuleRecord) : Prop :=
  (Language.ofTag m.language).isSome = true ∧
    ∃ text, (components (join root m.path), text) ∈ cache.entries

/-- What the first pass makes of a skeleton and its answer, if it is
understood, is taken from a text, which is kept. -/
theorem exists_text_of_parsed {found : WalkOutcome} {cache : ContentCache}
    (hfind : e.find d r = .ok found)
    (hreads : Reads d e.cache
      ((e.skeletons found).values.map (Scan.file? (e.scanContext d r found))) answers cache)
    (hdistinct : e.cache.Distinct) (hroom : answers.countP (·.any (·.isOk)) ≤ e.cache.capacity)
    {m₀ : ModuleRecord} {answer : Option (Except FileError String)}
    (hpair : (m₀, answer) ∈ (e.skeletons found).values.zip answers)
    (hparsed : (Scan.filled (e.scanContext d r found) m₀ answer).parsed = true) :
    ∃ text, Scan.TakenFrom (e.scanContext d r found) (e.skeletons found) answer text
        (Scan.filled (e.scanContext d r found) m₀ answer) ∧
      (Language.ofTag m₀.language).isSome = true ∧
      (components (join r.root m₀.path), text) ∈ cache.entries := by
  have hm₀ := (List.of_mem_zip hpair).1
  obtain ⟨text, htaken⟩ := Scan.exists_takenFrom hm₀ (skeletons_unparsed hm₀) hparsed
  obtain rfl := htaken.answer
  have hread : (Scan.file? (e.scanContext d r found) m₀, some (.ok text)) ∈
      ((e.skeletons found).values.map (Scan.file? (e.scanContext d r found))).zip answers := by
    rw [List.zip_map_left]
    exact List.mem_map.mpr ⟨_, hpair, rfl⟩
  obtain ⟨path, hpath, hkept⟩ := hreads.all_kept hdistinct (files_named hfind) hroom hread
  unfold Scan.file? at hpath
  split at hpath
  · rename_i hwants
    cases hpath
    exact ⟨text, htaken, (Bool.and_eq_true_iff.mp hwants).1, hkept⟩
  · cases hpath

/-- Each record that is understood is taken from the text that is kept for it
when the pass ends. -/
theorem Analyzes.taken_from_kept (h : e.Analyzes d r answers (.ok a) e')
    (hdistinct : e.cache.Distinct) (hroom : answers.countP (·.any (·.isOk)) ≤ e.cache.capacity) :
    ∃ found, e.find d r = .ok found ∧
      (∀ m ∈ understood a, Findable e'.cache r.root m) ∧
      List.Forall₂ (fun m answer => m.parsed = true →
        Scan.TakenFrom (e.scanContext d r found)
          (e.skeletons found) answer (e'.cache.textOf (join r.root m.path)) m)
      a.modules.values answers := by
  cases h with
  | @finished found _ cache hfind hreads =>
    have hlength : answers.length = (e.skeletons found).values.length := by
      rw [hreads.length_eq, List.length_map]
    have hboth := Scan.forall₂_assemble (c := e.scanContext d r found) (R := fun m answer =>
        (m.parsed = true → Findable cache r.root m) ∧ (m.parsed = true →
          Scan.TakenFrom (e.scanContext d r found) (e.skeletons found) answer
            (cache.textOf (join r.root m.path)) m))
      (e.skeletons_scanned found) hlength ?_
    · obtain ⟨hfindable, htaken⟩ := (List.forall₂_and_left _ _).mp hboth
      refine ⟨found, hfind, ?_, htaken⟩
      intro m hm
      obtain ⟨hmem, hparsed⟩ := List.mem_filter.mp hm
      exact hfindable m hmem hparsed
    · intro m₀ answer hpair
      have hsame := (Scan.filled_outcome (e.scanContext d r found) m₀ answer).sameFile
      refine ⟨fun hparsed => ?_, fun hparsed => ?_⟩
      · obtain ⟨text, _, hlanguage, hkept⟩ :=
          exists_text_of_parsed hfind hreads hdistinct hroom hpair hparsed
        rw [Findable, hsame.language, hsame.path]
        exact ⟨hlanguage, text, hkept⟩
      · obtain ⟨text, htaken, _, hkept⟩ :=
          exists_text_of_parsed hfind hreads hdistinct hroom hpair hparsed
        rw [hsame.path, (hreads.distinct hdistinct).textOf_eq hkept]
        exact htaken

/-! ## The second pass finds them -/

/-- With the answers given, the disk does not matter. -/
theorem linked_eq (d d' : Disk) (root : String) (a : Analysis)
    (answers : List (Option (Except FileError String))) :
    linked d root a answers = linked d' root a answers := by
  have hedges : ∀ m answer, Link.edgesFrom (linkContext d root a) m answer =
      Link.edgesFrom (linkContext d' root a) m answer := by
    intro m answer
    match answer with
    | none | some (.error _) | some (.ok _) => rfl
  simp only [linked, Link.assemble, Link.edgesAll, hedges]

/-- The texts that are kept for the modules that were understood. -/
def keptTexts (cache : ContentCache) (root : String) (a : Analysis) :
    List (Option (Except FileError String)) :=
  (understood a).map fun m => some (.ok (cache.textOf (join root m.path)))

/-- Where a text is kept for every module that was understood, the second pass
takes calls from those texts, whatever is on disk. -/
theorem Resolves.from_kept {root : String} {place : List String}
    (h : e.Resolves d root a answers outcome e') (hroot : d.root root = .ok place)
    (hdistinct : e.cache.Distinct) (hfindable : ∀ m ∈ understood a, Findable e.cache root m) :
    answers = keptTexts e.cache root a ∧ outcome = .ok (linked d root a answers) := by
  obtain ⟨houtcome, _, _, hreads⟩ := h.of_root hroot
  refine ⟨?_, houtcome⟩
  have hfile : ∀ m ∈ understood a, Link.file? (linkContext d root a) m =
      some (join root m.path) := by
    intro m hm
    rw [Link.file?, if_pos (hfindable m hm).1]
    rfl
  have hkept : ∀ file ∈ asked d root a, ∀ path, file = some path →
      ∃ text, (components path, text) ∈ e.cache.entries := by
    intro file hmem path hpath
    obtain ⟨m, hm, rfl⟩ := List.mem_map.mp hmem
    rw [hfile m hm] at hpath
    cases hpath
    exact (hfindable m hm).2
  rw [hreads.all_from_kept hdistinct hkept, asked, List.map_map]
  apply List.map_congr_left
  intro m hm
  simp only [Function.comp_apply, hfile m hm, Option.map_some]

/-- **Both passes see one snapshot.** Take an engine that earlier passes left,
whatever it keeps, and let the first pass succeed, in any order of steps, with
room for as many texts as it read. Then each record that was understood was
filled from some text. And when files are changed at will, but so that the root
stays a directory, the second pass takes the calls of each module from that
very text, in any order of steps, and succeeds with the same edges as on the
disk of the first pass. -/
theorem resolveCalls_sees_snapshot {e : Engine} (he : e.Reachable) (d : Disk) (r : Request) :
    (∃ answers, e.Analyzes d r answers (e.analyze d r).1 (e.analyze d r).2) ∧
      ∀ answers a e', e.Analyzes d r answers (.ok a) e' →
        answers.countP (·.any (·.isOk)) ≤ e.config.performance.cacheSize →
        ∃ (found : WalkOutcome) (text : String → String) (b : Analysis), e.find d r = .ok found ∧
          List.Forall₂ (fun m answer => m.parsed = true →
            Scan.TakenFrom (e.scanContext d r found) (e.skeletons found) answer (text m.path) m)
            a.modules.values answers ∧
          (e'.resolveCalls d r.root a).1 = .ok b ∧
          ∀ later : Disk, later.isDirectory r.root = true →
            (e'.resolveCalls later r.root a).1 = .ok b ∧
            ∀ again outcome e'', e'.Resolves later r.root a again outcome e'' →
              outcome = .ok b ∧ again = (understood a).map fun m => some (.ok (text m.path)) := by
  refine ⟨e.analyze_analyzes d r, ?_⟩
  intro answers a e' hscan hroom
  have hdistinct : e'.cache.Distinct := (he.analyzed hscan).cache_sound.1
  obtain ⟨hbefore, hcapacity⟩ := he.cache_sound
  obtain ⟨found, hfind, hfindable, htaken⟩ := hscan.taken_from_kept hbefore (hcapacity ▸ hroom)
  obtain ⟨place, _, hplace, _⟩ := find_eq_ok_iff.mp hfind
  -- the second pass has one outcome, on every disk with a directory at the root
  have hsecond : ∀ {later : Disk} {place}, later.root r.root = .ok place → ∀ {again outcome e''},
      e'.Resolves later r.root a again outcome e'' →
      outcome = .ok (linked d r.root a (keptTexts e'.cache r.root a)) ∧
        again = keptTexts e'.cache r.root a := by
    intro later place hroot again outcome e'' h
    obtain ⟨rfl, houtcome⟩ := h.from_kept hroot hdistinct hfindable
    exact ⟨houtcome.trans (congrArg _ (linked_eq later d r.root a _)), rfl⟩
  have hresolve : ∀ {later : Disk} {place}, later.root r.root = .ok place →
      (e'.resolveCalls later r.root a).1 =
        .ok (linked d r.root a (keptTexts e'.cache r.root a)) := by
    intro later place hroot
    obtain ⟨again, h⟩ := e'.resolveCalls_resolves later r.root a
    exact (hsecond hroot h).1
  refine ⟨found, fun path => e'.cache.textOf (join r.root path), _, hfind, htaken,
    hresolve hplace, ?_⟩
  intro later hdirectory
  obtain ⟨_, hroot⟩ := Disk.root_of_isDirectory hdirectory
  exact ⟨hresolve hroot, fun again outcome e'' h => hsecond hroot h⟩

theorem Analyzes.config_eq (h : e.Analyzes d r answers outcome e') : e'.config = e.config := by
  cases h <;> rfl

/-- There are as many answers as files. -/
theorem Analyzes.length_eq {found : WalkOutcome} (h : e.Analyzes d r answers (.ok a) e')
    (hfind : e.find d r = .ok found) : answers.length = found.files.length := by
  cases h with
  | finished hfound hreads =>
    cases hfound.symm.trans hfind
    have hkeys := congrArg List.length (skeletons_keys hfind)
    rw [hreads.length_eq, List.length_map]
    simpa [Dict.keys, Dict.values] using hkeys

/-- The project before its first module called the second. -/
def uncallingProject : Disk where
  entries :=
    .ofList [("proj", .directory), ("proj/a.py", .file "def f():\n    f()\n".toUTF8.toList),
    ("proj/b.py", .file "def g():\n    pass\n".toUTF8.toList)]

/-- Settings with room for two texts. -/
def twoTexts : Config := { performance := { cacheSize := 2 } }

/-- There is room for just the texts of two files, and an earlier pass has left
texts for both, one of them by now another one than that on disk. When the
files go away between the passes, the edges are the same. -/
theorem resolveCalls_sees_cleared_files :
    ∃ a b,
      (((ofConfig twoTexts).analyze uncallingProject ⟨"proj", none, none⟩).2.analyze callingProject
        ⟨"proj", none, none⟩).1 = .ok a ∧
      clearedProject.isDirectory "proj" = true ∧
      ((((ofConfig twoTexts).analyze uncallingProject ⟨"proj", none, none⟩).2.analyze callingProject
        ⟨"proj", none, none⟩).2.resolveCalls callingProject "proj" a).1 = .ok b ∧
      ((((ofConfig twoTexts).analyze uncallingProject ⟨"proj", none, none⟩).2.analyze callingProject
        ⟨"proj", none, none⟩).2.resolveCalls clearedProject "proj" a).1 = .ok b := by
  obtain ⟨earlier, hearlier⟩ :=
    (ofConfig twoTexts).analyze_analyzes uncallingProject ⟨"proj", none, none⟩
  have hconfig := hearlier.config_eq
  have he := Reachable.analyzed (.fresh twoTexts) hearlier
  generalize ((ofConfig twoTexts).analyze uncallingProject ⟨"proj", none, none⟩).2 = e at hconfig he
  have hfind : (e.find callingProject ⟨"proj", none, none⟩).toOption.map (·.files.length) =
      some 2 := by
    unfold find
    rw [hconfig]
    decide +kernel
  have hroot : clearedProject.isDirectory "proj" = true := by decide +kernel
  obtain ⟨found, hfound⟩ : ∃ found, e.find callingProject ⟨"proj", none, none⟩ = .ok found := by
    cases hf : e.find callingProject ⟨"proj", none, none⟩ with
    | error cause => simp [hf, Except.toOption] at hfind
    | ok found => exact ⟨found, rfl⟩
  obtain ⟨a, ha⟩ :=
    analyze_of_find (e := e) (d := callingProject) (r := ⟨"proj", none, none⟩) (by rw [hfound]; rfl)
  obtain ⟨⟨answers, hanalyzes⟩, hall⟩ :=
    resolveCalls_sees_snapshot he callingProject ⟨"proj", none, none⟩
  rw [ha] at hanalyzes
  have hroom : answers.countP (·.any (·.isOk)) ≤ e.config.performance.cacheSize := by
    have hlength : answers.length = 2 := by
      rw [hanalyzes.length_eq hfound]
      simpa [hfound, Except.toOption] using hfind
    have hsize : (ofConfig twoTexts).config.performance.cacheSize = 2 := rfl
    rw [hconfig, hsize, ← hlength]
    exact List.countP_le_length
  obtain ⟨_, _, b, _, _, hb, hlater⟩ := hall answers a _ hanalyzes hroom
  exact ⟨a, b, ha, hroot, hb, (hlater clearedProject hroot).1⟩

end Engine

end CodeAtlas
