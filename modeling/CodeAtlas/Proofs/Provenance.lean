import CodeAtlas.Proofs.PathOrder
import CodeAtlas.Proofs.Reading

/-! # Where a text comes from

A job gets its text from those that are kept, or from disk. While files stay as
they are, what is kept is what was kept at first or is on disk, whatever the
order of steps and whichever text goes to make room. Texts are kept by the
components of a path, so this rests on two spellings of a path, both ending in
a name, leading to one file. -/
namespace CodeAtlas

open CodeAtlas.Path

/-- Every text is one of those kept at first, or the one on disk for every path
to it that ends in a name. -/
def ContentCache.Drawn (c : ContentCache) (kept : List (List String × String)) (d : Disk) : Prop :=
  ∀ entry ∈ c.entries, entry ∈ kept ∨
    ∀ path, EndsInName path → components path = entry.1 → d.readLossy path = .ok entry.2

theorem ContentCache.drawn_entries (c : ContentCache) (d : Disk) : c.Drawn c.entries d :=
  fun _ hentry => .inl hentry

namespace Job

variable {d : Disk} {c c' : ContentCache} {kept : List (List String × String)} {job job' : Job}

/-- What the job has read was kept at first, or is on disk. -/
def Drawn (kept : List (List String × String)) (d : Disk) : Job → Prop
  | .fetched file text => d.readLossy file = .ok text
  | .done file (.ok text) => (components file, text) ∈ kept ∨ d.readLossy file = .ok text
  | .done file (.error why) => d.readLossy file = .error why
  | _ => True

/-- The path of the file ends in a name. -/
def Named (job : Job) : Prop := ∀ file, job.file? = some file → EndsInName file

theorem named_start {file : Option String} (h : ∀ path, file = some path → EndsInName path) :
    (start file).Named := by
  intro path hpath
  rw [file?_start] at hpath
  exact h path hpath

theorem Step.named (h : Step d c job c' job') (hname : job.Named) : job'.Named := by
  intro file hfile
  rw [h.file?_eq] at hfile
  exact hname file hfile

theorem Step.drawn (h : Step d c job c' job') (hc : c.Drawn kept d) (hjob : job.Drawn kept d)
    (hname : job.Named) : c'.Drawn kept d ∧ job'.Drawn kept d := by
  cases h with
  | @hit file text hpeek =>
    have htext := hc _ (ContentCache.mem_of_peek hpeek)
    refine ⟨?_, htext.imp id fun hdisk => hdisk file (hname file rfl) rfl⟩
    intro entry hentry
    rcases ContentCache.mem_touch.mp hentry with rfl | ⟨hentry, _⟩
    · exact htext
    · exact hc entry hentry
  | miss _ => exact ⟨hc, trivial⟩
  | fetch hread => exact ⟨hc, hread⟩
  | fail hread => exact ⟨hc, hread⟩
  | @keep file text =>
    refine ⟨?_, .inr hjob⟩
    intro entry hentry
    rcases ContentCache.of_mem_store hentry with rfl | ⟨hentry, _⟩
    · -- another spelling of the path leads to the same file
      right
      intro path hpath hsteps
      rw [Disk.readLossy_congr (iff_of_true hpath (hname file rfl)) hsteps]
      exact hjob
    · exact hc entry hentry

/-- With nothing kept at first, a finished job has what is on disk. -/
theorem Drawn.answer?_eq (h : job.Drawn [] d) (hdone : job.Finished) :
    job.answer? = job.file?.map d.readLossy := by
  cases job with
  | unasked => rfl
  | done file answer =>
    cases answer with
    | ok text => exact congrArg some (h.resolve_left (List.not_mem_nil)).symm
    | error why => exact congrArg some (Eq.symm h)
  | _ => exact hdone.elim

end Job

namespace Pool

variable {d : Disk} {p q : Pool} {kept : List (List String × String)}

theorem Step.named (h : Step d p q) (hp : ∀ job ∈ p.jobs, job.Named) :
    ∀ job ∈ q.jobs, job.Named := by
  obtain ⟨job, hmem, job', _, hjob, hothers, _⟩ := h.exists_job
  intro other hother
  rcases hothers other hother with rfl | hother
  · exact hjob.named (hp job hmem)
  · exact hp other hother

/-- All that is kept and all that the jobs have read was kept at first, or is
on disk. -/
structure Drawn (p : Pool) (kept : List (List String × String)) (d : Disk) : Prop where
  cache : p.cache.Drawn kept d
  jobs : ∀ job ∈ p.jobs, job.Drawn kept d
  named : ∀ job ∈ p.jobs, job.Named

theorem Step.drawn (h : Step d p q) (hp : p.Drawn kept d) : q.Drawn kept d := by
  obtain ⟨job, hmem, job', _, hjob, hothers, _⟩ := h.exists_job
  obtain ⟨hcache, hdrawn⟩ := hjob.drawn hp.cache (hp.jobs job hmem) (hp.named job hmem)
  refine ⟨hcache, ?_, h.named hp.named⟩
  intro other hother
  rcases hothers other hother with rfl | hother
  · exact hdrawn
  · exact hp.jobs other hother

theorem Steps.drawn (h : Steps d p q) (hp : p.Drawn kept d) : q.Drawn kept d :=
  h.keeps (P := fun q => q.Drawn kept d) Step.drawn hp

end Pool

namespace Reads

variable {d : Disk} {cache cache' : ContentCache} {files : List (Option String)}
  {answers : List (Option (Except FileError String))} {kept : List (List String × String)}

theorem drawn (h : Reads d cache files answers cache') (hcache : cache.Drawn kept d)
    (hname : ∀ file ∈ files, ∀ path, file = some path → EndsInName path) : cache'.Drawn kept d ∧
      ∃ jobs : List Job, (∀ job ∈ jobs, job.Drawn kept d ∧ job.Finished) ∧
        jobs.map Job.file? = files ∧
        jobs.map Job.answer? = answers := by
  obtain ⟨jobs, hsteps, hfinished, rfl⟩ := h
  have hstart : Pool.Drawn ⟨cache, files.map .start⟩ kept d := by
    refine ⟨hcache, ?_, ?_⟩
    · intro job hjob
      obtain ⟨file, _, rfl⟩ := List.mem_map.mp hjob
      cases file <;> trivial
    · intro job hjob
      obtain ⟨file, hfile, rfl⟩ := List.mem_map.mp hjob
      exact Job.named_start (hname file hfile)
  have hend := hsteps.drawn hstart
  exact ⟨hend.cache, jobs, fun job hjob => ⟨hend.jobs job hjob, hfinished job hjob⟩,
    files_of_jobs hsteps, rfl⟩

/-- Where all texts that are kept are on disk, every file has the answer of the disk. -/
theorem on_disk (h : Reads d cache files answers cache') (hcache : cache.Drawn [] d)
    (hname : ∀ file ∈ files, ∀ path, file = some path → EndsInName path) :
    answers = files.map (Option.map d.readLossy) ∧ cache'.Drawn [] d := by
  obtain ⟨hdrawn, jobs, hjobs, rfl, rfl⟩ := h.drawn hcache hname
  refine ⟨?_, hdrawn⟩
  rw [List.map_map]
  apply List.map_congr_left
  intro job hjob
  exact (hjobs job hjob).1.answer?_eq (hjobs job hjob).2

/-- A file has an answer if it is asked for: an error of the disk, or a text
kept at first or on disk. -/
theorem answer_of_file (h : Reads d cache files answers cache')
    (hname : ∀ file ∈ files, ∀ path, file = some path → EndsInName path) {i : Nat}
    {file : Option String} (hfile : files[i]? = some file) :
    ∃ answer, answers[i]? = some answer ∧ answer.isSome = file.isSome ∧
      ∀ path, file = some path →
        (∀ text, answer = some (.ok text) → (components path, text) ∈ cache.entries ∨
          d.readLossy path = .ok text) ∧
        ∀ why, answer = some (.error why) → d.readLossy path = .error why := by
  obtain ⟨_, jobs, hjobs, rfl, rfl⟩ := h.drawn (cache.drawn_entries d) hname
  rw [List.getElem?_map, Option.map_eq_some_iff] at hfile
  obtain ⟨job, hjob, rfl⟩ := hfile
  obtain ⟨hdrawn, hfinished⟩ := hjobs job (List.mem_of_getElem? hjob)
  refine ⟨job.answer?, by simp [hjob], hfinished.isSome_answer?, ?_⟩
  cases job with
  | done path answer =>
    rintro _ ⟨⟩
    constructor
    · rintro text ⟨⟩
      exact hdrawn
    · rintro why ⟨⟩
      exact hdrawn
  | unasked => rintro _ ⟨⟩
  | _ => exact hfinished.elim

end Reads

/-! ## Paths of modules -/

theorem Scan.mem_assemble {c : Context} {ms : List ModuleRecord}
    {answers : List (Option (Except FileError String))} {m : ModuleRecord}
    (h : m ∈ (assemble c ms answers).values) : ∃ m₀ ∈ ms, Outcome c m₀ m := by
  obtain ⟨k, hk⟩ := Dict.mem_values.mp h
  obtain ⟨m', hm', he⟩ := List.mem_map.mp (Dict.mem_of_get?_ofList hk)
  cases he
  obtain ⟨⟨m₀, answer⟩, hmem, rfl⟩ := List.mem_map.mp hm'
  exact ⟨m₀, (List.of_mem_zip hmem).1, filled_outcome c m₀ answer⟩

namespace Engine

variable {e e' : Engine} {d : Disk} {r : Request} {found : WalkOutcome}

theorem skeletons_named (h : e.find d r = .ok found) {m : ModuleRecord}
    (hm : m ∈ (e.skeletons found).values) : EndsInName m.path := by
  obtain ⟨k, hk⟩ := Dict.mem_values.mp hm
  obtain ⟨file, id, hmem, _, rfl⟩ := indexFiles_origin hk
  exact find_named h (List.fst_mem_of_mem_zipIdx hmem)

/-- The files that the first pass reads have paths that end in names. -/
theorem files_named (h : e.find d r = .ok found) :
    ∀ file ∈ (e.skeletons found).values.map (Scan.file? (e.scanContext d r found)),
      ∀ path, file = some path → EndsInName path := by
  intro file hfile path hpath
  obtain ⟨m, hm, rfl⟩ := List.mem_map.mp hfile
  unfold Scan.file? at hpath
  split at hpath
  · cases hpath
    exact endsInName_join.mpr (skeletons_named h hm)
  · cases hpath

/-- The modules of an analysis have paths that end in names. -/
theorem Analyzes.named {answers : List (Option (Except FileError String))} {a : Analysis}
    (h : e.Analyzes d r answers (.ok a) e') {m : ModuleRecord} (hm : m ∈ a.modules.values) :
    EndsInName m.path := by
  cases h with
  | finished hfind hreads =>
    obtain ⟨m₀, hm₀, ho⟩ := Scan.mem_assemble hm
    rw [ho.sameFile.path]
    exact skeletons_named hfind hm₀

end Engine

end CodeAtlas
