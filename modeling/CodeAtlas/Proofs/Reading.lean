import CodeAtlas.Proofs.Linked
import CodeAtlas.Proofs.Places
import Mathlib.Logic.Relation

/-! # Files read by several workers

Both passes read at most one file for each module, through texts that all
workers share. Looking a text up and keeping one are each done at once, and
between the two a file is read from disk while other workers go on. A pool
holds one job for each module, and it goes on by a step of any one job. No job
waits for another and nothing bounds the number of jobs under way, so whatever
the number of workers and however modules are handed to them, a pass is some
sequence of such steps. Reading one file after the other is one of them, and it
is what the passes of the engine do. -/
namespace CodeAtlas

/-! ## Texts that are kept -/

namespace ContentCache

variable {c : ContentCache} {k : List String} {text : String}

/-- No path has two texts. -/
def Distinct (c : ContentCache) : Prop := (c.entries.map (·.1)).Nodup

theorem mem_of_peek (h : c.peek k = some text) : (k, text) ∈ c.entries := by
  obtain ⟨front, back, he, _⟩ := List.lookup_eq_some_iff.mp h
  simp [he]

theorem not_mem_of_peek_none (h : c.peek k = none) : (k, text) ∉ c.entries := by
  intro hmem
  simpa using List.lookup_eq_none_iff.mp h (k, text) hmem

theorem Distinct.eq_of_mem {text' : String} (h : c.Distinct) (hmem : (k, text) ∈ c.entries)
    (hmem' : (k, text') ∈ c.entries) : text = text' :=
  congrArg Prod.snd (List.inj_on_of_nodup_map h hmem hmem' rfl)

theorem Distinct.peek_of_mem (h : c.Distinct) (hmem : (k, text) ∈ c.entries) :
    c.peek k = some text := by
  cases hp : c.peek k with
  | none => exact absurd hmem (not_mem_of_peek_none hp)
  | some text' => rw [h.eq_of_mem hmem (mem_of_peek hp)]

theorem mem_others {e : List String × String} : e ∈ c.others k ↔ e ∈ c.entries ∧ e.1 ≠ k := by
  simp [others]

theorem mem_touch {e : List String × String} :
    e ∈ (c.touch k text).entries ↔ e = (k, text) ∨ (e ∈ c.entries ∧ e.1 ≠ k) := by
  simp [touch, mem_others]

theorem of_mem_store {e : List String × String} (h : e ∈ (c.store k text).entries) :
    e = (k, text) ∨ (e ∈ c.entries ∧ e.1 ≠ k) := by
  rcases List.mem_cons.mp (List.mem_of_mem_take h) with rfl | h
  · exact .inl rfl
  · exact .inr (mem_others.mp h)

theorem Distinct.touch (h : c.Distinct) (k : List String) (text : String) :
    (c.touch k text).Distinct := by
  refine List.nodup_cons.mpr ⟨?_, h.sublist (List.filter_sublist.map _)⟩
  intro hmem
  obtain ⟨e, he, hk⟩ := List.mem_map.mp hmem
  exact (mem_others.mp he).2 hk

theorem Distinct.store (h : c.Distinct) (k : List String) (text : String) :
    (c.store k text).Distinct :=
  (h.touch k text).sublist ((List.take_sublist _ _).map _)

end ContentCache

open CodeAtlas.Path

/-! ## Jobs and pools -/

/-- The reading of the file of one module, as far as it has come. -/
inductive Job where
  /-- There is no file to read. -/
  | unasked
  | waiting (file : String)
  /-- No text is kept for the file. -/
  | missed (file : String)
  /-- The text is read, and will be kept next. -/
  | fetched (file text : String)
  | done (file : String) (answer : Except FileError String)

namespace Job

def start : Option String → Job
  | none => .unasked
  | some file => .waiting file

def file? : Job → Option String
  | .unasked => none
  | .waiting file | .missed file | .fetched file _ | .done file _ => some file

def Finished : Job → Prop
  | .unasked | .done _ _ => True
  | _ => False

/-- What a finished job has read. -/
def answer? : Job → Option (Except FileError String)
  | .done _ answer => some answer
  | _ => none

/-- What a job does at once, with the texts kept before and after it. -/
inductive Step (d : Disk) : ContentCache → Job → ContentCache → Job → Prop
  | hit {c file text} : c.peek (components file) = some text →
      Step d c (.waiting file) (c.touch (components file) text) (.done file (.ok text))
  | miss {c file} : c.peek (components file) = none → Step d c (.waiting file) c (.missed file)
  | fetch {c file text} : d.readLossy file = .ok text →
      Step d c (.missed file) c (.fetched file text)
  | fail {c file why} : d.readLossy file = .error why →
      Step d c (.missed file) c (.done file (.error why))
  | keep {c file text} :
      Step d c (.fetched file text) (c.store (components file) text) (.done file (.ok text))

variable {d : Disk} {c c' : ContentCache} {job job' : Job}

theorem file?_start (file : Option String) : (start file).file? = file := by
  cases file <;> rfl

theorem Step.file?_eq (h : Step d c job c' job') : job'.file? = job.file? := by
  cases h <;> rfl

theorem Finished.isSome_answer? (h : job.Finished) : job.answer?.isSome = job.file?.isSome := by
  cases job with
  | unasked => rfl
  | done file answer => rfl
  | _ => exact h.elim

theorem Step.distinct (h : Step d c job c' job') (hc : c.Distinct) : c'.Distinct := by
  cases h with
  | hit _ => exact hc.touch _ _
  | miss _ => exact hc
  | fetch _ => exact hc
  | fail _ => exact hc
  | keep => exact hc.store _ _

theorem Step.capacity_eq (h : Step d c job c' job') : c'.capacity = c.capacity := by
  cases h <;> rfl

end Job

/-- The jobs of a pass, and the texts that they share. -/
structure Pool where
  cache : ContentCache
  jobs : List Job

namespace Pool

/-- One job of the pool takes a step. -/
inductive Step (d : Disk) : Pool → Pool → Prop
  | job {c c' : ContentCache} {job job' : Job} (front back : List Job) :
      Job.Step d c job c' job' → Step d ⟨c, front ++ job :: back⟩ ⟨c', front ++ job' :: back⟩

/-- Jobs of the pool take any number of steps, in any order. -/
abbrev Steps (d : Disk) : Pool → Pool → Prop := Relation.ReflTransGen (Step d)

variable {d : Disk} {p q : Pool}

/-- One job takes the step, and the others stay. -/
theorem Step.exists_job (h : Step d p q) :
    ∃ job ∈ p.jobs, ∃ job' ∈ q.jobs, Job.Step d p.cache job q.cache job' ∧
    (∀ other ∈ q.jobs, other = job' ∨ other ∈ p.jobs) ∧ ∀ other ∈ p.jobs, other = job ∨
      other ∈ q.jobs := by
  cases h with
  | @job c c' job job' front back hjob =>
    refine ⟨job, by simp, job', by simp, hjob, ?_, ?_⟩
    · intro other hother
      rcases List.mem_append.mp hother with hother | hother
      · exact .inr (List.mem_append_left _ hother)
      · exact (List.mem_cons.mp hother).imp id fun hother => by simp [hother]
    · intro other hother
      rcases List.mem_append.mp hother with hother | hother
      · exact .inr (List.mem_append_left _ hother)
      · exact (List.mem_cons.mp hother).imp id fun hother => by simp [hother]

/-- What every step keeps holds after all of them. -/
theorem Steps.keeps {P : Pool → Prop} (hstep : ∀ {p q}, Step d p q → P p → P q) (h : Steps d p q)
    (hp : P p) : P q := by
  induction h with
  | refl => exact hp
  | tail _ hlast ih => exact hstep hlast ih

theorem Steps.files_eq (h : Steps d p q) : q.jobs.map Job.file? = p.jobs.map Job.file? := by
  refine h.keeps (P := fun q => q.jobs.map Job.file? = p.jobs.map Job.file?) ?_ rfl
  intro q r hstep hq
  cases hstep with
  | job front back hjob => simpa [hjob.file?_eq] using hq

theorem Steps.distinct (h : Steps d p q) (hp : p.cache.Distinct) : q.cache.Distinct := by
  refine h.keeps (P := fun q => q.cache.Distinct) ?_ hp
  intro q r hstep hq
  cases hstep with
  | job front back hjob => exact hjob.distinct hq

theorem Steps.capacity_eq (h : Steps d p q) : q.cache.capacity = p.cache.capacity := by
  refine h.keeps (P := fun q => q.cache.capacity = p.cache.capacity) ?_ rfl
  intro q r hstep hq
  cases hstep with
  | job front back hjob => exact hjob.capacity_eq.trans hq

end Pool

/-- Some sequence of steps reads these files, with an answer for each file, and
keeps these texts in the end. -/
def Reads (d : Disk) (cache : ContentCache) (files : List (Option String))
    (answers : List (Option (Except FileError String))) (cache' : ContentCache) : Prop :=
  ∃ jobs : List Job, Pool.Steps d ⟨cache, files.map .start⟩ ⟨cache', jobs⟩ ∧
    (∀ job ∈ jobs, job.Finished) ∧
    jobs.map Job.answer? = answers

namespace Reads

variable {d : Disk} {cache cache' : ContentCache} {files : List (Option String)}
  {answers : List (Option (Except FileError String))}

theorem files_of_jobs {jobs : List Job}
    (h : Pool.Steps d ⟨cache, files.map .start⟩ ⟨cache', jobs⟩) : jobs.map Job.file? = files := by
  rw [h.files_eq, List.map_map]
  have hid : Job.file? ∘ Job.start = id := funext Job.file?_start
  rw [hid, List.map_id]

theorem length_eq (h : Reads d cache files answers cache') : answers.length = files.length := by
  obtain ⟨jobs, hsteps, _, rfl⟩ := h
  rw [List.length_map, ← files_of_jobs hsteps, List.length_map]

theorem distinct (h : Reads d cache files answers cache') (hc : cache.Distinct) :
    cache'.Distinct := by
  obtain ⟨jobs, hsteps, _⟩ := h
  exact hsteps.distinct hc

theorem capacity_eq (h : Reads d cache files answers cache') :
    cache'.capacity = cache.capacity := by
  obtain ⟨jobs, hsteps, _⟩ := h
  exact hsteps.capacity_eq

end Reads

/-! ## One file after the other -/

namespace ContentCache

/-- Read files one after the other. -/
def readAll (d : Disk) :
    ContentCache → List (Option String) → List (Option (Except FileError String)) × ContentCache
  | cache, [] => ([], cache)
  | cache, none :: rest =>
    let (answers, cache) := readAll d cache rest
    (none :: answers, cache)
  | cache, some file :: rest =>
    let (answer, cache) := cache.read d file
    let (answers, cache) := readAll d cache rest
    (some answer :: answers, cache)

/-- To read a file is to take the steps of its job with no other job between them. -/
theorem read_steps (d : Disk) (cache : ContentCache) (file : String) (front back : List Job) :
    Pool.Steps d ⟨cache, front ++ .waiting file :: back⟩
      ⟨(cache.read d file).2, front ++ .done file (cache.read d file).1 :: back⟩ := by
  cases hpeek : cache.peek (components file) with
  | some text =>
    simp only [ContentCache.read, hpeek]
    exact .single (.job front back (.hit hpeek))
  | none =>
    have hmissed := Pool.Step.job front back (Job.Step.miss (d := d) hpeek)
    cases hread : d.readLossy file with
    | ok text =>
      simp only [ContentCache.read, hpeek, hread]
      exact ((Relation.ReflTransGen.single hmissed).tail (.job front back (.fetch hread))).tail
        (.job front back .keep)
    | error why =>
      simp only [ContentCache.read, hpeek, hread]
      exact (Relation.ReflTransGen.single hmissed).tail (.job front back (.fail hread))

theorem readAll_steps (d : Disk) (cache : ContentCache) (files : List (Option String))
    (front : List Job) :
    ∃ jobs : List Job, Pool.Steps d ⟨cache, front ++ files.map .start⟩ ⟨(cache.readAll d files).2,
      front ++ jobs⟩ ∧
      (∀ job ∈ jobs, job.Finished) ∧ jobs.map Job.answer? = (cache.readAll d files).1 := by
  induction files generalizing cache front with
  | nil => exact ⟨[], .refl, by simp, rfl⟩
  | cons file? rest ih =>
    -- the first job is brought to its end, and then stands in front of the others
    cases file? with
    | none =>
      obtain ⟨jobs, hsteps, hfinished, hanswers⟩ := ih cache (front ++ [.unasked])
      refine ⟨.unasked :: jobs, by simpa [readAll, Job.start] using hsteps,
        ?_, by simp [readAll, Job.answer?, hanswers]⟩
      exact List.forall_mem_cons.mpr ⟨trivial, hfinished⟩
    | some file =>
      obtain ⟨jobs, hsteps, hfinished, hanswers⟩ :=
        ih (cache.read d file).2 (front ++ [.done file (cache.read d file).1])
      refine ⟨.done file (cache.read d file).1 :: jobs, ?_,
        ?_, by simp [readAll, Job.answer?, hanswers]⟩
      · refine (read_steps d cache file front (rest.map .start)).trans ?_
        simpa [readAll] using hsteps
      · exact List.forall_mem_cons.mpr ⟨trivial, hfinished⟩

theorem readAll_reads (d : Disk) (cache : ContentCache) (files : List (Option String)) :
    Reads d cache files (cache.readAll d files).1 (cache.readAll d files).2 :=
  readAll_steps d cache files []

end ContentCache

/-! ## The passes of the engine -/

namespace Scan

/-- The file that the first pass reads for a module. -/
def file? (c : Context) (m : ModuleRecord) : Option String :=
  if wants c m then some (Path.join c.root m.path) else none

/-- What the first pass makes of a module and of what it read. -/
def filled (c : Context) (m : ModuleRecord) : Option (Except FileError String) → ModuleRecord
  | some (.ok text) => fillFrom c m text
  | _ => m

/-- The modules with what was read for each. -/
def fillAll (c : Context) (ms : List ModuleRecord)
    (answers : List (Option (Except FileError String))) : List ModuleRecord :=
  (ms.zip answers).map fun x => filled c x.1 x.2

/-- The table of modules with what was read for each. -/
def assemble (c : Context) (ms : List ModuleRecord)
    (answers : List (Option (Except FileError String))) : ModuleTable :=
  .ofList ((fillAll c ms answers).map fun m => (m.path, m))

theorem filled_outcome (c : Context) (m : ModuleRecord)
    (answer : Option (Except FileError String)) : Outcome c m (filled c m answer) := by
  unfold filled
  split
  · exact .filled _
  · exact .kept

theorem modules_eq (c : Context) (cache : ContentCache) (ms : List ModuleRecord) :
    modules c cache ms = (fillAll c ms (cache.readAll c.disk (ms.map (file? c))).1,
      (cache.readAll c.disk (ms.map (file? c))).2) := by
  unfold fillAll
  induction ms generalizing cache with
  | nil => rfl
  | cons m rest ih =>
    simp only [modules, List.map_cons, ih]
    by_cases hw : wants c m = true
    · simp only [module, file?, hw, if_true, ContentCache.readAll, List.zip_cons_cons,
        List.map_cons]
      cases hread : cache.read c.disk (Path.join c.root m.path) with
      | mk answer cache' => cases answer <;> simp [filled]
    · simp [module, file?, hw, ContentCache.readAll, filled]

end Scan

namespace Link

/-- The file that the second pass reads for a module. -/
def file? (c : Context) (m : ModuleRecord) : Option String :=
  if (Language.ofTag m.language).isSome then some (Path.join c.root m.path) else none

/-- The edges of a module by what was read for it. -/
def edgesFrom (c : Context) (m : ModuleRecord) : Option (Except FileError String) → List CallEdge
  | some (.ok text) => edgesIn c m text
  | _ => []

/-- The edges of modules by what was read for each, with the paths of the
modules. -/
def edgesAll (c : Context) (ms : List ModuleRecord)
    (answers : List (Option (Except FileError String))) : List (String × List CallEdge) :=
  (ms.zip answers).map fun x => (x.1.path, edgesFrom c x.1 x.2)

/-- The table with the edges of modules by what was read for each. -/
def assemble (c : Context) (t : ModuleTable) (ms : List ModuleRecord)
    (answers : List (Option (Except FileError String))) : ModuleTable :=
  (edgesAll c ms answers).foldl (fun t e => attach t e.1 e.2) t

theorem modules_eq (c : Context) (cache : ContentCache) (ms : List ModuleRecord) :
    modules c cache ms = (edgesAll c ms (cache.readAll c.disk (ms.map (file? c))).1,
      (cache.readAll c.disk (ms.map (file? c))).2) := by
  unfold edgesAll
  induction ms generalizing cache with
  | nil => rfl
  | cons m rest ih =>
    simp only [modules, List.map_cons, ih]
    by_cases hl : (Language.ofTag m.language).isSome = true
    · simp only [module, file?, hl, if_true, ContentCache.readAll, List.zip_cons_cons,
        List.map_cons]
      cases hread : cache.read c.disk (Path.join c.root m.path) with
      | mk answer cache' => cases answer <;> simp [edgesFrom]
    · simp [module, file?, hl, ContentCache.readAll, edgesFrom]

end Link

namespace Engine

/-- The records that the first pass starts with. -/
def skeletons (e : Engine) (found : WalkOutcome) : ModuleTable :=
  indexFiles e.config.heuristics found.files

/-- What the first pass knows of a request. -/
def scanContext (e : Engine) (d : Disk) (r : Request) (found : WalkOutcome) : Scan.Context :=
  ⟨e.config, .build (e.skeletons found), d, r.root⟩

/-- What the second pass knows of an analysis. -/
def linkContext (d : Disk) (root : String) (a : Analysis) : Link.Context :=
  ⟨.ofModules a.modules, d, root⟩

/-- The modules that the second pass goes over. -/
def understood (a : Analysis) : List ModuleRecord := a.modules.values.filter (·.parsed)

/-- The files that the second pass asks for, module by module. -/
def asked (d : Disk) (root : String) (a : Analysis) : List (Option String) :=
  (understood a).map (Link.file? (linkContext d root a))

/-- What the second pass makes of answers for the modules that were understood. -/
def linked (d : Disk) (root : String) (a : Analysis)
    (answers : List (Option (Except FileError String))) : Analysis :=
  { a with modules := Link.assemble (linkContext d root a) a.modules (understood a) answers }

/-- What the first pass can return, with what it read for each module, when its
files are read in any order of steps. -/
inductive Analyzes (e : Engine) (d : Disk) (r : Request) :
    List (Option (Except FileError String)) → Except Error Analysis → Engine → Prop
  | failed {cause : Error} : e.find d r = .error cause → Analyzes e d r [] (.error cause) e
  | finished {found : WalkOutcome} {answers : List (Option (Except FileError String))}
      {cache : ContentCache} :
      e.find d r = .ok found →
      Reads d e.cache ((e.skeletons found).values.map (Scan.file? (e.scanContext d r found)))
        answers cache →
      Analyzes e d r answers
        (.ok ⟨Scan.assemble (e.scanContext d r found) (e.skeletons found).values answers,
          found.languages⟩)
        { e with cache }

/-- What the second pass can return, with what it read for each module, when
its files are read in any order of steps. -/
inductive Resolves (e : Engine) (d : Disk) (root : String) (a : Analysis) :
    List (Option (Except FileError String)) → Except Error Analysis → Engine → Prop
  | failed {why : RootError} : d.root root = .error why →
      Resolves e d root a [] (.error (.root why)) e
  | finished {place : List String} {answers : List (Option (Except FileError String))}
      {cache : ContentCache} :
      d.root root = .ok place →
      Reads d e.cache ((understood a).map (Link.file? (linkContext d root a))) answers cache →
      Resolves e d root a answers
        (.ok { a with
          modules := Link.assemble (linkContext d root a) a.modules (understood a) answers })
        { e with cache }

/-- What both passes and the check can return when the files of each pass are
read in any order of steps. -/
inductive Runs (e : Engine) (d : Disk) (r : Request) : Except Error Analysis → Engine → Prop
  | unfound {answers cause e'} : Analyzes e d r answers (.error cause) e' →
      Runs e d r (.error cause) e'
  | unlinked {answers a e' answers' cause e''} : Analyzes e d r answers (.ok a) e' →
      Resolves e' d r.root a answers' (.error cause) e'' → Runs e d r (.error cause) e''
  | checked {answers a e' answers' b e''} : Analyzes e d r answers (.ok a) e' →
      Resolves e' d r.root a answers' (.ok b) e'' → Runs e d r (checked b) e''

variable (e : Engine) (d : Disk) (r : Request)

theorem analyze_analyzes :
    ∃ answers, e.Analyzes d r answers (e.analyze d r).1 (e.analyze d r).2 := by
  unfold analyze
  cases hfind : e.find d r with
  | error cause => exact ⟨[], .failed hfind⟩
  | ok found =>
    simp only [Scan.table, Scan.modules_eq]
    exact ⟨_, .finished hfind (ContentCache.readAll_reads _ _ _)⟩

theorem resolveCalls_resolves (root : String) (a : Analysis) :
    ∃ answers, e.Resolves d root a answers (e.resolveCalls d root a).1
      (e.resolveCalls d root a).2 := by
  unfold resolveCalls relink
  cases hroot : d.root root with
  | error why => exact ⟨[], .failed hroot⟩
  | ok place =>
    simp only [Link.table, Link.modules_eq]
    exact ⟨_, .finished hroot (ContentCache.readAll_reads _ _ _)⟩

theorem relink_of_root {root : String} {place : List String} (hroot : d.root root = .ok place)
    (a : Analysis) : e.relink d root a =
      (.ok (), linked d root a (e.cache.readAll d (asked d root a)).1,
        { e with cache := (e.cache.readAll d (asked d root a)).2 }) := by
  simp only [relink, hroot, Link.table, Link.modules_eq]
  rfl

theorem Resolves.of_root {e e' : Engine} {d : Disk} {root : String} {place : List String}
    {a : Analysis} {answers : List (Option (Except FileError String))}
    {outcome : Except Error Analysis} (h : e.Resolves d root a answers outcome e')
    (hroot : d.root root = .ok place) : outcome = .ok (linked d root a answers) ∧
      ∃ cache, e' = { e with cache } ∧ Reads d e.cache (asked d root a) answers cache := by
  cases h with
  | failed hfailed =>
    rw [hroot] at hfailed
    cases hfailed
  | finished _ hreads => exact ⟨rfl, _, rfl, hreads⟩

theorem run_runs : e.Runs d r (e.run d r).1 (e.run d r).2 := by
  obtain ⟨answers, hanalyzes⟩ := e.analyze_analyzes d r
  unfold run
  split
  · rename_i cause e' ha
    rw [ha] at hanalyzes
    exact .unfound hanalyzes
  · rename_i a e' ha
    rw [ha] at hanalyzes
    obtain ⟨answers', hresolves⟩ := e'.resolveCalls_resolves d r.root a
    split
    · rename_i cause e'' hb
      rw [hb] at hresolves
      exact .unlinked hanalyzes hresolves
    · rename_i b e'' hb
      rw [hb] at hresolves
      exact .checked hanalyzes hresolves

end Engine

end CodeAtlas
