import CodeAtlas.Proofs.Provenance

/-! # Settings of performance change no result

As long as files stay as they are, every text that is kept is the one on disk.
So a job gets what is on disk, whether it finds a text or reads it, and both
passes make of the files what they would make of the texts on disk. Nothing of
that depends on the number of workers, on the number of texts kept, or on the
order in which workers take their steps. -/
namespace CodeAtlas

open CodeAtlas.Path

/-! ## Jobs come to their ends -/

/-- A job can be brought to its end, wherever it stands. -/
theorem Job.exists_finish (d : Disk) (c : ContentCache) (job : Job) (front back : List Job) :
    ∃ c' job', Pool.Steps d ⟨c, front ++ job :: back⟩ ⟨c', front ++ job' :: back⟩ ∧
      job'.Finished := by
  cases job with
  | unasked => exact ⟨c, .unasked, .refl, trivial⟩
  | waiting file => exact ⟨_, _, ContentCache.read_steps d c file front back, trivial⟩
  | missed file =>
    cases hread : d.readLossy file with
    | ok text =>
      exact ⟨_, _, (Relation.ReflTransGen.single (.job front back (.fetch hread))).tail
        (.job front back .keep), trivial⟩
    | error why => exact ⟨_, _, .single (.job front back (.fail hread)), trivial⟩
  | fetched file text => exact ⟨_, _, .single (.job front back .keep), trivial⟩
  | done file answer => exact ⟨c, .done file answer, .refl, trivial⟩

/-- Whatever steps have been taken, all jobs can be brought to their ends. -/
theorem Pool.exists_finish (d : Disk) (c : ContentCache) (jobs front : List Job) :
    ∃ c' jobs', Steps d ⟨c, front ++ jobs⟩ ⟨c', front ++ jobs'⟩ ∧ ∀ job ∈ jobs', job.Finished := by
  induction jobs generalizing c front with
  | nil => exact ⟨c, [], .refl, by simp⟩
  | cons job rest ih =>
    obtain ⟨c₁, job', hfirst, hfinished⟩ := job.exists_finish d c front rest
    obtain ⟨c₂, rest', hrest, hfinished'⟩ := ih c₁ (front ++ [job'])
    refine ⟨c₂, job' :: rest', hfirst.trans (by simpa using hrest), ?_⟩
    exact List.forall_mem_cons.mpr ⟨hfinished, hfinished'⟩

/-! ## Both passes by the texts on disk -/

namespace Engine

variable {e e' : Engine} {d : Disk} {r : Request} {outcome : Except Error Analysis}
  {answers : List (Option (Except FileError String))}

/-- What the first pass makes of the texts on disk. -/
def scanOnDisk (e : Engine) (d : Disk) (r : Request) : Except Error Analysis :=
  (e.find d r).map fun found =>
    let c := e.scanContext d r found
    let ms := (e.skeletons found).values
    ⟨Scan.assemble c ms (ms.map fun m => (Scan.file? c m).map d.readLossy), found.languages⟩

/-- What the second pass makes of the texts on disk. -/
def linkOnDisk (d : Disk) (root : String) (a : Analysis) : Except Error Analysis :=
  ((d.root root).mapError .root).map fun _ =>
    let c := linkContext d root a
    let ms := understood a
    { a with modules := Link.assemble c a.modules ms (ms.map fun m =>
      (Link.file? c m).map d.readLossy) }

/-- What both passes and the check make of the texts on disk. -/
def runOnDisk (e : Engine) (d : Disk) (r : Request) : Except Error Analysis := do
  checked (← linkOnDisk d r.root (← e.scanOnDisk d r))

theorem Analyzes.on_disk (h : e.Analyzes d r answers outcome e') (hc : e.cache.Drawn [] d) :
    outcome = e.scanOnDisk d r ∧ e'.cache.Drawn [] d := by
  cases h with
  | failed hfind => exact ⟨by simp [scanOnDisk, hfind, Except.map], hc⟩
  | @finished found _ _ hfind hreads =>
    obtain ⟨hanswers, hdrawn⟩ := hreads.on_disk hc (files_named hfind)
    refine ⟨?_, hdrawn⟩
    rw [hanswers, List.map_map]
    simp only [scanOnDisk, hfind, Except.map]
    rfl

theorem Resolves.on_disk {root : String} {a : Analysis} (h : e.Resolves d root a answers outcome e')
    (hc : e.cache.Drawn [] d) (hnamed : ∀ m ∈ a.modules.values, EndsInName m.path) :
    outcome = linkOnDisk d root a ∧ e'.cache.Drawn [] d := by
  cases h with
  | failed hroot => exact ⟨by simp [linkOnDisk, hroot, Except.map, Except.mapError], hc⟩
  | finished hroot hreads =>
    have hnamed' : ∀ file ∈ (understood a).map (Link.file? (linkContext d root a)),
        ∀ path, file = some path → EndsInName path := by
      intro file hfile path hpath
      obtain ⟨m, hm, rfl⟩ := List.mem_map.mp hfile
      unfold Link.file? at hpath
      split at hpath
      · cases hpath
        exact endsInName_join.mpr (hnamed m (List.mem_filter.mp hm).1)
      · cases hpath
    obtain ⟨hanswers, hdrawn⟩ := hreads.on_disk hc hnamed'
    refine ⟨?_, hdrawn⟩
    rw [hanswers, List.map_map]
    simp only [linkOnDisk, hroot, Except.map, Except.mapError]
    rfl

/-- Whatever the order of steps, a run makes of the files what it would make of
the texts on disk. -/
theorem Runs.on_disk (h : e.Runs d r outcome e') (hc : e.cache.Drawn [] d) :
    outcome = e.runOnDisk d r := by
  cases h with
  | unfound hanalyzes =>
    obtain ⟨hscan, _⟩ := hanalyzes.on_disk hc
    simp [runOnDisk, ← hscan, bind, Except.bind]
  | unlinked hanalyzes hresolves =>
    obtain ⟨hscan, hc'⟩ := hanalyzes.on_disk hc
    obtain ⟨hlink, _⟩ := hresolves.on_disk hc' fun m => hanalyzes.named
    simp [runOnDisk, ← hscan, ← hlink, bind, Except.bind]
  | checked hanalyzes hresolves =>
    obtain ⟨hscan, hc'⟩ := hanalyzes.on_disk hc
    obtain ⟨hlink, _⟩ := hresolves.on_disk hc' fun m => hanalyzes.named
    simp [runOnDisk, ← hscan, ← hlink, bind, Except.bind]

theorem ofConfig_drawn (config : Config) (d : Disk) : (ofConfig config).cache.Drawn [] d := by
  intro entry hentry
  cases hentry

end Engine

/-- Settings with other numbers of workers, of texts kept, and of files below
which one thread does all. -/
def Config.tuned (c : Config) (maxWorkers cacheSize minFilesForParallel : Nat) : Config :=
  { c with performance := { c.performance with maxWorkers, cacheSize, minFilesForParallel } }

/-- **Settings of performance and the order of work are invisible.** Let
settings differ in the number of workers, of texts kept (possibly none) and of
files below which one thread does all. On any disk and for any request, a run
of an engine that keeps nothing yet has the same result or the same error with
both. Moreover, whatever the order in which jobs of either pass take their
steps, with any number under way at once, the outcome is that of reading one
file after the other; and no order of steps leads to where the jobs cannot be
finished. -/
theorem Engine.run_independent_of_performance (config : Config)
    (maxWorkers cacheSize minFilesForParallel : Nat) (d : Disk) (r : Request) :
    ((ofConfig (config.tuned maxWorkers cacheSize minFilesForParallel)).run d r).1 =
      ((ofConfig config).run d r).1 ∧
      (∀ outcome,
        (∃ e', (ofConfig (config.tuned maxWorkers cacheSize minFilesForParallel)).Runs d r
          outcome e') ↔ outcome = ((ofConfig config).run d r).1) ∧
      ∀ p : Pool, ∃ q, Pool.Steps d p q ∧ ∀ job ∈ q.jobs, job.Finished := by
  have hrun : ∀ config : Config, ∀ {outcome e'}, (ofConfig config).Runs d r outcome e' →
      outcome = (ofConfig config).runOnDisk d r :=
    fun config _ _ h => h.on_disk (ofConfig_drawn config d)
  -- nothing that is made of the texts on disk looks at these settings
  have hsame : (ofConfig (config.tuned maxWorkers cacheSize minFilesForParallel)).runOnDisk d r =
      (ofConfig config).runOnDisk d r := rfl
  have hsequential := hrun config ((ofConfig config).run_runs d r)
  have htuned :=
    hrun _ ((ofConfig (config.tuned maxWorkers cacheSize minFilesForParallel)).run_runs d r)
  refine ⟨htuned.trans (hsame.trans hsequential.symm), ?_, ?_⟩
  · intro outcome
    constructor
    · rintro ⟨e', h⟩
      exact (hrun _ h).trans (hsame.trans hsequential.symm)
    · rintro rfl
      rw [hsequential, ← hsame, ← htuned]
      exact ⟨_, run_runs _ d r⟩
  · intro p
    obtain ⟨c', jobs', hsteps, hfinished⟩ := Pool.exists_finish d p.cache p.jobs []
    exact ⟨⟨c', jobs'⟩, hsteps, hfinished⟩

end CodeAtlas
