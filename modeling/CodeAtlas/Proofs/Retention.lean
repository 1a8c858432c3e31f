import CodeAtlas.Proofs.Provenance
import Mathlib.Data.List.Perm.Subperm

/-! # Texts that a pass has read stay

A text goes only to make room, and then the one not used for the longest time.
So the texts that jobs of a pass have got so far stand in front of all others,
and while there is room for all of them, none of them goes, whatever was kept
before the pass. A pass over files whose texts are all kept gets those texts,
and it leaves the same texts behind. -/
namespace CodeAtlas

open CodeAtlas.Path

namespace ContentCache

variable {c : ContentCache} {k : List String} {text : String}
  {front back : List (List String × String)}

/-- The texts in front of the others stay there when a path is used whose text
agrees with them. -/
theorem mem_promoted (hagree : ∀ text', (k, text') ∈ front → text' = text)
    {entry : List String × String} :
    entry ∈ (k, text) :: front.filter (·.1 ≠ k) ↔ entry = (k, text) ∨ entry ∈ front := by
  rw [List.mem_cons, List.mem_filter, decide_eq_true_eq]
  constructor
  · exact Or.imp id And.left
  · rintro (he | hmem)
    · exact .inl he
    · by_cases hk : entry.1 = k
      · exact .inl (Prod.ext hk (hagree entry.2 (hk ▸ hmem)))
      · exact .inr ⟨hmem, hk⟩

theorem entries_touch_append (h : c.entries = front ++ back) :
    (c.touch k text).entries = ((k, text) :: front.filter (·.1 ≠ k)) ++ back.filter (·.1 ≠ k) := by
  simp [touch, others, h]

/-- With room for the texts in front, only others go. -/
theorem entries_store_append (h : c.entries = front ++ back)
    (hroom : ((k, text) :: front.filter (·.1 ≠ k)).length ≤ c.capacity) :
    ∃ rest, (c.store k text).entries = ((k, text) :: front.filter (·.1 ≠ k)) ++ rest := by
  have hentries : (k, text) :: c.others k = ((k, text) :: front.filter (·.1 ≠ k)) ++
      back.filter (·.1 ≠ k) := by
    simp [others, h]
  refine ⟨(back.filter (·.1 ≠ k)).take (c.capacity - ((k, text) :: front.filter (·.1 ≠ k)).length),
    ?_⟩
  rw [store, hentries, List.take_append, List.take_of_length_le hroom]

end ContentCache

/-! ## A pass with room for all that it reads -/

namespace Job

variable {d : Disk} {c c' : ContentCache} {job job' : Job}

/-- The text that a finished job has got, with the path that it is kept for. -/
def kept? : Job → Option (List String × String)
  | .done file (.ok text) => some (components file, text)
  | _ => none

/-- The file of a job that found no text kept for it, and has kept none yet. -/
def pending? : Job → Option String
  | .missed file | .fetched file _ => some file
  | _ => none

theorem Step.kept?_eq_none (h : Step d c job c' job') : job.kept? = none := by
  cases h <;> rfl

/-- A step that ends with a text makes it the last used one, and every other
step leaves what is kept. -/
theorem Step.kept_cases (h : Step d c job c' job') : (c' = c ∧ job'.kept? = none) ∨
    ∃ k text, job'.kept? = some (k, text) ∧ ((c.peek k = some text ∧ c' = c.touch k text) ∨
      ∃ file, k = components file ∧ job = .fetched file text ∧ c' = c.store k text) := by
  cases h with
  | @hit file text hpeek => exact .inr ⟨_, _, rfl, .inl ⟨hpeek, rfl⟩⟩
  | miss _ => exact .inl ⟨rfl, rfl⟩
  | fetch _ => exact .inl ⟨rfl, rfl⟩
  | fail _ => exact .inl ⟨rfl, rfl⟩
  | @keep file text => exact .inr ⟨_, _, rfl, .inr ⟨file, rfl, rfl, rfl⟩⟩

theorem Step.of_mem_entries (h : Step d c job c' job') {entry : List String × String}
    (hmem : entry ∈ c'.entries) :
    entry ∈ c.entries ∨ ∃ file text, job = .fetched file text ∧
      entry = (components file, text) := by
  cases h with
  | hit hpeek =>
    rcases ContentCache.mem_touch.mp hmem with rfl | ⟨hmem, _⟩
    · exact .inl (ContentCache.mem_of_peek hpeek)
    · exact .inl hmem
  | @keep file text =>
    rcases ContentCache.of_mem_store hmem with rfl | ⟨hmem, _⟩
    · exact .inr ⟨file, text, rfl, rfl⟩
    · exact .inl hmem
  | _ => exact .inl hmem

/-- A job that becomes pending found no text kept. -/
theorem Step.of_pending? (h : Step d c job c' job') {file : String}
    (hpending : job'.pending? = some file) :
    job.pending? = some file ∨ c'.peek (components file) = none := by
  cases h with
  | miss hpeek =>
    cases hpending
    exact .inr hpeek
  | fetch _ => exact .inl hpending
  | _ => cases hpending

theorem Step.readLossy_of_fetched (h : Step d c job c' job') {file text : String}
    (hjob : job' = .fetched file text) : d.readLossy file = .ok text := by
  cases h with
  | fetch hread =>
    cases hjob
    exact hread
  | _ => cases hjob

end Job

namespace Pool

variable {d : Disk} {p q : Pool}

/-- What jobs have got so far is kept in front of all others, and a text that
is kept for a pending job is the one on disk. -/
structure Settled (p : Pool) (d : Disk) : Prop where
  distinct : p.cache.Distinct
  named : ∀ job ∈ p.jobs, job.Named
  fetched : ∀ file text, .fetched file text ∈ p.jobs → d.readLossy file = .ok text
  agrees : ∀ job ∈ p.jobs, ∀ file, job.pending? = some file →
    ∀ text, (components file, text) ∈ p.cache.entries → d.readLossy file = .ok text
  recent : ∃ front back, p.cache.entries = front ++ back ∧
    ∀ entry, entry ∈ front ↔ ∃ job ∈ p.jobs, job.kept? = some entry

/-- The number of texts that jobs have got so far. -/
def count (p : Pool) : Nat := (p.jobs.filterMap Job.kept?).length

theorem Step.count_le (h : Step d p q) : p.count ≤ q.count := by
  cases h with
  | job front back hjob =>
    simp only [count, List.filterMap_append, List.filterMap_cons, hjob.kept?_eq_none,
      List.length_append]
    split <;> simp

namespace Settled

variable {job job' : Job}

/-- A text that a step ends with is the only one kept for its path. -/
theorem eq_of_kept (hp : p.Settled d) (hmem : job ∈ p.jobs)
    (h : Job.Step d p.cache job q.cache job') {k : List String} {text text' : String}
    (hkept : job'.kept? = some (k, text)) (htext' : (k, text') ∈ p.cache.entries) :
    text' = text := by
  rcases h.kept_cases with ⟨_, hnone⟩ | ⟨_, _, hsome, hcases⟩
  · rw [hnone] at hkept
    cases hkept
  · rw [hsome] at hkept
    cases hkept
    rcases hcases with ⟨hpeek, _⟩ | ⟨file, rfl, rfl, _⟩
    · exact hp.distinct.eq_of_mem htext' (ContentCache.mem_of_peek hpeek)
    · have hdisk := hp.agrees _ hmem file rfl text' htext'
      rw [hp.fetched file text hmem] at hdisk
      cases hdisk
      rfl

end Settled

/-- As long as there is room, what jobs have got stays in front. -/
theorem Step.recent (h : Step d p q) (hp : p.Settled d) (hroom : q.count ≤ q.cache.capacity) :
    ∃ front back, q.cache.entries = front ++ back ∧
      ∀ entry, entry ∈ front ↔ ∃ job ∈ q.jobs, job.kept? = some entry := by
  obtain ⟨job, hmem, job', hmem', hjob, hothers, hothers'⟩ := h.exists_job
  obtain ⟨front, back, hentries, hfront⟩ := hp.recent
  have hkept : ∀ entry, (∃ other ∈ q.jobs, other.kept? = some entry) ↔
      job'.kept? = some entry ∨ entry ∈ front := by
    intro entry
    rw [hfront entry]
    constructor
    · rintro ⟨other, hother, hk⟩
      rcases hothers other hother with rfl | hother
      · exact .inl hk
      · exact .inr ⟨other, hother, hk⟩
    · rintro (hk | ⟨other, hother, hk⟩)
      · exact ⟨job', hmem', hk⟩
      · rcases hothers' other hother with rfl | hother
        · rw [hjob.kept?_eq_none] at hk
          cases hk
        · exact ⟨other, hother, hk⟩
  rcases hjob.kept_cases with ⟨hcache, hnone⟩ | ⟨k, text, hsome, hcases⟩
  · refine ⟨front, back, by rw [hcache, hentries], fun entry => ?_⟩
    rw [hkept entry, hnone]
    simp
  · have hpromoted : ∀ entry, entry ∈ (k, text) :: front.filter (·.1 ≠ k) ↔
        ∃ other ∈ q.jobs, other.kept? = some entry := by
      intro entry
      have hagree : ∀ text', (k, text') ∈ front → text' = text := fun text' htext' =>
        hp.eq_of_kept hmem hjob hsome (by rw [hentries]; exact List.mem_append_left _ htext')
      rw [hkept entry, ContentCache.mem_promoted hagree, hsome, Option.some.injEq, eq_comm]
    rcases hcases with ⟨_, hcache⟩ | ⟨_, _, _, hcache⟩
    · have htouched :
          q.cache.entries = ((k, text) :: front.filter (·.1 ≠ k)) ++ back.filter (·.1 ≠ k) := by
        rw [hcache, ContentCache.entries_touch_append hentries]
      exact ⟨_, _, htouched, hpromoted⟩
    · -- all that is in front was got by jobs of the pass, so there is room for it
      have hnodup : ((k, text) :: front.filter (·.1 ≠ k)).Nodup := by
        have htouched := (hp.distinct.touch k text).of_map
        rw [ContentCache.entries_touch_append hentries] at htouched
        exact htouched.of_append_left
      have hfits : ((k, text) :: front.filter (·.1 ≠ k)).length ≤ p.cache.capacity := by
        have hsubset : (k, text) :: front.filter (·.1 ≠ k) ⊆ q.jobs.filterMap Job.kept? :=
          fun entry hentry => List.mem_filterMap.mpr ((hpromoted entry).mp hentry)
        rw [← hjob.capacity_eq]
        exact Nat.le_trans (List.subperm_of_subset hnodup hsubset).length_le hroom
      obtain ⟨rest, hstored⟩ := ContentCache.entries_store_append hentries hfits
      exact ⟨_, rest, by rw [hcache, hstored], hpromoted⟩

theorem Step.settled (h : Step d p q) (hp : p.Settled d) (hroom : q.count ≤ q.cache.capacity) :
    q.Settled d := by
  obtain ⟨job, hmem, job', hmem', hjob, hothers, _⟩ := h.exists_job
  have hnamed := h.named hp.named
  refine ⟨hjob.distinct hp.distinct, hnamed, ?_, ?_, h.recent hp hroom⟩
  · intro file text hfetched
    rcases hothers _ hfetched with he | hother
    · exact hjob.readLossy_of_fetched he.symm
    · exact hp.fetched file text hother
  · intro other hother file hpending text htext
    rcases hjob.of_mem_entries htext with hold | ⟨file', text', rfl, he⟩
    · rcases hothers other hother with rfl | hother
      · rcases hjob.of_pending? hpending with hpending | hpeek
        · exact hp.agrees job hmem file hpending text hold
        · exact absurd htext (ContentCache.not_mem_of_peek_none hpeek)
      · exact hp.agrees other hother file hpending text hold
    · -- the text has just been read, perhaps by another spelling of the path
      have hfile : other.file? = some file := by
        cases other <;> first | exact hpending | cases hpending
      obtain ⟨hsteps, rfl⟩ := Prod.ext_iff.mp he
      rw [Disk.readLossy_congr
        (iff_of_true (hnamed other hother file hfile) (hp.named _ hmem file' rfl)) hsteps]
      exact hp.fetched file' _ hmem

theorem Steps.settled (h : Steps d p q) (hp : p.Settled d) (hroom : q.count ≤ q.cache.capacity) :
    q.Settled d := by
  -- there has been room all the time, since jobs never lose what they have got
  have hkeeps : q.count ≤ q.cache.capacity → q.Settled d := by
    refine h.keeps (P := fun q => q.count ≤ q.cache.capacity → q.Settled d) ?_ fun _ => hp
    intro q r hstep hq hroom
    refine hstep.settled (hq ?_) hroom
    obtain ⟨_, _, _, _, hjob, _⟩ := hstep.exists_job
    rw [← hjob.capacity_eq]
    exact Nat.le_trans hstep.count_le hroom
  exact hkeeps hroom

end Pool

namespace Reads

variable {d : Disk} {cache cache' : ContentCache} {files : List (Option String)}
  {answers : List (Option (Except FileError String))}

theorem settled_start (d : Disk) (hdistinct : cache.Distinct)
    (hname : ∀ file ∈ files, ∀ path, file = some path → EndsInName path) :
    Pool.Settled ⟨cache, files.map .start⟩ d where
  distinct := hdistinct
  named := by
    intro job hjob
    obtain ⟨file, hfile, rfl⟩ := List.mem_map.mp hjob
    exact Job.named_start (hname file hfile)
  fetched := by
    intro path text hjob
    obtain ⟨file, _, he⟩ := List.mem_map.mp hjob
    cases file <;> cases he
  agrees := by
    intro job hjob path hpending
    obtain ⟨file, _, rfl⟩ := List.mem_map.mp hjob
    cases file <;> cases hpending
  recent := by
    refine ⟨[], cache.entries, rfl, fun entry => ⟨fun h => (List.not_mem_nil h).elim, ?_⟩⟩
    rintro ⟨job, hjob, hkept⟩
    obtain ⟨file, _, rfl⟩ := List.mem_map.mp hjob
    cases file <;> cases hkept

/-- With room for all texts that are read, they are all kept in the end. -/
theorem all_kept (h : Reads d cache files answers cache') (hdistinct : cache.Distinct)
    (hname : ∀ file ∈ files, ∀ path, file = some path → EndsInName path)
    (hroom : answers.countP (·.any (·.isOk)) ≤ cache.capacity) {file : Option String}
    {text : String} (hread : (file, some (.ok text)) ∈ files.zip answers) :
    ∃ path, file = some path ∧ (components path, text) ∈ cache'.entries := by
  obtain ⟨jobs, hsteps, hfinished, rfl⟩ := h
  have hkept : ∀ job : Job, job.kept?.isSome = job.answer?.any (·.isOk) := by
    intro job
    match job with
    | .unasked | .waiting _ | .missed _ | .fetched _ _ | .done _ (.ok _) | .done _ (.error _) => rfl
  have hcount : Pool.count ⟨cache', jobs⟩ ≤ cache'.capacity := by
    rw [hsteps.capacity_eq, Pool.count, List.length_filterMap_eq_countP]
    rw [List.countP_map] at hroom
    simpa only [hkept, Function.comp_def] using hroom
  obtain ⟨front, back, hentries, hfront⟩ :=
    (hsteps.settled (settled_start d hdistinct hname) hcount).recent
  rw [← files_of_jobs hsteps, List.zip_map'] at hread
  obtain ⟨job, hjob, he⟩ := List.mem_map.mp hread
  cases job with
  | done path answer =>
    cases he
    have hmem := (hfront _).mpr ⟨.done path (.ok text), hjob, rfl⟩
    refine ⟨path, rfl, ?_⟩
    simp only at hentries
    rw [hentries]
    exact List.mem_append_left _ hmem
  | _ => cases he

end Reads

/-! ## A pass over files whose texts are kept -/

namespace Job

variable {d : Disk} {c c' : ContentCache} {kept : List (List String × String)} {job job' : Job}

/-- The job will find a text among those kept at first, or it has. -/
def Supplied (kept : List (List String × String)) : Job → Prop
  | .unasked => True
  | .waiting file => ∃ text, (components file, text) ∈ kept
  | .done file answer => ∃ text, answer = .ok text ∧ (components file, text) ∈ kept
  | _ => False

/-- No text comes or goes. -/
theorem Step.supplied (h : Step d c job c' job') (hc : ∀ entry, entry ∈ c.entries ↔ entry ∈ kept)
    (hd : c.Distinct) (hjob : job.Supplied kept) :
    (∀ entry, entry ∈ c'.entries ↔ entry ∈ kept) ∧ job'.Supplied kept := by
  cases h with
  | @hit file text hpeek =>
    have hmem := ContentCache.mem_of_peek hpeek
    refine ⟨fun entry => ?_, text, rfl, (hc _).mp hmem⟩
    have htouched : entry ∈ (c.touch (components file) text).entries ↔
        entry = (components file, text) ∨ entry ∈ c.entries :=
      ContentCache.mem_promoted fun text' htext' => hd.eq_of_mem htext' hmem
    rw [htouched, hc entry]
    exact or_iff_right_of_imp fun he => he ▸ (hc _).mp hmem
  | miss hpeek =>
    obtain ⟨text, hmem⟩ := hjob
    exact absurd ((hc _).mpr hmem) (ContentCache.not_mem_of_peek_none hpeek)
  | fetch _ => exact hjob.elim
  | fail _ => exact hjob.elim
  | keep => exact hjob.elim

end Job

namespace Pool

variable {d : Disk} {p q : Pool} {kept : List (List String × String)}

/-- The texts are those kept at first, and every job finds its text among them. -/
structure Supplied (p : Pool) (kept : List (List String × String)) : Prop where
  distinct : p.cache.Distinct
  cache : ∀ entry, entry ∈ p.cache.entries ↔ entry ∈ kept
  jobs : ∀ job ∈ p.jobs, job.Supplied kept

theorem Step.supplied (h : Step d p q) (hp : p.Supplied kept) : q.Supplied kept := by
  obtain ⟨job, hmem, job', _, hjob, hothers, _⟩ := h.exists_job
  obtain ⟨hcache, hsupplied⟩ := hjob.supplied hp.cache hp.distinct (hp.jobs job hmem)
  refine ⟨hjob.distinct hp.distinct, hcache, ?_⟩
  intro other hother
  rcases hothers other hother with rfl | hother
  · exact hsupplied
  · exact hp.jobs other hother

theorem Steps.supplied (h : Steps d p q) (hp : p.Supplied kept) : q.Supplied kept :=
  h.keeps (P := fun q => q.Supplied kept) Step.supplied hp

end Pool

/-- The text that is kept for a file. -/
def ContentCache.textOf (c : ContentCache) (path : String) : String :=
  (c.peek (components path)).getD ""

theorem ContentCache.Distinct.textOf_eq {c : ContentCache} (h : c.Distinct) {path text : String}
    (hmem : (components path, text) ∈ c.entries) : c.textOf path = text := by
  rw [textOf, h.peek_of_mem hmem, Option.getD_some]

/-- Where a text is kept for every file, all answers are those texts, whatever
is on disk. -/
theorem Reads.all_from_kept {d : Disk} {cache cache' : ContentCache} {files : List (Option String)}
    {answers : List (Option (Except FileError String))} (h : Reads d cache files answers cache')
    (hdistinct : cache.Distinct)
    (htext : ∀ file ∈ files, ∀ path, file = some path →
      ∃ text, (components path, text) ∈ cache.entries) :
    answers = files.map (Option.map fun path => .ok (cache.textOf path)) := by
  obtain ⟨jobs, hsteps, hfinished, rfl⟩ := h
  have hstart : Pool.Supplied ⟨cache, files.map .start⟩ cache.entries := by
    refine ⟨hdistinct, fun _ => Iff.rfl, ?_⟩
    intro job hjob
    obtain ⟨file, hfile, rfl⟩ := List.mem_map.mp hjob
    cases file with
    | none => trivial
    | some path => exact htext _ hfile path rfl
  have hend := hsteps.supplied hstart
  rw [← files_of_jobs hsteps, List.map_map]
  apply List.map_congr_left
  intro job hjob
  cases job with
  | unasked => rfl
  | done path answer =>
    obtain ⟨text, rfl, hmem⟩ := hend.jobs _ hjob
    rw [← hdistinct.textOf_eq hmem]
    rfl
  | _ => exact (hfinished _ hjob).elim

end CodeAtlas
