import CodeAtlas.Proofs.Reading
import Mathlib.Data.Finset.Card

/-! # The text not used for the longest time goes first

What a cache holds is decided by the reads that had a text since it was last
cleared. List them, the latest first, and of several reads of one path keep the
latest only: the cache holds the front of that list, as far as there is room.
So a text is held exactly as long as fewer other paths have been read since its
last use than there is room for. The invariant is stated on the whole list, not
on what is held, because a path that had to go comes back with its place in the
list. -/
namespace CodeAtlas

open CodeAtlas.Path

namespace ContentCache

/-! ## A cache in use -/

/-- What is done with a cache or with the disk below it. -/
inductive Event where
  | read (path : String)
  | clear
  | change (disk : Disk)

/-- What has happened by an event. -/
inductive Happening where
  | answered (path : String) (answer : Except FileError String)
  | cleared
  | changed

/-- A cache, the disk below it, and what has happened so far, the latest first. -/
structure Usage where
  cache : ContentCache
  disk : Disk
  log : List Happening

namespace Usage

def step (u : Usage) : Event → Usage
  | .read path =>
    let (answer, cache) := u.cache.read u.disk path
    { u with cache, log := .answered path answer :: u.log }
  | .clear => { u with cache := u.cache.clear, log := .cleared :: u.log }
  | .change disk => { u with disk, log := .changed :: u.log }

/-- The use of a cache that is empty at first. -/
def after (capacity : Nat) (disk : Disk) (events : List Event) : Usage :=
  events.foldl step ⟨{ capacity }, disk, []⟩

end Usage

/-- The reads that had a text since the last clearing, the latest first. -/
def textsRead : List Happening → List (List String × String)
  | [] => []
  | .answered path (.ok text) :: log => (components path, text) :: textsRead log
  | .answered _ (.error _) :: log => textsRead log
  | .cleared :: _ => []
  | .changed :: log => textsRead log

/-- The number of paths that were read. -/
def pathCount (reads : List (List String × String)) : Nat := (reads.map (·.1)).toFinset.card

/-- A path was last read with this text, and fewer than so many others have
been read since. -/
def InUse (room : Nat) (reads : List (List String × String)) (k : List String) (text : String) :
    Prop :=
  ∃ later earlier, reads = later ++ (k, text) :: earlier ∧ k ∉ later.map (·.1) ∧
    pathCount later < room

/-- A read has this text, whatever is on disk. -/
def Holds (c : ContentCache) (path text : String) : Prop := ∀ d, (c.read d path).1 = .ok text

/-! ## The latest read of each path -/

/-- Of several reads of a path only the latest. -/
def latest : List (List String × String) → List (List String × String)
  | [] => []
  | e :: rest => e :: (latest rest).filter (·.1 ≠ e.1)

variable {k : List String} {text : String} {reads : List (List String × String)}

theorem mem_keys_latest : k ∈ (latest reads).map (·.1) ↔ k ∈ reads.map (·.1) := by
  induction reads with
  | nil => simp [latest]
  | cons e rest ih =>
    by_cases hk : k = e.1
    · simp [latest, hk]
    · simp only [latest, List.map_cons, List.mem_cons, hk, false_or, ← ih]
      simp only [List.mem_map, List.mem_filter, decide_eq_true_eq]
      constructor
      · rintro ⟨x, ⟨hx, _⟩, rfl⟩
        exact ⟨x, hx, rfl⟩
      · rintro ⟨x, hx, rfl⟩
        exact ⟨x, ⟨hx, hk⟩, rfl⟩

theorem nodup_latest (reads : List (List String × String)) : ((latest reads).map (·.1)).Nodup := by
  induction reads with
  | nil => simp [latest]
  | cons e rest ih =>
    refine List.nodup_cons.mpr ⟨?_, ih.sublist (List.filter_sublist.map _)⟩
    simp

theorem length_latest (reads : List (List String × String)) :
    (latest reads).length = pathCount reads := by
  have hsame : ((latest reads).map (·.1)).toFinset = (reads.map (·.1)).toFinset := by
    ext k
    simp only [List.mem_toFinset, mem_keys_latest]
  rw [pathCount, ← hsame, List.toFinset_card_of_nodup (nodup_latest reads), List.length_map]

/-- The latest read of a path comes behind the latest reads of the paths that
were read later. -/
theorem latest_append {later : List (List String × String)} (h : k ∉ later.map (·.1))
    (text : String) (earlier : List (List String × String)) :
    ∃ rest, latest (later ++ (k, text) :: earlier) = latest later ++ (k, text) :: rest := by
  induction later with
  | nil => exact ⟨_, rfl⟩
  | cons e more ih =>
    simp only [List.map_cons, List.mem_cons, not_or] at h
    obtain ⟨rest, hrest⟩ := ih h.2
    refine ⟨rest.filter (·.1 ≠ e.1), ?_⟩
    simp [latest, hrest, h.1]

theorem mem_latest (h : (k, text) ∈ latest reads) :
    ∃ later earlier, reads = later ++ (k, text) :: earlier ∧ k ∉ later.map (·.1) := by
  have hk : k ∈ reads.map (·.1) := mem_keys_latest.mp (List.mem_map_of_mem h)
  cases hl : reads.lookup k with
  | none =>
    obtain ⟨e, he, rfl⟩ := List.mem_map.mp hk
    simpa using List.lookup_eq_none_iff.mp hl e he
  | some text' =>
    obtain ⟨later, earlier, rfl, hlater⟩ := List.lookup_eq_some_iff.mp hl
    have hnew : k ∉ later.map (·.1) := by
      intro hmem
      obtain ⟨e, he, rfl⟩ := List.mem_map.mp hmem
      simpa using hlater e he
    obtain ⟨rest, hrest⟩ := latest_append hnew text' earlier
    have hmem : (k, text') ∈ latest (later ++ (k, text') :: earlier) := by rw [hrest]; simp
    have htext := List.inj_on_of_nodup_map (nodup_latest _) hmem h rfl
    cases htext
    exact ⟨later, earlier, rfl, hnew⟩

/-- A read is among the first ones exactly if few enough other paths were read
later. -/
theorem mem_take_latest {room : Nat} :
    (k, text) ∈ (latest reads).take room ↔ InUse room reads k text := by
  constructor
  · intro h
    obtain ⟨later, earlier, rfl, hnew⟩ := mem_latest (List.mem_of_mem_take h)
    refine ⟨later, earlier, rfl, hnew, ?_⟩
    obtain ⟨rest, hrest⟩ := latest_append hnew text earlier
    rw [← length_latest]
    by_contra hfull
    -- the first ones are all of later reads
    rw [hrest, List.take_append_of_le_length (by omega)] at h
    exact hnew (mem_keys_latest.mp (List.mem_map_of_mem (List.mem_of_mem_take h)))
  · rintro ⟨later, earlier, rfl, hnew, hroom⟩
    obtain ⟨rest, hrest⟩ := latest_append hnew text earlier
    rw [← length_latest] at hroom
    obtain ⟨more, hmore⟩ : ∃ more, room - (latest later).length = more + 1 :=
      ⟨_, (Nat.sub_add_cancel (by omega)).symm⟩
    rw [hrest, List.take_append, hmore]
    simp

/-! ## What a cache holds -/

/-- The cache holds the front of the latest reads. -/
def Tracks (c : ContentCache) (reads : List (List String × String)) : Prop :=
  c.entries = (latest reads).take c.capacity

/-- To leave out a path, and then to cut at the room that is left, is the same
for the whole list and for its front. -/
theorem take_filter_take {l : List (List String × String)} (h : (l.map (·.1)).Nodup)
    (k : List String) (room : Nat) :
    ((l.take (room + 1)).filter (·.1 ≠ k)).take room = (l.filter (·.1 ≠ k)).take room := by
  induction l generalizing room with
  | nil => simp
  | cons e rest ih =>
    obtain ⟨hfirst, hrest⟩ := List.nodup_cons.mp h
    by_cases hk : e.1 = k
    · have hkeep : ∀ l, l ⊆ rest → l.filter (·.1 ≠ k) = l := by
        intro l hl
        refine List.filter_eq_self.mpr fun x hx => decide_eq_true fun hxk => hfirst ?_
        exact List.mem_map.mpr ⟨x, hl hx, hxk.trans hk.symm⟩
      rw [List.take_succ_cons, List.filter_cons_of_neg (by simp [hk]),
        List.filter_cons_of_neg (by simp [hk]), hkeep _ (List.take_subset _ _),
        hkeep _ (List.Subset.refl _), List.take_take, Nat.min_self]
    · cases room with
      | zero => simp
      | succ room => simpa [hk] using ih hrest room

namespace Tracks

variable {c : ContentCache}

theorem store (h : c.Tracks reads) (k : List String) (text : String) :
    (c.store k text).Tracks ((k, text) :: reads) := by
  have hentries : c.entries = (latest reads).take c.capacity := h
  show ((k, text) :: c.others k).take c.capacity = (latest ((k, text) :: reads)).take c.capacity
  rw [others, hentries, latest]
  cases c.capacity with
  | zero => rfl
  | succ room => simp only [List.take_succ_cons, take_filter_take (nodup_latest reads)]

/-- A text that is held takes no more room when it is used again. -/
theorem touch_eq_store (h : c.Tracks reads) (hpeek : c.peek k = some text) :
    c.touch k text = c.store k text := by
  have hroom : c.entries.length ≤ c.capacity := by
    rw [show c.entries = _ from h]
    exact List.length_take_le _ _
  have hshorter : (c.others k).length < c.entries.length :=
    List.length_filter_lt_length_iff_exists.mpr ⟨(k, text), mem_of_peek hpeek, by simp⟩
  rw [touch, ContentCache.store, List.take_of_length_le (by rw [List.length_cons]; omega)]

theorem distinct (h : c.Tracks reads) : c.Distinct := by
  have hentries : c.entries = (latest reads).take c.capacity := h
  rw [Distinct, hentries]
  exact (nodup_latest reads).sublist ((List.take_sublist _ _).map _)

theorem peek_eq_some_iff (h : c.Tracks reads) :
    c.peek k = some text ↔ InUse c.capacity reads k text := by
  have hentries : c.entries = (latest reads).take c.capacity := h
  rw [← mem_take_latest, ← hentries]
  exact ⟨mem_of_peek, h.distinct.peek_of_mem⟩

theorem size_eq (h : c.Tracks reads) : c.size = min c.capacity (pathCount reads) := by
  have hentries : c.entries = (latest reads).take c.capacity := h
  rw [size, hentries, List.length_take, length_latest]

end Tracks

/-! ## Reading -/

theorem read_of_held {c : ContentCache} {path : String} (h : c.peek (components path) = some text)
    (d : Disk) : c.read d path = (.ok text, c.touch (components path) text) := by
  simp [read, h]

theorem read_of_missing {c : ContentCache} {path : String} (h : c.peek (components path) = none)
    (d : Disk) :
    (c.read d path).1 = d.readLossy path ∧
      ∀ why, d.readLossy path = .error why → (c.read d path).2 = c := by
  simp only [read, h]
  cases hread : d.readLossy path with
  | ok text => exact ⟨rfl, fun why hwhy => by cases hwhy⟩
  | error why => exact ⟨rfl, fun _ _ => rfl⟩

/-- Nothing can be read where there are no files. -/
theorem readLossy_empty (path text : String) : ({} : Disk).readLossy path ≠ .ok text := by
  intro h
  unfold Disk.readLossy Disk.read Disk.stat at h
  cases hl : ({} : Disk).locate path with
  | error why => simp [hl, bind, Except.bind, Except.map] at h
  | ok place =>
    by_cases hplace : place = []
    · simp [hl, hplace, Disk.entryAt, bind, Except.bind, Except.map] at h
    · have hnone : ({} : Disk).entryAt place = none := if_neg hplace
      simp [hl, hnone, bind, Except.bind, Except.map] at h

theorem holds_iff_peek {c : ContentCache} {path : String} :
    c.Holds path text ↔ c.peek (components path) = some text := by
  constructor
  · intro h
    cases hpeek : c.peek (components path) with
    | none =>
      have hdisk := h {}
      rw [(read_of_missing hpeek {}).1] at hdisk
      exact absurd hdisk (readLossy_empty path text)
    | some text' =>
      have htext := h {}
      rw [read_of_held hpeek] at htext
      exact congrArg some (Except.ok.inj htext)
  · intro h d
    rw [read_of_held h]

/-! ## Every history -/

namespace Usage

/-- The cache holds what the log says, with the room that it was given. -/
structure Faithful (u : Usage) (capacity : Nat) : Prop where
  room : u.cache.capacity = capacity
  tracks : u.cache.Tracks (textsRead u.log)

theorem Faithful.step {u : Usage} {capacity : Nat} (h : u.Faithful capacity) (event : Event) :
    (u.step event).Faithful capacity := by
  obtain ⟨hroom, htracks⟩ := h
  cases event with
  | clear => exact ⟨hroom, by simp [Tracks, Usage.step, textsRead, ContentCache.clear, latest]⟩
  | change disk => exact ⟨hroom, htracks⟩
  | read path =>
    cases hpeek : u.cache.peek (components path) with
    | some text =>
      have hstep : u.step (.read path) =
          { u with
            cache := u.cache.store (components path) text
            log := .answered path (.ok text) :: u.log } := by
        simp [Usage.step, read_of_held hpeek, htracks.touch_eq_store hpeek]
      rw [hstep]
      exact ⟨hroom, htracks.store _ _⟩
    | none =>
      cases hread : u.disk.readLossy path with
      | ok text =>
        have hstep : u.step (.read path) =
            { u with
              cache := u.cache.store (components path) text
              log := .answered path (.ok text) :: u.log } := by
          simp [Usage.step, ContentCache.read, hpeek, hread]
        rw [hstep]
        exact ⟨hroom, htracks.store _ _⟩
      | error why =>
        have hstep :
            u.step (.read path) = { u with log := .answered path (.error why) :: u.log } := by
          simp [Usage.step, ContentCache.read, hpeek, hread]
        rw [hstep]
        exact ⟨hroom, htracks⟩

theorem Faithful.steps {u : Usage} {capacity : Nat} (h : u.Faithful capacity)
    (events : List Event) : (events.foldl Usage.step u).Faithful capacity := by
  induction events generalizing u with
  | nil => exact h
  | cons event rest ih => exact ih (h.step event)

theorem after_faithful (capacity : Nat) (disk : Disk) (events : List Event) :
    (after capacity disk events).Faithful capacity :=
  Faithful.steps ⟨rfl, by simp [Tracks, textsRead, latest]⟩ events

end Usage

/-- **The least recently used text goes first, after every history.** Let a
cache with room for any number of texts be used in any way: paths are read, the
cache is cleared, and the disk changes. A read is answered by the cache,
whatever is on disk, exactly if its path was read with a text since the last
clearing and fewer other paths than there is room for have been read with a
text since; the answer is the text of that last read. Every other answer is
that of the disk. A read that fails leaves the cache as it is, and the number
of texts is that of the paths read since the last clearing, as far as there is room. -/
theorem holds_iff_recently_read (capacity : Nat) (disk : Disk) (events : List Event) :
    (∀ path text, (Usage.after capacity disk events).cache.Holds path text ↔
        InUse capacity (textsRead (Usage.after capacity disk events).log) (components path) text) ∧
      (∀ path d, (¬∃ text, InUse capacity (textsRead (Usage.after capacity disk events).log)
        (components path) text) →
        ((Usage.after capacity disk events).cache.read d path).1 = d.readLossy path) ∧
      (∀ path d why, ((Usage.after capacity disk events).cache.read d path).1 = .error why →
        ((Usage.after capacity disk events).cache.read d path).2 =
          (Usage.after capacity disk events).cache) ∧
      (Usage.after capacity disk events).cache.size =
        min capacity (pathCount (textsRead (Usage.after capacity disk events).log)) := by
  obtain ⟨hroom, htracks⟩ := Usage.after_faithful capacity disk events
  generalize Usage.after capacity disk events = u at *
  subst hroom
  refine ⟨fun path text => holds_iff_peek.trans htracks.peek_eq_some_iff, ?_, ?_, htracks.size_eq⟩
  · intro path d hidle
    cases hpeek : u.cache.peek (components path) with
    | none => exact (read_of_missing hpeek d).1
    | some text => exact absurd ⟨text, htracks.peek_eq_some_iff.mp hpeek⟩ hidle
  · intro path d why hfail
    cases hpeek : u.cache.peek (components path) with
    | none =>
      obtain ⟨hanswer, hsame⟩ := read_of_missing hpeek d
      exact hsame why (hanswer.symm.trans hfail)
    | some text =>
      rw [read_of_held hpeek] at hfail
      cases hfail

/-- Three files with a digit each, of which the first may have another one. -/
def digitFiles (digit : UInt8) : Disk where
  entries :=
    .ofList [("p", .directory), ("p/a", .file [digit]), ("p/b", .file [50]), ("p/c", .file [51])]

/-- The first of the files is read again, by another spelling of its path,
before the third one is. -/
def readAgain : List Event :=
  [.read "p/c", .clear, .read "p/a", .read "p/b", .change (digitFiles 57), .read "p//a",
    .read "p/none", .read "p/c"]

/-- With room for two texts the first one stays, even though its file has
changed, and the second one goes. What was before the clearing and the read
that fails count for nothing. -/
theorem holds_text_used_again :
    (Usage.after 2 (digitFiles 49) readAgain).cache.Holds "p/a" "1" ∧
      ((Usage.after 2 (digitFiles 49) readAgain).cache.read {} "p/b").1 = .error .notFound := by
  have hreads : textsRead (Usage.after 2 (digitFiles 49) readAgain).log =
      [(["p", "c"], "3"), (["p", "a"], "1"), (["p", "b"], "2"), (["p", "a"], "1")] := by
    decide +kernel
  obtain ⟨hholds, hothers, _⟩ := holds_iff_recently_read 2 (digitFiles 49) readAgain
  rw [hreads] at hholds hothers
  refine ⟨(hholds _ _).mpr ⟨[(["p", "c"], "3")],
    [(["p", "b"], "2"), (["p", "a"], "1")], by decide +kernel⟩, ?_⟩
  rw [hothers]
  · decide +kernel
  · rintro ⟨text, hinUse⟩
    have hmem := mem_take_latest.mpr hinUse
    have hkeys :
        components "p/b" ∉ ((latest [(["p", "c"], "3"), (["p", "a"], "1"), (["p", "b"], "2"),
      (["p", "a"], "1")]).take 2).map (·.1) := by decide +kernel
    exact hkeys (List.mem_map_of_mem hmem)

end ContentCache

end CodeAtlas
