import CodeAtlas.Proofs.PathOrder

/-! # Patterns only select

A walk notes the language of every file that it sees and keeps the files that
the patterns accept and that are text. Whether a file is seen, which language
it has and whether it is text do not depend on the patterns, so a walk with
patterns keeps some of the files of the walk without them, in the same order,
and finds the same languages. A pattern speaks of a path by its trailing parts,
and more directories in front of a path leave these as they are. -/
namespace CodeAtlas

open Text

/-! ## Trailing parts -/

/-- The path itself or what stands behind one of its slashes is a match. -/
def TrailingMatch (isMatch : String → Bool) (path : String) : Prop :=
  isMatch path = true ∨ ∃ lead rest, path = lead ++ "/" ++ rest ∧ isMatch rest = true

theorem mem_suffixesBehindSlash {l rest : List Char} :
    rest ∈ suffixesBehindSlash l ↔ ∃ lead, l = lead ++ '/' :: rest := by
  induction l with
  | nil => simp [suffixesBehindSlash]
  | cons c more ih =>
    -- the slash is the first character, or it stands further behind
    have hlead : (∃ lead, c :: more = lead ++ '/' :: rest) ↔
        (c = '/' ∧ more = rest) ∨ ∃ lead, more = lead ++ '/' :: rest := by
      constructor
      · rintro ⟨lead, hlead⟩
        cases lead with
        | nil => exact .inl (List.cons.inj hlead)
        | cons x lead => exact .inr ⟨lead, (List.cons.inj hlead).2⟩
      · rintro (⟨rfl, rfl⟩ | ⟨lead, rfl⟩)
        · exact ⟨[], rfl⟩
        · exact ⟨c :: lead, rfl⟩
    rw [suffixesBehindSlash, hlead, ← ih]
    by_cases hc : c = '/'
    · simp [hc, eq_comm]
    · simp [hc]

theorem matchesFromRight_iff (isMatch : String → Bool) (path : String) :
    matchesFromRight isMatch path = true ↔ TrailingMatch isMatch path := by
  have hbehind : (∃ rest ∈ suffixesBehindSlash path.toList, isMatch (String.ofList rest) = true) ↔
      ∃ lead rest, path = lead ++ "/" ++ rest ∧ isMatch rest = true := by
    constructor
    · rintro ⟨rest, hrest, hmatch⟩
      obtain ⟨lead, hlead⟩ := mem_suffixesBehindSlash.mp hrest
      refine ⟨String.ofList lead, String.ofList rest, String.toList_injective ?_, hmatch⟩
      simpa using hlead
    · rintro ⟨lead, rest, rfl, hmatch⟩
      exact ⟨rest.toList, mem_suffixesBehindSlash.mpr ⟨lead.toList, by simp⟩, by simpa using hmatch⟩
  simp [matchesFromRight, trailingPaths, TrailingMatch, hbehind]

/-- More directories in front of a path leave its trailing parts as they are. -/
theorem TrailingMatch.below {isMatch : String → Bool} {path : String}
    (h : TrailingMatch isMatch path) (lead : String) :
    TrailingMatch isMatch (lead ++ "/" ++ path) := by
  rcases h with hmatch | ⟨front, rest, rfl, hmatch⟩
  · exact .inr ⟨lead, path, rfl, hmatch⟩
  · exact .inr ⟨lead ++ "/" ++ front, rest, by simp only [String.append_assoc], hmatch⟩

namespace PathFilter

/-! ## What patterns accept -/

/-- A pattern, as written, speaks of a path. -/
def Covers (pattern path : String) : Prop :=
  ∃ g, Glob.parse pattern = .ok g ∧ TrailingMatch g.isMatch path

theorem covers_iff {pattern : String} {g : Glob} (h : Glob.parse pattern = .ok g) (path : String) :
    Covers pattern path ↔ TrailingMatch g.isMatch path := by
  constructor
  · rintro ⟨g', hg', hmatch⟩
    cases h.symm.trans hg'
    exact hmatch
  · intro hmatch
    exact ⟨g, h, hmatch⟩

theorem Covers.below {pattern path : String} (h : Covers pattern path) (lead : String) :
    Covers pattern (lead ++ "/" ++ path) := by
  obtain ⟨g, hg, hmatch⟩ := h
  exact ⟨g, hg, hmatch.below lead⟩

variable {f : PathFilter} {included excluded : Option String} {path : String}

theorem accepts_iff (f : PathFilter) (path : String) : f.accepts path = true ↔
    (∀ g ∈ f.includeGlob, TrailingMatch g.isMatch path) ∧
      ∀ g ∈ f.excludeGlob, ¬TrailingMatch g.isMatch path := by
  obtain ⟨inc, exc⟩ := f
  cases inc <;> cases exc <;> simp [accepts, ← matchesFromRight_iff]

/-- There is no pattern, or it was read. -/
theorem compile_eq_ok {pattern : Option String} {read : Option Glob}
    (h : compile pattern = .ok read) :
    (pattern = none ∧ read = none) ∨ ∃ p g, pattern = some p ∧ read = some g ∧
      Glob.parse p = .ok g := by
  cases pattern with
  | none =>
    cases h
    exact .inl ⟨rfl, rfl⟩
  | some p =>
    cases hg : Glob.parse p with
    | error why => simp [compile, hg] at h
    | ok g =>
      simp only [compile, hg, Except.ok.injEq] at h
      exact .inr ⟨p, g, rfl, h.symm, hg⟩

theorem ofPatterns_eq_ok (h : ofPatterns included excluded = .ok f) :
    compile included = .ok f.includeGlob ∧ compile excluded = .ok f.excludeGlob := by
  unfold ofPatterns at h
  cases hinc : compile included with
  | error why => simp [hinc, bind, Except.bind] at h
  | ok inc =>
    cases hexc : compile excluded with
    | error why => simp [hinc, hexc, bind, Except.bind] at h
    | ok exc =>
      simp only [hinc, hexc, bind, Except.bind, pure, Except.pure, Except.ok.injEq] at h
      rw [← h]
      exact ⟨rfl, rfl⟩

/-- A path is accepted if the one pattern speaks of it and the other one does not. -/
theorem accepts_of_patterns (h : ofPatterns included excluded = .ok f) (path : String) :
    f.accepts path = true ↔
    (∀ pattern ∈ included, Covers pattern path) ∧ ∀ pattern ∈ excluded, ¬Covers pattern path := by
  obtain ⟨hinc, hexc⟩ := ofPatterns_eq_ok h
  rw [accepts_iff]
  apply and_congr
  · rcases compile_eq_ok hinc with ⟨rfl, hread⟩ | ⟨p, g, rfl, hread, hg⟩
    · simp [hread]
    · simp [hread, covers_iff hg]
  · rcases compile_eq_ok hexc with ⟨rfl, hread⟩ | ⟨p, g, rfl, hread, hg⟩
    · simp [hread]
    · simp [hread, covers_iff hg]

end PathFilter

/-! ## What a walk keeps -/

/-- The outcome with only those files that a filter accepts. -/
def WalkOutcome.select (found : WalkOutcome) (f : PathFilter) : WalkOutcome :=
  { found with files := found.files.filter fun file => f.accepts file.path }

namespace Walk

variable {c : ScanningConfig} {d : Disk} {root : List String}

theorem outcome_select (c : ScanningConfig) (f : PathFilter)
    (found : List (SourceFile × List UInt8)) :
    outcome c f found = (outcome c {} found).select f := by
  have hfiles : (found.filter fun x => f.accepts x.1.path && !looksBinary c x.2).map (·.1) =
      ((found.filter fun x => ({} : PathFilter).accepts x.1.path && !looksBinary c x.2).map
        (·.1)).filter fun file => f.accepts file.path := by
    rw [List.filter_map, List.filter_filter]
    rfl
  exact congrArg (WalkOutcome.mk · _) hfiles

/-- Among the files that are seen there is one with this path and content, and
its extension stands for the language. -/
def IsSource (c : ScanningConfig) (seen : List (List String × List UInt8)) (file : SourceFile)
    (content : List UInt8) : Prop :=
  ∃ steps extension, (steps, content) ∈ seen ∧ file.path = join "/" steps ∧
    Path.extension? file.path = some extension ∧
    c.languageFor extension = some file.language

theorem mem_sources_iff {file : SourceFile} {content : List UInt8} :
    (file, content) ∈ sources c d root ↔ IsSource c (seenFiles c d root) file content := by
  unfold sources
  rw [List.mem_filterMap]
  constructor
  · rintro ⟨⟨steps, bytes⟩, hseen, h⟩
    obtain ⟨extension, hextension, h⟩ := Option.bind_eq_some_iff.mp h
    obtain ⟨language, hlanguage, h⟩ := Option.bind_eq_some_iff.mp h
    cases h
    exact ⟨steps, extension, hseen, rfl, hextension, hlanguage⟩
  · obtain ⟨path, language⟩ := file
    rintro ⟨steps, extension, hseen, rfl, hextension, hlanguage⟩
    refine ⟨(steps, content), hseen, ?_⟩
    simp only [hextension, hlanguage, Option.bind_eq_bind, Option.bind_some]

/-- The outcome of a walk without patterns, by the files that are seen: all
sources that are text, in strictly ascending order of paths, and the languages
of all sources, or `unknown` if there is none. -/
structure Lists (c : ScanningConfig) (seen : List (List String × List UInt8))
    (found : WalkOutcome) : Prop where
  files : ∀ file, file ∈ found.files ↔
    ∃ content, IsSource c seen file content ∧ (0 : UInt8) ∉ content.take c.binarySniffBytes
  ascending : (found.files.map (·.path)).Pairwise (· < ·)
  languages : ∀ tag, tag ∈ found.languages ↔
    (∃ file content, IsSource c seen file content ∧ file.language = tag) ∨
    (tag = "unknown" ∧ ¬∃ file content, IsSource c seen file content)

theorem mem_outcome_files {found : List (SourceFile × List UInt8)} {file : SourceFile} :
    file ∈ (outcome c {} found).files ↔
      ∃ content, (file, content) ∈ found ∧ (0 : UInt8) ∉ content.take c.binarySniffBytes := by
  have haccepts : ({} : PathFilter).accepts file.path = true := rfl
  simp only [outcome, List.mem_map, List.mem_filter, Bool.and_eq_true, Bool.not_eq_true',
    looksBinary, List.contains_eq_mem, decide_eq_false_iff_not]
  constructor
  · rintro ⟨⟨_, content⟩, ⟨hmem, _, htext⟩, rfl⟩
    exact ⟨content, hmem, htext⟩
  · rintro ⟨content, hmem, htext⟩
    exact ⟨(file, content), ⟨hmem, haccepts, htext⟩, rfl⟩

theorem mem_outcome_languages {f : PathFilter} {found : List (SourceFile × List UInt8)}
    {tag : String} :
    tag ∈ (outcome c f found).languages ↔ (∃ x ∈ found, x.1.language = tag) ∨
      (tag = "unknown" ∧ found = []) := by
  have htags : ∀ {tag}, tag ∈ (NameSet.ofList (found.map (·.1.language))).toList ↔
      ∃ x ∈ found, x.1.language = tag := by
    intro tag
    rw [Dict.mem_nameSet_iff, List.mem_map]
  unfold outcome
  cases hlist : (NameSet.ofList (found.map (·.1.language))).toList with
  | nil =>
    have hempty : found = [] := by
      refine List.eq_nil_iff_forall_not_mem.mpr fun x hx => ?_
      have hmem := htags.mpr ⟨x, hx, rfl⟩
      rw [hlist] at hmem
      cases hmem
    simp [hempty]
  | cons first rest =>
    have hnonempty : found ≠ [] := by
      obtain ⟨x, hx, _⟩ := htags.mp (hlist ▸ List.mem_cons_self : first ∈ _)
      exact List.ne_nil_of_mem hx
    simp only [← hlist, htags, hnonempty, and_false, or_false]

theorem outcome_lists : Lists c (seenFiles c d root) (outcome c {} (sources c d root)) where
  files file := by simp only [mem_outcome_files, mem_sources_iff]
  ascending := List.pairwise_map.mpr (outcome_sorted {})
  languages tag := by
    have hnone : sources c d root = [] ↔
        ¬∃ file content, IsSource c (seenFiles c d root) file content := by
      simp only [List.eq_nil_iff_forall_not_mem, Prod.forall, mem_sources_iff, not_exists]
    rw [mem_outcome_languages, hnone, Prod.exists]
    simp only [mem_sources_iff]

end Walk

theorem Disk.walk_eq_ok_iff {d : Disk} {c : ScanningConfig} {f : PathFilter} {path : String}
    {found : WalkOutcome} :
    d.walk c f path = .ok found ↔ ∃ place, d.root path = .ok place ∧
      found = Walk.outcome c f (Walk.sources c d place) := by
  unfold walk
  cases d.root path with
  | error why => simp [Except.map]
  | ok place => simp [Except.map, eq_comm]

/-- **Patterns only select.** Take any disk, settings and patterns that can be
read. A walk with the patterns ends as the walk without them does, and of its
files it has exactly those with an accepted path, in the same strictly
ascending order, with the same languages. The walk without patterns has every
source that is text. A path is accepted if the pattern to include, if there is
one, matches it or what stands behind one of its slashes, and the pattern to
exclude, if there is one, matches nothing of that. What a pattern speaks of it
speaks of below any more directories. None of this hangs on how files are seen
or patterns read: any list of source files is selected from in the same way,
and any test of paths is taken to trailing parts in the same way. -/
theorem Disk.walk_selects_by_patterns {included excluded : Option String} {f : PathFilter}
    (hf : PathFilter.ofPatterns included excluded = .ok f) (d : Disk) (c : ScanningConfig)
    (path : String) :
    d.walk c f path = (d.walk c {} path).map (·.select f) ∧
    (∀ found, d.walk c f path = .ok found →
      (found.files.map (·.path)).Pairwise (· < ·) ∧ (found.files.map (·.path)).Nodup) ∧
    (∀ place, d.root path = .ok place → ∃ all, d.walk c {} path = .ok all ∧
      Walk.Lists c (Walk.seenFiles c d place) all) ∧
    (∀ p, f.accepts p = true ↔
      (∀ pattern ∈ included, PathFilter.Covers pattern p) ∧
        ∀ pattern ∈ excluded, ¬PathFilter.Covers pattern p) ∧
    (∀ pattern p lead, PathFilter.Covers pattern p → PathFilter.Covers pattern (lead ++ "/" ++ p)) ∧
    (∀ found, Walk.outcome c f found = (Walk.outcome c {} found).select f) ∧
    ∀ (isMatch : String → Bool) p, (matchesFromRight isMatch p = true ↔ TrailingMatch isMatch p) ∧
      ∀ lead, TrailingMatch isMatch p → TrailingMatch isMatch (lead ++ "/" ++ p) := by
  refine ⟨?_, ?_, ?_, PathFilter.accepts_of_patterns hf, fun _ _ lead h => h.below lead,
    Walk.outcome_select c f,
    fun isMatch p => ⟨matchesFromRight_iff isMatch p, fun lead h => h.below lead⟩⟩
  · unfold walk
    cases d.root path with
    | error why => rfl
    | ok place => exact congrArg Except.ok (Walk.outcome_select c f _)
  · intro found h
    obtain ⟨place, _, rfl⟩ := walk_eq_ok_iff.mp h
    have hsorted := List.pairwise_map.mpr (@Walk.outcome_sorted c d place f)
    exact ⟨hsorted, hsorted.imp fun hlt => String.ne_of_lt hlt⟩
  · intro place hplace
    exact ⟨_, walk_eq_ok_iff.mpr ⟨place, hplace, rfl⟩, Walk.outcome_lists⟩

/-- Sources of two languages, one of them in a directory of tests. -/
def testedDisk : Disk :=
  (({} : Disk).plant ["a.py"] (.file [])).plant ["b.ts"] (.file [])
    |>.plant ["tests", "c.py"] (.file [])

/-- The patterns `*.py` and `tests/*.py`, the second one to exclude. -/
def pythonButTests : PathFilter where
  includeGlob := some ⟨[.anyRun, .literal '.', .literal 'p', .literal 'y']⟩
  excludeGlob :=
    some ⟨[.literal 't', .literal 'e', .literal 's', .literal 't', .literal 's', .literal '/',
      .anyRun, .literal '.', .literal 'p', .literal 'y']⟩

/-- One file is left of three, both languages stay, and tests are excluded at
any depth. -/
theorem testedDisk_without_tests :
    PathFilter.ofPatterns (some "*.py") (some "tests/*.py") = .ok pythonButTests ∧
    testedDisk.walk {} {} "/" =
      .ok ⟨[⟨"a.py", "py"⟩, ⟨"b.ts", "ts"⟩, ⟨"tests/c.py", "py"⟩], ["py", "ts"]⟩ ∧
    testedDisk.walk {} pythonButTests "/" = .ok ⟨[⟨"a.py", "py"⟩], ["py", "ts"]⟩ ∧
    ∀ lead, pythonButTests.accepts (lead ++ "/" ++ "tests/c.py") = false := by
  have hpatterns : PathFilter.ofPatterns (some "*.py") (some "tests/*.py") = .ok pythonButTests :=
    rfl
  have hall : testedDisk.walk {} {} "/" =
      .ok ⟨[⟨"a.py", "py"⟩, ⟨"b.ts", "ts"⟩, ⟨"tests/c.py", "py"⟩], ["py", "ts"]⟩ := by
    decide +kernel
  obtain ⟨hselect, _, _, haccepts, hbelow, _⟩ :=
    Disk.walk_selects_by_patterns hpatterns testedDisk {} "/"
  refine ⟨hpatterns, hall, ?_, ?_⟩
  · rw [hselect, hall]
    decide +kernel
  · intro lead
    have hcovers : PathFilter.Covers "tests/*.py" "tests/c.py" := ⟨_, rfl, .inl (by decide +kernel)⟩
    refine Bool.eq_false_iff.mpr fun h => ?_
    exact ((haccepts _).mp h).2 "tests/*.py" rfl (hbelow _ _ lead hcovers)

end CodeAtlas
