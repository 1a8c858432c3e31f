import CodeAtlas.Proofs.Ownership

/-! # The index answers like a search

The index is built in one pass in which a dotted name can change hands. What
becomes of a name depends only on the modules that have it, taken in the order
of their paths: the first one gets it, and loses it only to a Python module
while the path that holds it does not end in `.py`. Where that ending tells the
language, the name can change hands once, from the least path of all to the
least path of a Python module. -/
namespace CodeAtlas

/-- The modules with a dotted name, in the order of their paths. -/
def ModuleTable.named (t : ModuleTable) (dotted : String) : List (String × ModuleRecord) :=
  t.toList.filter (·.2.dotted = dotted)

theorem ModuleTable.mem_named {t : ModuleTable} {dotted : String} {e : String × ModuleRecord} :
    e ∈ t.named dotted ↔ t.get? e.1 = some e.2 ∧ e.2.dotted = dotted := by
  rw [named, List.mem_filter, Dict.mem_toList, decide_eq_true_eq]

/-- The path is that of a module with some property, and no module with the
property has a smaller one. -/
def ModuleTable.Least (t : ModuleTable) (p : ModuleRecord → Prop) (path : String) : Prop :=
  (∃ m, t.get? path = some m ∧ p m) ∧ ∀ k m, t.get? k = some m → p m → path ≤ k

/-- Paths end in `.py` exactly if the module is a Python module. -/
def ModuleTable.EndingsTell (t : ModuleTable) : Prop :=
  ∀ e ∈ t.toList, Text.endsWith e.1 ".py" = true ↔ e.2.language = "py"

instance (t : ModuleTable) : Decidable t.EndingsTell :=
  inferInstanceAs (Decidable (∀ e ∈ t.toList, Text.endsWith e.1 ".py" = true ↔ e.2.language = "py"))

namespace RepoIndex

/-! ## One more module with the name -/

/-- Who holds a name when one more module with the name comes along. -/
def contest (holder : Option String) (e : String × ModuleRecord) : Option String :=
  match holder with
  | none => some e.1
  | some path =>
    if e.2.language = "py" ∧ Text.endsWith path ".py" = false then some e.1 else some path

variable {dotted : String}

theorem add_pathForDotted (index : RepoIndex) (path : String) (m : ModuleRecord)
    (hne : dotted ≠ "") :
    (index.add path m).pathForDotted dotted =
      if m.dotted = dotted then contest (index.pathForDotted dotted) (path, m)
        else index.pathForDotted dotted := by
  unfold pathForDotted
  by_cases hname : m.dotted = dotted
  · subst hname
    simp only [add, contest, hne, decide_false, Bool.false_or, if_true]
    cases hholder : index.byDotted.get? m.dotted with
    | none => simp
    | some holder =>
      by_cases hpython : m.language = "py" <;> cases hend : Text.endsWith holder ".py" <;>
        simp [hpython, hholder, hend]
  · rw [if_neg hname]
    rcases add_byDotted index path m with hsame | ⟨_, hnew⟩
    · rw [hsame]
    · rw [hnew, Dict.get?_insert, if_neg (Ne.symm hname)]

theorem foldl_add_pathForDotted (hne : dotted ≠ "") (l : List (String × ModuleRecord))
    (index : RepoIndex) :
    (l.foldl (fun index e => index.add e.1 e.2) index).pathForDotted dotted =
      (l.filter (·.2.dotted = dotted)).foldl contest (index.pathForDotted dotted) := by
  induction l generalizing index with
  | nil => rfl
  | cons e rest ih =>
    rw [List.foldl_cons, ih, add_pathForDotted index e.1 e.2 hne]
    by_cases hname : e.2.dotted = dotted <;> simp [hname]

/-- Modules with other names have no part in who owns a name. -/
theorem pathForDotted_build (t : ModuleTable) (hne : dotted ≠ "") :
    (build t).pathForDotted dotted = (t.named dotted).foldl contest none :=
  foldl_add_pathForDotted hne t.toList {}

theorem pathForDotted_build_empty (t : ModuleTable) : (build t).pathForDotted "" = none := by
  cases h : (build t).pathForDotted "" with
  | none => rfl
  | some path => exact absurd rfl (owner_dotted h).1

/-! ## Who holds it in the end -/

theorem foldl_contest_isSome (l : List (String × ModuleRecord)) (path : String) :
    ∃ holder, l.foldl contest (some path) = some holder := by
  induction l generalizing path with
  | nil => exact ⟨path, rfl⟩
  | cons e rest ih =>
    rw [List.foldl_cons]
    simp only [contest]
    split
    · exact ih e.1
    · exact ih path

/-- A name without an owner is empty or the name of no module. -/
theorem pathForDotted_build_eq_none_iff {t : ModuleTable} :
    (build t).pathForDotted dotted = none ↔ dotted = "" ∨ ∀ m ∈ t.values, m.dotted ≠ dotted := by
  constructor
  · intro h
    by_cases hne : dotted = ""
    · exact .inl hne
    · right
      intro m hm hdotted
      obtain ⟨k, hk⟩ := Dict.mem_values.mp hm
      have hmem : (k, m) ∈ t.named dotted := ModuleTable.mem_named.mpr ⟨hk, hdotted⟩
      obtain ⟨first, rest, hcons⟩ := List.exists_cons_of_ne_nil (List.ne_nil_of_mem hmem)
      obtain ⟨holder, hholder⟩ := foldl_contest_isSome rest first.1
      rw [pathForDotted_build t hne, hcons, List.foldl_cons] at h
      exact Option.some_ne_none holder (hholder.symm.trans h)
  · intro h
    rcases h with rfl | h
    · exact pathForDotted_build_empty t
    · exact no_owner h

theorem foldl_contest_of_python {path : String} (hpath : Text.endsWith path ".py" = true)
    (l : List (String × ModuleRecord)) : l.foldl contest (some path) = some path := by
  induction l with
  | nil => rfl
  | cons e rest ih =>
    have hstay : contest (some path) e = some path := by simp [contest, hpath]
    rw [List.foldl_cons, hstay, ih]

theorem foldl_contest_of_other {path : String} (hpath : Text.endsWith path ".py" = false)
    {l : List (String × ModuleRecord)}
    (h : ∀ e ∈ l, Text.endsWith e.1 ".py" = true ↔ e.2.language = "py") :
    l.foldl contest (some path) = some (((l.find? (·.2.language = "py")).map (·.1)).getD path) := by
  induction l with
  | nil => rfl
  | cons e rest ih =>
    obtain ⟨he, hrest⟩ := List.forall_mem_cons.mp h
    rw [List.foldl_cons, List.find?_cons]
    by_cases hpython : e.2.language = "py"
    · have htakes : contest (some path) e = some e.1 := by simp [contest, hpython, hpath]
      simp [htakes, foldl_contest_of_python (he.mpr hpython), hpython]
    · have hstay : contest (some path) e = some path := by simp [contest, hpython]
      simp [hstay, ih hrest, hpython]

/-- Where endings tell the language, the first Python module holds the name in
the end, and else the first of all. -/
theorem foldl_contest_eq {l : List (String × ModuleRecord)}
    (h : ∀ e ∈ l, Text.endsWith e.1 ".py" = true ↔ e.2.language = "py") :
    l.foldl contest none = ((l.find? (·.2.language = "py")).or l.head?).map (·.1) := by
  cases l with
  | nil => rfl
  | cons e rest =>
    obtain ⟨he, hrest⟩ := List.forall_mem_cons.mp h
    rw [List.foldl_cons, List.find?_cons]
    show rest.foldl contest (some e.1) = _
    by_cases hpython : e.2.language = "py"
    · simp [foldl_contest_of_python (he.mpr hpython), hpython]
    · have hend : Text.endsWith e.1 ".py" = false := by
        cases hends : Text.endsWith e.1 ".py" with
        | false => rfl
        | true => exact absurd (he.mp hends) hpython
      rw [foldl_contest_of_other hend hrest]
      cases hfound : rest.find? (·.2.language = "py") <;> simp [hpython]

/-- The first entry with a property has the least key of those that have it. -/
theorem le_of_find? {l : List (String × ModuleRecord)} (hs : l.Pairwise fun a b => a.1 < b.1)
    {p : String × ModuleRecord → Bool} {e x : String × ModuleRecord} (h : l.find? p = some e)
    (hx : x ∈ l) (hp : p x = true) : e.1 ≤ x.1 := by
  obtain ⟨_, front, back, rfl, hfront⟩ := List.find?_eq_some_iff_append.mp h
  rcases List.mem_append.mp hx with hx | hx
  · have hnot := hfront x hx
    rw [hp] at hnot
    cases hnot
  · rcases List.mem_cons.mp hx with rfl | hx
    · exact String.le_refl _
    · obtain ⟨_, hback, _⟩ := List.pairwise_append.mp hs
      have hlt := (List.pairwise_cons.mp hback).1 x hx
      exact String.not_lt.mp fun hgt => String.lt_irrefl _ (String.lt_trans hgt hlt)

variable {t : ModuleTable}

theorem least_of_find? {p : ModuleRecord → Bool} {e : String × ModuleRecord}
    (h : (t.named dotted).find? (fun e => p e.2) = some e) :
    t.Least (fun m => m.dotted = dotted ∧ p m = true) e.1 := by
  have hsorted : (t.named dotted).Pairwise fun a b => a.1 < b.1 := t.sorted.filter _
  obtain ⟨hget, hname⟩ := ModuleTable.mem_named.mp (List.mem_of_find?_eq_some h)
  have hp : p e.2 = true := by simpa using List.find?_some h
  refine ⟨⟨e.2, hget, hname, hp⟩, ?_⟩
  intro k m hk hm
  have hx : (k, m) ∈ t.named dotted := ModuleTable.mem_named.mpr ⟨hk, hm.1⟩
  exact le_of_find? hsorted h hx hm.2

/-- The owner of a name has the least path of the Python modules with the name,
or the least of all if none is one. -/
theorem owner_least (hendings : t.EndingsTell) {path : String}
    (h : (build t).pathForDotted dotted = some path) :
    t.Least (fun m => m.dotted = dotted ∧ m.language = "py") path ∨
      ((∀ m ∈ t.values, m.dotted = dotted → m.language ≠ "py") ∧
        t.Least (·.dotted = dotted) path) := by
  have hnamed : ∀ e ∈ t.named dotted, Text.endsWith e.1 ".py" = true ↔ e.2.language = "py" :=
    fun e he => hendings e (List.mem_filter.mp he).1
  rw [pathForDotted_build t (owner_dotted h).1, foldl_contest_eq hnamed] at h
  obtain ⟨e, he, rfl⟩ := Option.map_eq_some_iff.mp h
  rcases Option.or_eq_some_iff.mp he with hpython | ⟨hnone, hfirst⟩
  · left
    have hleast := @least_of_find? dotted t (fun m => decide (m.language = "py")) e hpython
    simpa only [decide_eq_true_eq] using hleast
  · right
    constructor
    · intro m hm hdotted hlanguage
      obtain ⟨k, hk⟩ := Dict.mem_values.mp hm
      exact List.find?_eq_none.mp hnone (k, m) (ModuleTable.mem_named.mpr ⟨hk, hdotted⟩)
        (decide_eq_true hlanguage)
    · have hfind : (t.named dotted).find? (fun _ => true) = some e := by
        obtain ⟨rest, hcons⟩ := List.head?_eq_some_iff.mp hfirst
        rw [hcons]
        rfl
      have hleast := @least_of_find? dotted t (fun _ => true) e hfind
      simpa only [and_true] using hleast

/-! ## Leading parts -/

theorem longestPrefixOf_eq_none_iff {index : RepoIndex} {segments : List String} {len : Nat} :
    index.longestPrefixOf segments len = none ↔
      ∀ n, 0 < n → n ≤ len → index.pathForDotted (Text.join "." (segments.take n)) = none := by
  induction len with
  | zero =>
    simp only [longestPrefixOf, true_iff]
    intro n hpos hle
    omega
  | succ len ih =>
    simp only [longestPrefixOf]
    constructor
    · intro h n hpos hle
      split at h
      · cases h
      · rename_i hnone
        by_cases hn : n = len + 1
        · rw [hn]; exact hnone
        · exact ih.mp h n hpos (by omega)
    · intro h
      rw [h (len + 1) (by omega) (Nat.le_refl _)]
      exact ih.mpr fun n hpos hle => h n hpos (by omega)

/-- **The index answers like a search over the table.** The files with a stem
are the keys with that stem in ascending order. A dotted name has no owner
exactly if it is empty or no module has it; else the owner is a module that has
it, and where endings of paths tell Python modules from others it has the least
path of the Python modules with the name, or the least of all if there is none.
The longest leading part of a name that has an owner is found with that owner,
and nothing is found exactly if no leading part has one. -/
theorem build_answers_like_search (t : ModuleTable) :
    (∀ stem, (build t).pathsForStem stem = t.keys.filter (Path.fileStem · = stem) ∧
      ((build t).pathsForStem stem).Pairwise (· < ·)) ∧
    (∀ dotted, ((build t).pathForDotted dotted = none ↔ dotted = "" ∨
      ∀ m ∈ t.values, m.dotted ≠ dotted) ∧
      ∀ path, (build t).pathForDotted dotted = some path →
        (∃ m, t.get? path = some m ∧ m.dotted = dotted) ∧
        (t.EndingsTell → t.Least (fun m => m.dotted = dotted ∧ m.language = "py") path ∨
          ((∀ m ∈ t.values, m.dotted = dotted → m.language ≠ "py") ∧
            t.Least (·.dotted = dotted) path))) ∧
    (∀ dotted, (∀ path n, (build t).longestPrefixModule dotted = some (path, n) ↔
        0 < n ∧ n ≤ (Text.split '.' dotted).length ∧
          (build t).pathForDotted (Text.join "." ((Text.split '.' dotted).take n)) = some path ∧
          ∀ j, n < j → j ≤ (Text.split '.' dotted).length →
            (build t).pathForDotted (Text.join "." ((Text.split '.' dotted).take j)) = none) ∧
      ((build t).longestPrefixModule dotted = none ↔ ∀ n, 0 < n →
        n ≤ (Text.split '.' dotted).length →
        (build t).pathForDotted (Text.join "." ((Text.split '.' dotted).take n)) = none)) := by
  refine ⟨?_, ?_, ?_⟩
  · intro stem
    have hkeys : t.keys.Pairwise (· < ·) := List.pairwise_map.mpr t.sorted
    rw [pathsForStem_build]
    exact ⟨rfl, hkeys.filter _⟩
  · intro dotted
    refine ⟨pathForDotted_build_eq_none_iff, ?_⟩
    intro path hpath
    exact ⟨(owner_dotted hpath).2, fun hendings => owner_least hendings hpath⟩
  · intro dotted
    exact ⟨fun path n => longestPrefixOf_eq_some_iff, longestPrefixOf_eq_none_iff⟩

/-- Three files and a package with one name, the first of which is no
Python module. -/
def clashTable : ModuleTable :=
  .ofList ([("pkg/a.js", "js"), ("pkg/a.py", "py"), ("pkg/a.ts", "ts"),
    ("pkg/a/__init__.py", "py")].zipIdx 1 |>.map fun e =>
  (e.1.1, .skeleton e.2 e.1.1 (Path.dottedName e.1.1) e.1.2 {}))

/-- The name passes from the first file to the first Python module and stays
there. -/
theorem clashTable_owner :
    clashTable.EndingsTell ∧ (build clashTable).pathForDotted "pkg.a" = some "pkg/a.py" ∧
    clashTable.Least (fun m => m.dotted = "pkg.a" ∧ m.language = "py") "pkg/a.py" ∧
    (build clashTable).longestPrefixModule "pkg.a.f" = some ("pkg/a.py", 2) := by
  have hendings : clashTable.EndingsTell := by decide +kernel
  have howner : (build clashTable).pathForDotted "pkg.a" = some "pkg/a.py" := by decide +kernel
  obtain ⟨_, hnames, hleading⟩ := build_answers_like_search clashTable
  refine ⟨hendings, howner, ?_, ?_⟩
  · rcases ((hnames "pkg.a").2 "pkg/a.py" howner).2 hendings with hleast | ⟨hnone, _⟩
    · exact hleast
    · exact absurd hnone (by decide +kernel)
  · refine ((hleading "pkg.a.f").1 "pkg/a.py" 2).mpr ⟨by decide, by decide, by decide +kernel, ?_⟩
    intro j hj hle
    have hlength : (Text.split '.' "pkg.a.f").length = 3 := by decide
    obtain rfl : j = 3 := by omega
    decide +kernel

end RepoIndex

end CodeAtlas
