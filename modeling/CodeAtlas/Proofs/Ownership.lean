import CodeAtlas.Module.Index
import CodeAtlas.Proofs.DictLaws

/-! # Who owns a dotted name

The index of a table is built by one pass over it. It reads nothing of a record
but its dotted name and its language, and it gives a name only to a module that
has it. The module of a longer name is found by trying leading parts from the
longest to the shortest. -/
namespace CodeAtlas

namespace RepoIndex

/-! ## What the index depends on -/

theorem add_congr (index : RepoIndex) (path : String) {m m' : ModuleRecord}
    (hdotted : m.dotted = m'.dotted) (hlanguage : m.language = m'.language) :
    index.add path m = index.add path m' := by
  simp only [add, hdotted, hlanguage]

theorem foldl_add_map {f : String × ModuleRecord → String × ModuleRecord}
    (hpath : ∀ e, (f e).1 = e.1) (l : List (String × ModuleRecord))
    (hdotted : ∀ e ∈ l, (f e).2.dotted = e.2.dotted)
    (hlanguage : ∀ e ∈ l, (f e).2.language = e.2.language) (index : RepoIndex) :
    (l.map f).foldl (fun index e => index.add e.1 e.2) index =
      l.foldl (fun index e => index.add e.1 e.2) index := by
  induction l generalizing index with
  | nil => rfl
  | cons e rest ih =>
    rw [List.map_cons, List.foldl_cons, List.foldl_cons, hpath e,
      add_congr index e.1 (hdotted e (by simp)) (hlanguage e (by simp))]
    exact ih (fun x hx => hdotted x (by simp [hx])) (fun x hx => hlanguage x (by simp [hx])) _

/-! ## Owners have the name they own -/

/-- All names in an index are names of modules in a list. -/
def Names (index : RepoIndex) (l : List (String × ModuleRecord)) : Prop :=
  ∀ dotted path, index.pathForDotted dotted = some path → dotted ≠ "" ∧ ∃ m, (path, m) ∈ l ∧
    m.dotted = dotted

/-- Adding a module leaves the names as they are, or gives the module its own name. -/
theorem add_byDotted (index : RepoIndex) (path : String) (m : ModuleRecord) :
    (index.add path m).byDotted = index.byDotted ∨
      (m.dotted ≠ "" ∧ (index.add path m).byDotted = index.byDotted.insert m.dotted path) := by
  simp only [add]
  by_cases hempty : m.dotted = ""
  · simp [hempty]
  · simp only [hempty, decide_false, Bool.false_or]
    split
    · split
      · exact .inl rfl
      · exact .inr ⟨hempty, rfl⟩
    · exact .inr ⟨hempty, rfl⟩

theorem add_names {index : RepoIndex} {l : List (String × ModuleRecord)} (h : index.Names l)
    (path : String) (m : ModuleRecord) : (index.add path m).Names (l ++ [(path, m)]) := by
  have hold : index.Names (l ++ [(path, m)]) := by
    intro dotted path' hp
    obtain ⟨hne, m', hm', hd⟩ := h dotted path' hp
    exact ⟨hne, m', by simp [hm'], hd⟩
  intro dotted path' hp
  unfold pathForDotted at hp
  rcases add_byDotted index path m with hsame | ⟨hne, hnew⟩
  · rw [hsame] at hp
    exact hold dotted path' hp
  · rw [hnew, Dict.get?_insert] at hp
    split at hp
    · rename_i hname
      cases hp
      exact ⟨hname ▸ hne, m, by simp, hname.symm⟩
    · exact hold dotted path' hp

theorem foldl_add_names (l seen : List (String × ModuleRecord)) {index : RepoIndex}
    (h : index.Names seen) :
    (l.foldl (fun index e => index.add e.1 e.2) index).Names (seen ++ l) := by
  induction l generalizing seen index with
  | nil => simpa using h
  | cons e rest ih =>
    have hstep := ih (seen ++ [e]) (add_names h e.1 e.2)
    simpa using hstep

/-- The owner of a name is a module of the table with that name, which is not
empty. -/
theorem owner_dotted {t : ModuleTable} {dotted path : String}
    (h : (build t).pathForDotted dotted = some path) :
    dotted ≠ "" ∧ ∃ m, t.get? path = some m ∧ m.dotted = dotted := by
  have hempty : RepoIndex.Names {} [] := by
    intro dotted path hp
    cases hp
  obtain ⟨hne, m, hm, hd⟩ := foldl_add_names t.toList [] hempty dotted path h
  exact ⟨hne, m, Dict.mem_toList.mp hm, hd⟩

theorem no_owner {t : ModuleTable} {dotted : String} (h : ∀ m ∈ t.values, m.dotted ≠ dotted) :
    (build t).pathForDotted dotted = none := by
  cases hp : (build t).pathForDotted dotted with
  | none => rfl
  | some path =>
    obtain ⟨_, m, hm, hd⟩ := owner_dotted hp
    exact absurd hd (h m (Dict.mem_values_of_get? hm))

/-! ## Files by stem -/

theorem add_pathsForStem (index : RepoIndex) (path : String) (m : ModuleRecord) (stem : String) :
    (index.add path m).pathsForStem stem =
      index.pathsForStem stem ++ if Path.fileStem path = stem then [path] else [] := by
  simp only [pathsForStem, add, Dict.get?_insert]
  by_cases h : stem = Path.fileStem path
  · simp [h]
  · simp [h, Ne.symm h]

theorem foldl_add_pathsForStem (l : List (String × ModuleRecord)) (index : RepoIndex)
    (stem : String) :
    (l.foldl (fun index e => index.add e.1 e.2) index).pathsForStem stem =
      index.pathsForStem stem ++ (l.map (·.1)).filter (Path.fileStem · = stem) := by
  induction l generalizing index with
  | nil => simp
  | cons e rest ih =>
    rw [List.foldl_cons, ih, add_pathsForStem, List.append_assoc, List.map_cons, List.filter_cons]
    by_cases h : Path.fileStem e.1 = stem <;> simp [h]

/-- The files with a stem are those of the table, in the order of the table. -/
theorem pathsForStem_build (t : ModuleTable) (stem : String) :
    (build t).pathsForStem stem = t.keys.filter (Path.fileStem · = stem) := by
  have hempty : ({} : RepoIndex).pathsForStem stem = [] := rfl
  unfold build
  rw [foldl_add_pathsForStem, hempty, List.nil_append]
  rfl

/-! ## The longest leading part -/

variable {index : RepoIndex} {segments : List String}

/-- The search gives the owner of the longest leading part, within a bound,
that has one. -/
theorem longestPrefixOf_eq_some_iff {len n : Nat} {path : String} :
    index.longestPrefixOf segments len = some (path, n) ↔
      0 < n ∧ n ≤ len ∧ index.pathForDotted (Text.join "." (segments.take n)) = some path ∧
        ∀ j, n < j → j ≤ len → index.pathForDotted (Text.join "." (segments.take j)) = none := by
  induction len with
  | zero =>
    simp only [longestPrefixOf, reduceCtorEq, false_iff]
    rintro ⟨hpos, hle, _⟩
    omega
  | succ len ih =>
    simp only [longestPrefixOf]
    cases hp : index.pathForDotted (Text.join "." (segments.take (len + 1))) with
    | some owner =>
      simp only [Option.some.injEq, Prod.mk.injEq]
      constructor
      · rintro ⟨rfl, rfl⟩
        exact ⟨by omega, Nat.le_refl _, hp, fun j hj hle => by omega⟩
      · rintro ⟨_, hle, howner, hlonger⟩
        by_cases hn : n = len + 1
        · subst hn
          rw [hp] at howner
          exact ⟨Option.some.inj howner, rfl⟩
        · have hnone := hlonger (len + 1) (by omega) (Nat.le_refl _)
          rw [hp] at hnone
          cases hnone
    | none =>
      simp only [ih]
      constructor
      · rintro ⟨hpos, hle, howner, hlonger⟩
        refine ⟨hpos, by omega, howner, ?_⟩
        intro j hj hle'
        by_cases hl : j = len + 1
        · rw [hl]; exact hp
        · exact hlonger j hj (by omega)
      · rintro ⟨hpos, hle, howner, hlonger⟩
        have hne : n ≠ len + 1 := by
          intro he
          rw [he, hp] at howner
          cases howner
        exact ⟨hpos, by omega, howner, fun j hj hle' => hlonger j hj (by omega)⟩

end RepoIndex

end CodeAtlas
