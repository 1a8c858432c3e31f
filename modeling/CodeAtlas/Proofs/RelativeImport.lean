import CodeAtlas.Proofs.Identity
import CodeAtlas.Proofs.Places

/-! # A relative import names one module

A relative import is read twice: as the dotted name that the names it binds
start with, and as the path of the file that it needs. Both are put together
from the same directories and segments, one with dots and one with slashes.
Turning the path into a dotted name gives the first back, whether the path is
that of a package file, of a file at the root, or of a file further down. So
the module that an index finds for the path has the dotted name that the bound
names start with. -/
namespace CodeAtlas

open Text

/-! ## Paths of steps -/

namespace Text

theorem join_append_last (sep : String) (front : List String) (last tail : String) :
    join sep (front ++ [last]) ++ tail = join sep (front ++ [last ++ tail]) := by
  cases front with
  | nil => simp [join, joinChars]
  | cons first rest =>
    apply String.toList_injective
    simp only [join, String.toList_append, String.toList_ofList, List.map_append]
    rw [joinChars_append _ (by simp) (by simp), joinChars_append _ (by simp) (by simp)]
    simp [joinChars]

theorem split_join_slashes {steps : List String} (hne : steps ≠ [])
    (h : ∀ s ∈ steps, '/' ∉ s.toList) : split '/' (join "/" steps) = steps :=
  split_join '/' steps hne h

theorem map_joinChars {c d : Char} {pieces : List (List Char)} (h : ∀ p ∈ pieces, c ∉ p) :
    (joinChars [c] pieces).map (fun x => if x = c then d else x) = joinChars [d] pieces := by
  have hkeep : ∀ p ∈ pieces, p.map (fun x => if x = c then d else x) = p := by
    intro p hp
    rw [List.map_congr_left (g := id) ?_, List.map_id]
    intro x hx
    have hne : x ≠ c := fun he => h p hp (he ▸ hx)
    simp [hne]
  induction pieces with
  | nil => rfl
  | cons p rest ih =>
    obtain ⟨hp, hrest⟩ := List.forall_mem_cons.mp hkeep
    cases rest with
    | nil => simpa [joinChars] using hp
    | cons q more =>
      have hmore := ih (fun x hx => h x (by simp [hx])) hrest
      simp only [joinChars, List.map_append, hp, hmore]
      simp

/-- Steps with dots between them, from the path that has slashes there. -/
theorem replaceChar_join {steps : List String} (h : ∀ s ∈ steps, '/' ∉ s.toList) :
    replaceChar '/' '.' (join "/" steps) = join "." steps := by
  have hchars : ∀ p ∈ steps.map String.toList, '/' ∉ p := by
    intro p hp
    obtain ⟨s, hs, rfl⟩ := List.mem_map.mp hp
    exact h s hs
  simp only [replaceChar, join, String.toList_ofList]
  exact congrArg String.ofList (map_joinChars hchars)

theorem join_slash_eq_empty_iff {steps : List String} (h : ∀ s ∈ steps, s ≠ "" ∧ '/' ∉ s.toList) :
    join "/" steps = "" ↔ steps = [] := by
  constructor
  · intro hempty
    by_contra hne
    apply join_ne_empty hne fun s hs => (h s hs).1
    rw [← replaceChar_join fun s hs => (h s hs).2, hempty]
    rfl
  · rintro rfl
    rfl

end Text

namespace Path

variable {front : List String} {name : String}

theorem fileName_join (hfront : ∀ s ∈ front, '/' ∉ s.toList) (hname : '/' ∉ name.toList) :
    fileName (Text.join "/" (front ++ [name])) = name := by
  have hsteps : ∀ s ∈ front ++ [name], '/' ∉ s.toList := by
    simpa [or_imp, forall_and] using ⟨hfront, hname⟩
  have hlast := fileName_eq_getLast (Text.join "/" (front ++ [name]))
  rw [split_join_slashes (by simp) hsteps, List.getLast?_append] at hlast
  exact (Option.some.inj hlast).symm

theorem directory_join (hfront : ∀ s ∈ front, '/' ∉ s.toList) (hname : '/' ∉ name.toList) :
    (beforeLast? '/' (Text.join "/" (front ++ [name]))).getD "" = Text.join "/" front := by
  have hsteps : ∀ s ∈ front ++ [name], '/' ∉ s.toList := by
    simpa [or_imp, forall_and] using ⟨hfront, hname⟩
  unfold beforeLast?
  rw [split_join_slashes (by simp) hsteps]
  cases front with
  | nil => rfl
  | cons first rest =>
    cases hrest : rest ++ [name] with
    | nil => simp at hrest
    | cons second more =>
      rw [List.cons_append, hrest]
      show Text.join "/" (first :: second :: more).dropLast = _
      rw [← hrest, ← List.cons_append, List.dropLast_concat]

theorem beforeLast?_extension (stem : String) : beforeLast? '.' (stem ++ ".py") = some stem := by
  have hsplit : split '.' (stem ++ ".py") = split '.' stem ++ ["py"] := by
    have hcut := split_separator '.' stem "py"
    rw [String.append_assoc] at hcut
    exact hcut
  obtain ⟨first, rest, hstem⟩ := List.exists_cons_of_ne_nil (split_ne_nil '.' stem)
  have hjoin := join_split_dots stem
  rw [hstem] at hjoin
  unfold beforeLast?
  rw [hsplit, hstem]
  cases rest with
  | nil => exact congrArg some hjoin
  | cons second more =>
    show some (Text.join "." ((first :: second :: more) ++ ["py"]).dropLast) = _
    rw [List.dropLast_concat, hjoin]

theorem fileStem_of_fileName {path stem : String} (h : fileName path = stem ++ ".py")
    (hne : stem ≠ "") : fileStem path = stem := by
  simp only [fileStem, h, beforeLast?_extension]

/-- The dotted name of a package file is that of its directory. -/
theorem dottedName_package (hfront : ∀ s ∈ front, '/' ∉ s.toList) :
    dottedName (Text.join "/" (front ++ [packageFile])) = Text.join "." front := by
  have hname : '/' ∉ packageFile.toList := by decide
  simp only [dottedName, isPackageInit, fileName_join hfront hname, decide_true, if_true]
  rw [directory_join hfront hname, replaceChar_join hfront]

/-- The dotted name of any other Python file ends in its stem. -/
theorem dottedName_file {stem : String} (hfront : ∀ s ∈ front, s ≠ "" ∧ '/' ∉ s.toList)
    (hstem : stem ≠ "" ∧ '/' ∉ stem.toList) (hinit : stem ≠ "__init__") :
    dottedName (Text.join "/" (front ++ [stem ++ ".py"])) = Text.join "." (front ++ [stem]) := by
  have hslashes : ∀ s ∈ front, '/' ∉ s.toList := fun s hs => (hfront s hs).2
  have hname : '/' ∉ (stem ++ ".py").toList := by simp [hstem.2]
  have hfile := fileName_join hslashes hname
  have hpackage : stem ++ ".py" ≠ packageFile := by
    intro he
    have hchars := congrArg String.toList he
    have hinitChars : packageFile.toList = "__init__".toList ++ ".py".toList := by decide
    rw [String.toList_append, hinitChars] at hchars
    exact hinit (String.toList_injective (List.append_cancel_right hchars))
  simp only [dottedName, isPackageInit, hfile, hpackage, decide_false, Bool.false_eq_true, if_false,
    fileStem_of_fileName hfile hstem.1, directory_join hslashes hname, replaceChar_join hslashes,
    join_slash_eq_empty_iff hfront]
  by_cases hroot : front = []
  · rw [if_pos hroot, hroot, List.nil_append, join_singleton]
  · rw [if_neg hroot, join_append hroot (by simp), join_singleton]

end Path

/-! ## Both readings of a relative import -/

namespace Import

variable {dirs rest : List String}

/-- A level drops one directory less than it has dots, as far as there are
directories. -/
theorem ancestorDirs_append (dirs : List String) (level : Nat) :
    ∃ dropped, ancestorDirs dirs level ++ dropped = dirs ∧
      dropped.length = min (level - 1) dirs.length := by
  refine ⟨dirs.drop (dirs.length - (level - 1)), List.take_append_drop _ _, ?_⟩
  rw [List.length_drop]
  omega

theorem ancestorDirs_of_high {level : Nat} (h : dirs.length + 1 ≤ level) :
    ancestorDirs dirs level = [] := by
  have hnone : dirs.length - (level - 1) = 0 := by omega
  rw [ancestorDirs, hnone, List.take_zero]

/-- The path of a relative import has the dotted name that its bound names
start with. -/
theorem dottedName_relativePath (hdirs : ∀ s ∈ dirs, s ≠ "" ∧ '/' ∉ s.toList) (level : Nat)
    (hrest : ∀ s ∈ rest, s ≠ "" ∧ '/' ∉ s.toList) (hlast : rest.getLast? ≠ some "__init__") :
    Path.dottedName (relativePath dirs level rest) = relativeBase dirs level rest := by
  have hancestors : ∀ s ∈ ancestorDirs dirs level, s ≠ "" ∧ '/' ∉ s.toList :=
    fun s hs => hdirs s (List.mem_of_mem_take hs)
  simp only [relativePath, relativeBase]
  split
  · rename_i hnil
    rw [hnil, List.append_nil]
    exact Path.dottedName_package fun s hs => (hancestors s hs).2
  · rename_i hne
    obtain ⟨front, last, rfl⟩ : ∃ front last, rest = front ++ [last] :=
      ⟨rest.dropLast, rest.getLast hne, (List.dropLast_concat_getLast hne).symm⟩
    have hinit : last ≠ "__init__" := by
      rintro rfl
      exact hlast (by simp)
    have hfront : ∀ s ∈ ancestorDirs dirs level ++ front, s ≠ "" ∧ '/' ∉ s.toList := by
      intro s hs
      rcases List.mem_append.mp hs with hs | hs
      · exact hancestors s hs
      · exact hrest s (by simp [hs])
    rw [← List.append_assoc, join_append_last]
    exact Path.dottedName_file hfront (hrest last (by simp)) hinit

/-- A package file that is named as such is the exception. -/
example : Path.dottedName (relativePath ["pkg"] 1 ["__init__"]) = "pkg" ∧
    relativeBase ["pkg"] 1 ["__init__"] = "pkg.__init__" := by decide +kernel

theorem packageDirs_undivided {file : String} : ∀ s ∈ packageDirs file, '/' ∉ s.toList := by
  intro s hs
  exact not_mem_of_mem_split (List.dropLast_subset _ hs)

end Import

/-! ## What an index finds for the path -/

/-- Every module has the dotted name of its path. -/
def ModuleTable.NamedByPath (t : ModuleTable) : Prop :=
  ∀ k m, t.get? k = some m → m.dotted = Path.dottedName k

theorem indexFiles_namedByPath (h : HeuristicsConfig) (files : List SourceFile) :
    ModuleTable.NamedByPath (indexFiles h files) := by
  intro k m hk
  obtain ⟨file, id, _, rfl, rfl⟩ := indexFiles_origin hk
  rfl

namespace RepoIndex

variable {t : ModuleTable}

/-- A path names its own file if there is one, and else the module with its
dotted name. -/
theorem resolveToken_path (t : ModuleTable) (path : String) :
    (build t).resolveToken (.path path) =
      if path ∈ t.keys then [path]
        else ((build t).pathForDotted (Path.dottedName path)).toList := by
  have hfile : ((build t).pathsForStem (Path.fileStem path)).contains path = true ↔
      path ∈ t.keys := by
    rw [List.contains_iff_mem, pathsForStem_build, List.mem_filter]
    simp
  simp only [resolveToken, hfile]

theorem resolveToken_path_dotted (ht : t.NamedByPath) {path found : String}
    (h : found ∈ (build t).resolveToken (.path path)) :
    ∃ m, t.get? found = some m ∧ m.dotted = Path.dottedName path := by
  rw [resolveToken_path] at h
  split at h
  · rename_i hkey
    obtain ⟨m, hm⟩ := Dict.mem_keys.mp hkey
    rw [List.mem_singleton.mp h]
    exact ⟨m, hm, ht path m hm⟩
  · exact (owner_dotted (Option.mem_toList.mp h)).2

end RepoIndex

namespace Import

open Python

/-- **A relative import names one module.** Take a file in any directories and
a relative import with any number of dots and any segments behind them that
does not name a package file. The path that it needs has the dotted name that
the names it binds start with. Dots beyond the root change nothing more. In the
index of any files the path names the file itself if there is one, or else the
one module that owns the dotted name, if there is one; so whatever it names has
that dotted name. -/
theorem relative_import_names_one_module {file base path : String}
    (hfile : ∀ s ∈ packageDirs file, s ≠ "") {level : Nat} {rest : List String}
    (hrest : ∀ s ∈ rest, s ≠ "" ∧ '/' ∉ s.toList) (hlast : rest.getLast? ≠ some "__init__")
    (hbase : relativeBase (packageDirs file) level rest = base)
    (hpath : relativePath (packageDirs file) level rest = path) :
    Path.dottedName path = base ∧
    (∀ n module, n.child? .moduleName = some module → module.kind = .relativeImport →
      Import.level module = level →
      remainder module = rest → ∃ i, ofFrom (packageDirs file) n = some i ∧ i.token = .path path ∧
        i.bindings = (names n).map fun e => (e.2, origin base e.1)) ∧
    (∃ dropped, ancestorDirs (packageDirs file) level ++ dropped = packageDirs file ∧
      dropped.length = min (level - 1) (packageDirs file).length) ∧
    ((packageDirs file).length + 1 ≤ level →
      relativeBase (packageDirs file) ((packageDirs file).length + 1) rest = base ∧
      relativePath (packageDirs file) ((packageDirs file).length + 1) rest = path) ∧
    ∀ (h : HeuristicsConfig) (files : List SourceFile),
      (RepoIndex.build (indexFiles h files)).resolveToken (.path path) =
        (if path ∈ (indexFiles h files).keys then [path]
          else ((RepoIndex.build (indexFiles h files)).pathForDotted base).toList) ∧
      ∀ found ∈ (RepoIndex.build (indexFiles h files)).resolveToken (.path path),
        ∃ m, (indexFiles h files).get? found = some m ∧ m.dotted = base := by
  have hdirs : ∀ s ∈ packageDirs file, s ≠ "" ∧ '/' ∉ s.toList :=
    fun s hs => ⟨hfile s hs, packageDirs_undivided s hs⟩
  have hdotted : Path.dottedName path = base := by
    rw [← hbase, ← hpath]
    exact dottedName_relativePath hdirs level hrest hlast
  refine ⟨hdotted, ?_, ancestorDirs_append _ _, ?_, ?_⟩
  · intro n module hmodule hkind hlevel hremainder
    simp [ofFrom, hmodule, hkind, hlevel, hremainder, hbase, hpath]
  · intro hhigh
    rw [← hbase, ← hpath]
    simp only [relativeBase, relativePath, ancestorDirs_of_high hhigh,
      ancestorDirs_of_high (Nat.le_refl _), and_self]
  · intro h files
    constructor
    · rw [RepoIndex.resolveToken_path, hdotted]
    · intro found hfound
      rw [← hdotted]
      exact RepoIndex.resolveToken_path_dotted (indexFiles_namedByPath h files) hfound

def packagedFiles : List SourceFile :=
  [⟨"pkg/app/main.py", "py"⟩, ⟨"pkg/lib/core/__init__.py", "py"⟩]

/-- An import of `..lib.core` needs a file that is not there, and finds the
package with the same dotted name. -/
theorem relative_import_finds_package :
    relativePath (packageDirs "pkg/app/main.py") 2 ["lib", "core"] = "pkg/lib/core.py" ∧
      Path.dottedName "pkg/lib/core.py" = "pkg.lib.core" ∧
      (RepoIndex.build (indexFiles {} packagedFiles)).resolveToken (.path "pkg/lib/core.py") =
        ["pkg/lib/core/__init__.py"] := by
  have hbase : relativeBase (packageDirs "pkg/app/main.py") 2 ["lib", "core"] = "pkg.lib.core" := by
    decide +kernel
  have hpath : relativePath (packageDirs "pkg/app/main.py") 2 ["lib", "core"] =
      "pkg/lib/core.py" := by decide +kernel
  obtain ⟨hdotted, _, _, _, hindex⟩ :=
    relative_import_names_one_module (by decide +kernel) (by decide) (by decide) hbase hpath
  refine ⟨hpath, hdotted, ?_⟩
  rw [(hindex {} packagedFiles).1]
  decide +kernel

end Import

end CodeAtlas
