import CodeAtlas.Proofs.DottedName
import CodeAtlas.Extract.Import
import Mathlib.Logic.Function.Iterate

/-! # Ways to import a module

A module is imported by its dotted name, as a name of the package that it
is in, or as a name of a package found by going up from the directory of the
file. `Denotes` says of each way which module it is about. All of them bind a
name to the dotted name of that module, so calls through the bound name, and
calls that spell out the dotted name, meet in one place. -/
namespace CodeAtlas

open Python Text

namespace Import

/-! ## What import statements say -/

/-- An entry of an import list, with the name it imports and the name it binds. -/
inductive Entry (c : Node) : String → String → Prop
  | renamed {name bound : Node} : c.kind = .aliasedImport → c.child? .name = some name →
      c.child? .alias = some bound →
      Entry c name.text bound.text
  | asWritten : c.kind ≠ .aliasedImport → Entry c c.text c.text

/-- The dots and the segments of a relative module name, where the segments are
written without blanks around the dots. -/
inductive Relative (module : Node) : Nat → List String → Prop
  | dots {dots : Node} {up : Nat} : module.children.find? (·.kind = .importPrefix) = some dots →
      dots.text.toList.count '.' = up + 1 → module.children.find? (·.kind = .dottedName) = none →
        Relative module up []
  | segments {dots name : Node} {up : Nat} {rest : List String} :
      module.children.find? (·.kind = .importPrefix) = some dots →
      dots.text.toList.count '.' = up + 1 →
      module.children.find? (·.kind = .dottedName) = some name →
      name.text = join "." rest → rest ≠ [] →
      (∀ s ∈ rest, s ≠ "" ∧ '.' ∉ s.toList ∧ trim s = s) → Relative module up rest

/-- In a file in these directories, the import of `name` by the statement `n`
is about the module with these segments. Each dot after the first goes up one
directory. -/
inductive Denotes (dirs : List String) (n : Node) : String → List String → Prop
  | plain {segments : List String} : n.kind = .importStatement →
      Denotes dirs n (join "." segments) segments
  | absolute {module : Node} {package : List String} {name : String} :
      n.kind = .importFromStatement →
      n.child? .moduleName = some module → module.kind ≠ .relativeImport →
        module.text = join "." package →
      Denotes dirs n name (package ++ [name])
  | relative {module : Node} {up : Nat} {rest package : List String} {name : String} :
      n.kind = .importFromStatement →
      n.child? .moduleName = some module → module.kind = .relativeImport → Relative module up rest →
      join "." (List.dropLast^[up] dirs ++ rest) = join "." package →
        Denotes dirs n name (package ++ [name])

/-- The names that a node binds if it is an import statement. -/
def boundNames (n : Node) : List String :=
  if n.kind = .importStatement ∨ n.kind = .importFromStatement then (names n).map (·.2) else []

/-- The statement `n` of a file imports `name` as `bound`, and nothing after
that binds `bound` again. -/
structure LastBinding (root n : Node) (name bound : String) : Prop where
  statement : ∃ before after, root.nodes = before ++ n :: after ∧
    ∀ later ∈ after, bound ∉ boundNames later
  entry : ∃ front c back, n.children = front ++ c :: back ∧ c.field = some .name ∧
    Entry c name bound ∧
    ∀ later ∈ back, later.field = some .name → (listed later).map (·.2) ≠ some bound

/-! ## What the statements bind -/

theorem Entry.listed {c : Node} {name bound : String} (h : Entry c name bound) :
    Import.listed c = some (name, bound) := by
  cases h with
  | renamed hkind hname hbound => simp [Import.listed, hkind, hname, hbound]
  | asWritten hkind => simp [Import.listed, hkind]

theorem ancestorDirs_succ (dirs : List String) (up : Nat) :
    ancestorDirs dirs (up + 1) = List.dropLast^[up] dirs := by
  induction up with
  | zero => simp [ancestorDirs]
  | succ up ih =>
    rw [Function.iterate_succ_apply', ← ih]
    simp only [ancestorDirs, Nat.add_sub_cancel, List.dropLast_eq_take, List.take_take,
      List.length_take]
    congr 1
    omega

theorem Relative.level {module : Node} {up : Nat} {rest : List String}
    (h : Relative module up rest) : Import.level module = up + 1 := by
  cases h with
  | dots hdots hcount | segments hdots hcount => simp [Import.level, hdots, hcount]

theorem Relative.remainder {module : Node} {up : Nat} {rest : List String}
    (h : Relative module up rest) : Import.remainder module = rest := by
  cases h with
  | dots _ _ hnone => simp [Import.remainder, hnone]
  | segments _ _ hname htext hne hrest =>
    simp only [Import.remainder, hname, htext]
    rw [split_join_dots hne fun s hs => (hrest s hs).2.1]
    have htrim : rest.map trim = rest := by
      calc rest.map trim = rest.map id := List.map_congr_left fun s hs => (hrest s hs).2.2
        _ = rest := List.map_id rest
    rw [htrim, List.filter_eq_self]
    exact fun s hs => decide_eq_true (hrest s hs).1

theorem origin_join {package : List String} (h : ∀ s ∈ package, s ≠ "") (name : String) :
    origin (join "." package) name = join "." (package ++ [name]) := by
  cases package with
  | nil => simp [origin, join, joinChars]
  | cons s rest =>
    have hne : join "." (s :: rest) ≠ "" := join_ne_empty (by simp) h
    rw [origin, if_neg hne, join_append (by simp) (by simp), join_singleton]

theorem mem_boundNames {dirs : List String} {n : Node} {b : String × String}
    (h : b ∈ (ofNode dirs n).flatMap (·.bindings)) : b.1 ∈ boundNames n := by
  obtain ⟨i, hi, hb⟩ := List.mem_flatMap.mp h
  unfold ofNode at hi
  split at hi
  · rename_i hkind
    obtain ⟨e, he, rfl⟩ := List.mem_map.mp hi
    rw [List.mem_singleton.mp hb, boundNames, if_pos (.inl hkind)]
    exact List.mem_map_of_mem he
  · rename_i hkind
    obtain ⟨module, _, hmodule⟩ := Option.bind_eq_some_iff.mp (Option.mem_toList.mp hi)
    cases hmodule
    obtain ⟨e, he, rfl⟩ := List.mem_map.mp hb
    rw [boundNames, if_pos (.inr hkind)]
    exact List.mem_map_of_mem he
  · cases hi

/-- Every way to import binds the names of its list by one rule, which sends
the module to its dotted name. -/
theorem Denotes.bindings {dirs : List String} {n : Node} {name : String} {segments : List String}
    (h : Denotes dirs n name segments) (hnamed : ∀ s ∈ segments, s ≠ "") :
    ∃ full : String → String, full name = join "." segments ∧
      (ofNode dirs n).flatMap (·.bindings) = (names n).map fun e => (e.2, full e.1) := by
  cases h with
  | plain hkind =>
    refine ⟨id, rfl, ?_⟩
    simp only [ofNode, hkind, ofPlain, List.flatMap_map, id]
    rw [List.map_eq_flatMap]
  | @absolute module package _ hkind hmodule hrelative htext =>
    refine ⟨origin module.text, ?_, ?_⟩
    · rw [htext, origin_join fun s hs => hnamed s (by simp [hs])]
    · simp [ofNode, ofFrom, hkind, hmodule, hrelative]
  | @relative module up rest package _ hkind hmodule hrelative hshape hpackage =>
    refine ⟨origin (join "." package), origin_join (fun s hs => hnamed s (by simp [hs])) name, ?_⟩
    have hbase : relativeBase dirs (level module) (remainder module) = join "." package := by
      rw [relativeBase, hshape.level, hshape.remainder, ancestorDirs_succ, hpackage]
    simp [ofNode, ofFrom, hkind, hmodule, hrelative, hbase]

theorem LastBinding.names {root n : Node} {name bound : String}
    (h : LastBinding root n name bound) :
    ∃ front back, Import.names n = front ++ (name, bound) :: back ∧ ∀ e ∈ back, e.2 ≠ bound := by
  obtain ⟨front, c, back, hchildren, hfield, hentry, hlast⟩ := h.entry
  refine ⟨(front.filter (·.field = some .name)).filterMap listed,
    (back.filter (·.field = some .name)).filterMap listed, ?_, ?_⟩
  · rw [Import.names, hchildren, List.filter_append,
      List.filter_cons_of_pos (by simpa using hfield), List.filterMap_append,
      List.filterMap_cons_some hentry.listed]
  · intro e he hbound
    obtain ⟨later, hlater, he⟩ := List.mem_filterMap.mp he
    obtain ⟨hback, hname⟩ := List.mem_filter.mp hlater
    exact hlast later hback (of_decide_eq_true hname) (by rw [he, Option.map_some, hbound])

/-- The last import of a name decides what the file means by it. -/
theorem aliases_last {file : String} {root n : Node} {name bound : String} {segments : List String}
    (h : LastBinding root n name bound) (hdenotes : Denotes (packageDirs file) n name segments)
    (hnamed : ∀ s ∈ segments, s ≠ "") :
    (ImportTable.ofModule file root).aliases.get? bound = some (join "." segments) := by
  obtain ⟨before, after, hnodes, hafter⟩ := h.statement
  obtain ⟨front, back, hnames, hback⟩ := h.names
  obtain ⟨full, hfull, hbindings⟩ := hdenotes.bindings hnamed
  have hall : (Import.all file root).flatMap (·.bindings) =
      (before.flatMap (fun n => (ofNode (packageDirs file) n).flatMap (·.bindings)) ++
          front.map fun e => (e.2, full e.1)) ++
        (bound, join "." segments) :: (back.map (fun e => (e.2, full e.1)) ++
          after.flatMap fun n => (ofNode (packageDirs file) n).flatMap (·.bindings)) := by
    rw [Import.all, hnodes, List.flatMap_assoc, List.flatMap_append, List.flatMap_cons, hbindings,
      hnames, ← hfull]
    simp
  show (Dict.ofList ((Import.all file root).flatMap (·.bindings))).get? bound = _
  rw [hall]
  apply Dict.get?_ofList_last
  intro b hb
  rcases List.mem_append.mp hb with hb | hb
  · obtain ⟨e, he, rfl⟩ := List.mem_map.mp hb
    exact hback e he
  · obtain ⟨later, hlater, hb⟩ := List.mem_flatMap.mp hb
    intro hsame
    exact hafter later hlater (hsame ▸ mem_boundNames hb)

end Import

/-! ## What calls through them mean -/

/-- A module of the table owns the name with these segments, none of them
empty, and has a function at this path, which is a name or a member of a class,
and no module's name leads past the name of the owner into the path. -/
structure ModuleTable.Defines (t : ModuleTable) (segments path : List String)
    (module : ModuleRecord) (id : SymbolId) : Prop where
  owner : ((RepoIndex.build t).pathForDotted (join "." segments)).bind t.get? = some module
  named : ∀ s ∈ segments, s ≠ ""
  undotted : ∀ s ∈ segments ++ path, '.' ∉ s.toList
  short : path.length = 1 ∨ path.length = 2
  function : module.functions.get? (join "." path) = some id
  symbol : id ≠ noSymbol
  nearest : ∀ m ∈ t.values, split '.' m.dotted <+: segments ++ path →
    (split '.' m.dotted).length ≤ segments.length

namespace CallResolver

variable {t : ModuleTable} {segments path : List String} {module : ModuleRecord} {id : SymbolId}

theorem symbolIn_function (hshort : path.length = 1 ∨ path.length = 2)
    (hfunction : module.functions.get? (join "." path) = some id) :
    symbolIn module path = some id := by
  match path with
  | [name] =>
    rw [join_singleton] at hfunction
    simp [symbolIn, ModuleRecord.lookupCallable, hfunction]
  | [owner, member] =>
    have hjoin : join "." [owner, member] = owner ++ "." ++ member := by
      rw [← List.singleton_append, join_append (by simp) (by simp), join_singleton, join_singleton]
    rw [hjoin] at hfunction
    simp [symbolIn, ModuleRecord.lookupCallable, hfunction]
  | [] | _ :: _ :: _ :: _ => simp at hshort

theorem segments_ne_nil (h : t.Defines segments path module id) : segments ≠ [] := by
  obtain ⟨k, howner, _⟩ := Option.bind_eq_some_iff.mp h.owner
  rintro rfl
  exact (RepoIndex.owner_dotted howner).1 rfl

/-- The full name of the function leads to it. -/
theorem resolveDotted_defines (h : t.Defines segments path module id) (hops : Nat) :
    (ofModules t).resolveDotted (join "." (segments ++ path)) hops = some ⟨module.id, id⟩ := by
  obtain ⟨k, howner, hm⟩ := Option.bind_eq_some_iff.mp h.owner
  have hne := segments_ne_nil h
  have hlonger : ∀ extra, extra ≠ [] → extra <+: path →
      (RepoIndex.build t).pathForDotted (join "." (segments ++ extra)) = none := by
    intro extra hextra hprefix
    apply RepoIndex.no_owner
    intro m' hm' hdotted
    have hwhole : segments ++ extra <+: segments ++ path :=
      (List.prefix_append_right_inj _).mpr hprefix
    have hsplit : split '.' m'.dotted = segments ++ extra := by
      rw [hdotted, split_join_dots (by simp [hne]) fun s hs => h.undotted s (hwhole.subset hs)]
    have hle := h.nearest m' hm' (hsplit ▸ hwhole)
    rw [hsplit, List.length_append] at hle
    have := List.length_pos_iff.mpr hextra
    omega
  have hdirect := tryDirect_of_owner h.undotted hne howner hm hlonger
  rw [symbolIn_function h.short h.function, Option.getD_some] at hdirect
  exact chase_of_symbol _ hdirect h.symbol

/-- A name bound to the dotted name of the module leads to its function. -/
theorem resolveQualified_bound (h : t.Defines segments path module id) {m : ModuleRecord}
    {bound : String} (halias : m.importAliases.get? bound = some (join "." segments)) :
    (ofModules t).resolveQualified m (bound :: path) = some ⟨module.id, id⟩ := by
  rw [resolveQualified, expand, halias, Option.getD_some, join_join_cons (segments_ne_nil h)]
  exact resolveDotted_defines h 0

/-- The dotted name spelled out leads to the function, unless its first segment
is bound to something else. -/
theorem resolveQualified_spelled (h : t.Defines segments path module id) {m : ModuleRecord}
    (hfirst : ∀ origin, m.importAliases.get? (segments.headD "") = some origin →
      origin = segments.headD "") :
    (ofModules t).resolveQualified m (segments ++ path) = some ⟨module.id, id⟩ := by
  have hfound := resolveDotted_defines h 0
  cases segments with
  | nil => exact absurd rfl (segments_ne_nil h)
  | cons first more =>
    have hself : (m.importAliases.get? first).getD first = first := by
      cases halias : m.importAliases.get? first with
      | none => rfl
      | some origin => exact hfirst origin halias
    exact (resolveQualified_of_unbound (more ++ path) hself).trans hfound

/-- **All ways to import a module lead to the same function.** Let a module own
a dotted name and have a function, and let no longer name of a module lead into
it. In a file with any path and any syntax tree, let the last import of a name
be about that module: by its dotted name, as a name of its package, or as a
name of a package found by going up from the directory of the file, under its
own name or another. Then a call of the function through the bound name leads
to the function. A call that spells out the dotted name does so too, with or
without an import of the module, unless its first segment is bound to something
other than itself. -/
theorem import_styles_agree (h : t.Defines segments path module id) (file : String) (root : Node)
    (m : ModuleRecord) (hm : m.importAliases = (ImportTable.ofModule file root).aliases) :
    (∀ n name bound, Import.Denotes (Import.packageDirs file) n name segments →
      Import.LastBinding root n name bound →
      (ofModules t).resolveQualified m (bound :: path) = some ⟨module.id, id⟩) ∧
    ((∀ origin, m.importAliases.get? (segments.headD "") = some origin →
      origin = segments.headD "") →
      (ofModules t).resolveQualified m (segments ++ path) = some ⟨module.id, id⟩) := by
  refine ⟨?_, resolveQualified_spelled h⟩
  intro n name bound hdenotes hlast
  apply resolveQualified_bound h
  rw [hm]
  exact Import.aliases_last hlast hdenotes h.named

def sampleNode (kind : Kind) (field : Option Field) (text : String) (children : List Node) : Node :=
  .mk kind field text ⟨1, 1⟩ children

def renamedEntry (name bound : String) : Node :=
  sampleNode .aliasedImport (some .name) (name ++ " as " ++ bound)
    [sampleNode .dottedName (some .name) name [], sampleNode .identifier (some .alias) bound []]

theorem renamedEntry_entry (name bound : String) :
    Import.Entry (renamedEntry name bound) name bound :=
  @Import.Entry.renamed (renamedEntry name bound) (sampleNode .dottedName (some .name) name [])
    (sampleNode .identifier (some .alias) bound []) rfl rfl rfl

def plainImport : Node :=
  sampleNode .importStatement none "import pkg.lib.core as a" [renamedEntry "pkg.lib.core" "a"]

def absoluteImport : Node :=
  sampleNode .importFromStatement none "from pkg.lib import core as b"
    [sampleNode .dottedName (some .moduleName) "pkg.lib" [], renamedEntry "core" "b"]

def relativeName : Node :=
  sampleNode .relativeImport (some .moduleName) "..lib"
    [sampleNode .importPrefix none ".." [], sampleNode .dottedName none "lib" []]

def relativeImport : Node :=
  sampleNode .importFromStatement none "from ..lib import core as c"
    [relativeName, renamedEntry "core" "c"]

/-- A file that imports one module in three ways. -/
def importingTree : Node := sampleNode .module none "" [plainImport, absoluteImport, relativeImport]

def importingModule : ModuleRecord :=
  { ModuleRecord.skeleton 3 "pkg/app/main.py" "pkg.app.main" "py" {} with
    importAliases := (ImportTable.ofModule "pkg/app/main.py" importingTree).aliases }

def importedModule : ModuleRecord :=
  (ModuleRecord.skeleton 2 "pkg/lib/core.py" "pkg.lib.core" "py" {}).withFunction "Store.save"

def layeredTable : ModuleTable :=
  .ofList [("pkg/__init__.py", .skeleton 1 "pkg/__init__.py" "pkg" "py" {}),
  ("pkg/app/main.py", importingModule), ("pkg/lib/core.py", importedModule)]

/-- The three names and the dotted name spelled out all lead to the member of
the class. -/
theorem member_through_every_import :
    layeredTable.Defines ["pkg", "lib", "core"] ["Store", "save"] importedModule 2 ∧
      ∀ head ∈ [["a"], ["b"], ["c"], ["pkg", "lib", "core"]],
        (ofModules layeredTable).resolveQualified importingModule (head ++ ["Store", "save"]) =
          some ⟨2, 2⟩ := by
  have hdefines : layeredTable.Defines ["pkg", "lib", "core"] ["Store", "save"] importedModule 2 :=
    ⟨by decide +kernel, by decide, by decide, by decide, by decide +kernel, by decide,
      by decide +kernel⟩
  obtain ⟨hbound, hspelled⟩ :=
    import_styles_agree hdefines "pkg/app/main.py" importingTree importingModule rfl
  have hplain :=
    hbound plainImport "pkg.lib.core" "a" (@Import.Denotes.plain _ _ ["pkg", "lib", "core"] rfl)
    ⟨⟨importingTree.nodes.take 1, importingTree.nodes.drop 2, rfl, by decide +kernel⟩,
      ⟨[], _, [], rfl, rfl, renamedEntry_entry _ _, by simp⟩⟩
  have habsolute := hbound absoluteImport "core" "b"
    (@Import.Denotes.absolute _ _ _ ["pkg", "lib"] _ rfl rfl (by decide) rfl)
    ⟨⟨importingTree.nodes.take 5, importingTree.nodes.drop 6, rfl, by decide +kernel⟩,
      ⟨[_], _, [], rfl, rfl, renamedEntry_entry _ _, by simp⟩⟩
  have hshape : Import.Relative relativeName 1 ["lib"] :=
    .segments rfl rfl rfl rfl (by simp) (by decide +kernel)
  have hrelative := hbound relativeImport "core" "c"
    (@Import.Denotes.relative _ _ _ _ _ ["pkg", "lib"] _ rfl rfl rfl hshape (by decide +kernel))
    ⟨⟨importingTree.nodes.take 10, importingTree.nodes.drop 11, rfl, by decide +kernel⟩,
      ⟨[_], _, [], rfl, rfl, renamedEntry_entry _ _, by simp⟩⟩
  have hpkg : importingModule.importAliases.get? "pkg" = none := by decide +kernel
  have hdotted :=
    hspelled (by intro origin halias; rw [List.headD_cons, hpkg] at halias; cases halias)
  refine ⟨hdefines, ?_⟩
  simp only [List.forall_mem_cons]
  exact ⟨hplain, habsolute, hrelative, hdotted, by simp⟩

end CallResolver

end CodeAtlas
