import CodeAtlas.Proofs.DictLaws
import CodeAtlas.Proofs.IntegerRange
import CodeAtlas.Proofs.WrittenFile
import CodeAtlas.Proofs.WrittenTables

/-! # Settings read back as they were written

The text of settings stands for a tree of tables, in which every setting is
written out. Reading fills in a default only where a setting is missing, so it
finds all of them. Settings that were read can be written, since their numbers
are in the range of integers, and a file of them is read as the same settings.
-/
namespace CodeAtlas

open Toml

def ProjectConfig.toEntries (p : ProjectConfig) : Entries := [("name", .string p.name)]

/-- The settings of a scan, its extensions apart. -/
def ScanningConfig.plainEntries (s : ScanningConfig) : Entries := [
  ("ignore_file", .string s.ignoreFile),
  ("respect_gitignore", .boolean s.respectGitignore),
  ("include_hidden", .boolean s.includeHidden),
  ("binary_sniff_bytes", .integer s.binarySniffBytes),
  ("max_file_size", .integer s.maxFileSize)]

def ScanningConfig.extensionEntries (s : ScanningConfig) : Entries :=
  s.extensions.toList.map fun e => (e.1, .string e.2)

def ScanningConfig.toEntries (s : ScanningConfig) : Entries :=
  s.plainEntries ++ [("extensions", .table .header s.extensionEntries)]

def PerformanceConfig.toEntries (p : PerformanceConfig) : Entries := [
  ("max_workers", .integer p.maxWorkers),
  ("cache_size", .integer p.cacheSize),
  ("min_files_for_parallel", .integer p.minFilesForParallel)] ++
  p.timeoutSecs.toList.map fun seconds => ("timeout_secs", .integer seconds)

def RoleKeyword.toEntries (r : RoleKeyword) : Entries :=
  [("keyword", .string r.keyword), ("tag", .string r.tag)]

def textArray (l : List String) : Value := .array false (l.map .string)

/-- The tables of names, the role keywords apart. -/
def HeuristicsConfig.plainEntries (h : HeuristicsConfig) : Entries := [
  ("default_role", .string h.defaultRole),
  ("dataclass_markers", textArray h.dataclassMarkers),
  ("model_bases", textArray h.modelBases),
  ("exception_suffixes", textArray h.exceptionSuffixes),
  ("enum_suffixes", textArray h.enumSuffixes),
  ("http_verbs", textArray h.httpVerbs),
  ("route_attribute", .string h.routeAttribute),
  ("default_verb", .string h.defaultVerb),
  ("default_status_codes", textArray h.defaultStatusCodes)]

/-- The tables of names. The array of role keywords is open if it has tables. -/
def HeuristicsConfig.toEntries (h : HeuristicsConfig) : Entries :=
  h.plainEntries ++
    [("role_keywords",
      .array (!h.roleKeywords.isEmpty) (h.roleKeywords.map fun r => .table .header r.toEntries))]

/-- The tables that the text of settings stands for. -/
def Config.toEntries (c : Config) : Entries := [
  ("project", .table .header c.project.toEntries),
  ("scanning", .table .header c.scanning.toEntries),
  ("performance", .table .header c.performance.toEntries),
  ("heuristics", .table .header c.heuristics.toEntries)]

/-! ## From tables to settings -/

theorem mapM_eq_some_map {α β : Type} {f : α → Option β} {g : α → β} (h : ∀ a, f a = some (g a))
    (l : List α) : l.mapM f = some (l.map g) := by
  induction l with
  | nil => rfl
  | cons a l ih => simp [List.mapM_cons, h a, ih]

theorem list?_textArray (l : List String) : Value.list? Value.text? (textArray l) = some l := by
  have hread := mapM_eq_some_map (f := Value.text? ∘ Value.string) (g := id) (fun _ => rfl) l
  simpa [textArray, Value.list?] using hread

theorem ProjectConfig.ofToml_toEntries (p : ProjectConfig) (origin : TableOrigin) :
    ProjectConfig.ofToml (.table origin p.toEntries) = some p := by
  simp [ProjectConfig.ofToml, toEntries, Value.isSection, Value.setting, Value.setting?,
    Value.text?]

theorem texts?_extensionEntries (s : ScanningConfig) (origin : TableOrigin) :
    Value.texts? (.table origin s.extensionEntries) = some s.extensions := by
  have hread := mapM_eq_some_map
    (f := (fun e : String × Value => (Value.text? e.2).map (e.1, ·)) ∘ fun e : String × String =>
      (e.1, .string e.2))
    (g := id) (fun _ => rfl) s.extensions.toList
  have hsame : Dict.ofList s.extensions.toList = s.extensions :=
    Dict.ext (Dict.toList_ofList s.extensions.sorted)
  simp only [ScanningConfig.extensionEntries, Value.texts?, List.mapM_map, hread, List.map_id,
    Option.map_some, hsame]

theorem ScanningConfig.ofToml_toEntries (s : ScanningConfig) (origin : TableOrigin) :
    ScanningConfig.ofToml (.table origin s.toEntries) = some s := by
  simp [ScanningConfig.ofToml, toEntries, plainEntries, Value.isSection, Value.setting,
    Value.setting?, Value.text?, Value.flag?, Value.natural?, List.lookup_cons,
    texts?_extensionEntries]

theorem PerformanceConfig.ofToml_toEntries (p : PerformanceConfig) (origin : TableOrigin) :
    PerformanceConfig.ofToml (.table origin p.toEntries) = some p := by
  obtain ⟨maxWorkers, cacheSize, minFilesForParallel, timeoutSecs⟩ := p
  cases timeoutSecs <;>
    simp [PerformanceConfig.ofToml, toEntries, Value.isSection, Value.setting, Value.setting?,
      Value.natural?, List.lookup_cons]

theorem RoleKeyword.ofToml_toEntries (r : RoleKeyword) (origin : TableOrigin) :
    RoleKeyword.ofToml (.table origin r.toEntries) = some r := by
  simp [RoleKeyword.ofToml, toEntries, Value.setting?, Value.text?, List.lookup_cons]

theorem list?_roleKeywords (isOpen : Bool) (l : List RoleKeyword) :
    Value.list? RoleKeyword.ofToml (.array isOpen (l.map fun r => .table .header r.toEntries)) =
      some l := by
  have hread :=
    mapM_eq_some_map (f := RoleKeyword.ofToml ∘ fun r : RoleKeyword => .table .header r.toEntries)
      (g := id) (fun r => r.ofToml_toEntries .header) l
  simpa [Value.list?] using hread

theorem HeuristicsConfig.ofToml_toEntries (h : HeuristicsConfig) (origin : TableOrigin) :
    HeuristicsConfig.ofToml (.table origin h.toEntries) = some h := by
  simp [HeuristicsConfig.ofToml, toEntries, plainEntries, Value.isSection, Value.setting,
    Value.setting?, Value.text?, List.lookup_cons, list?_textArray, list?_roleKeywords]

theorem Config.ofToml_toEntries (c : Config) (origin : TableOrigin) :
    Config.ofToml (.table origin c.toEntries) = some c := by
  simp [Config.ofToml, toEntries, Value.setting, Value.setting?, List.lookup_cons,
    ProjectConfig.ofToml_toEntries, ScanningConfig.ofToml_toEntries,
    PerformanceConfig.ofToml_toEntries, HeuristicsConfig.ofToml_toEntries]

/-! ## From the text to tables -/

theorem ScanningConfig.nodup_extensionEntries (s : ScanningConfig) :
    (s.extensionEntries.map (·.1)).Nodup := by
  have hkeys : s.extensionEntries.map (·.1) = s.extensions.entries.map (·.1) := by
    simp [extensionEntries, Dict.toList]
  rw [hkeys, List.Nodup, List.pairwise_map]
  exact s.extensions.sorted.imp fun hlt => String.ne_of_lt hlt

theorem PerformanceConfig.nodup_toEntries (p : PerformanceConfig) :
    (p.toEntries.map (·.1)).Nodup := by
  obtain ⟨maxWorkers, cacheSize, minFilesForParallel, timeoutSecs⟩ := p
  cases timeoutSecs <;> simp [toEntries]

namespace Config
variable (c : Config)

/-- The lines of the sections before the tables of names. -/
def sectionBlocks : List (List Line) := [
  .header ["project"] :: assigns c.project.toEntries,
  .header ["scanning"] :: assigns c.scanning.plainEntries,
  .header ["scanning", "extensions"] :: assigns c.scanning.extensionEntries,
  .header ["performance"] :: assigns c.performance.toEntries]

/-- The lines of the tables of names. -/
def heuristicsBlocks (h : HeuristicsConfig) : List (List Line) :=
  (.header ["heuristics"] :: assigns (h.plainEntries ++
    if h.roleKeywords.isEmpty then [("role_keywords", textArray [])] else [])) ::
  h.roleKeywords.map fun r => .element ["heuristics", "role_keywords"] :: assigns r.toEntries

def sectionEntries : Entries := [
  ("project", .table .header c.project.toEntries),
  ("scanning", .table .header c.scanning.toEntries),
  ("performance", .table .header c.performance.toEntries)]

theorem run_sectionBlocks :
    c.sectionBlocks.flatten.foldlM Document.add {} = some ⟨c.sectionEntries, ["performance"]⟩ := by
  let project : String × Value := ("project", .table .header c.project.toEntries)
  let scanning : String × Value := ("scanning", .table .header c.scanning.toEntries)
  have hnone : List.lookup "scanning" [project] = none := by simp [project, List.lookup_cons]
  have hproject : (Line.header ["project"] :: assigns c.project.toEntries).foldlM Document.add {} =
      some ⟨[project], ["project"]⟩ :=
    Focus.all.run_table rfl (by simp [ProjectConfig.toEntries]) []
  have hscanning : (Line.header ["scanning"] :: assigns c.scanning.plainEntries).foldlM Document.add
      ⟨[project], ["project"]⟩ =
        some ⟨[project, ("scanning", .table .header c.scanning.plainEntries)], ["scanning"]⟩ :=
    Focus.all.run_table hnone (by simp [ScanningConfig.plainEntries]) _
  have hextensions :
      (Line.header ["scanning", "extensions"] :: assigns c.scanning.extensionEntries).foldlM
      Document.add
      ⟨[project, ("scanning", .table .header c.scanning.plainEntries)], ["scanning"]⟩ =
      some ⟨[project, scanning], ["scanning", "extensions"]⟩ :=
    (Focus.all.table hnone).run_table (by simp [ScanningConfig.plainEntries, List.lookup_cons])
      c.scanning.nodup_extensionEntries _
  have hperformance :
      (Line.header ["performance"] :: assigns c.performance.toEntries).foldlM Document.add
      ⟨[project, scanning], ["scanning", "extensions"]⟩ =
      some ⟨[project, scanning, ("performance", .table .header c.performance.toEntries)],
        ["performance"]⟩ :=
    Focus.all.run_table (by simp [project, scanning, List.lookup_cons])
      c.performance.nodup_toEntries _
  simp only [sectionBlocks, List.flatten_cons, List.flatten_nil, List.append_nil,
    List.foldlM_append, hproject, hscanning, hextensions, hperformance, Option.bind_eq_bind,
    Option.bind_some]
  rfl

theorem run_heuristicsBlocks (h : HeuristicsConfig) {es : Entries}
    (hnone : es.lookup "heuristics" = none) (before : List String) :
    ∃ place, (heuristicsBlocks h).flatten.foldlM Document.add ⟨es, before⟩ =
      some ⟨es ++ [("heuristics", .table .header h.toEntries)], place⟩ := by
  cases hkeywords : h.roleKeywords with
  | nil =>
    have htable :
        (Line.header ["heuristics"] ::
        assigns (h.plainEntries ++ [("role_keywords", textArray [])])).foldlM
        Document.add ⟨es, before⟩ = some ⟨es ++ [("heuristics", .table .header h.toEntries)],
          ["heuristics"]⟩ := by
      rw [HeuristicsConfig.toEntries, hkeywords]
      exact Focus.all.run_table hnone (by simp [HeuristicsConfig.plainEntries]) before
    exact ⟨_, by simpa [heuristicsBlocks, hkeywords] using htable⟩
  | cons r rs =>
    have htable :
        (Line.header ["heuristics"] :: assigns h.plainEntries).foldlM Document.add ⟨es, before⟩ =
        some ⟨es ++ [("heuristics", .table .header h.plainEntries)], ["heuristics"]⟩ :=
      Focus.all.run_table hnone (by simp [HeuristicsConfig.plainEntries]) before
    have hfocus := Focus.all.table hnone
    have hplain : h.plainEntries.lookup "role_keywords" = none := by
      simp [HeuristicsConfig.plainEntries, List.lookup_cons]
    have hfirst :
        (Line.element ["heuristics", "role_keywords"] :: assigns r.toEntries).foldlM Document.add
        ⟨es ++ [("heuristics", .table .header h.plainEntries)], ["heuristics"]⟩ =
        some ⟨es ++ [("heuristics", .table .header (h.plainEntries ++
          [("role_keywords", .array true [.table .header r.toEntries])]))], ["heuristics",
            "role_keywords"]⟩ :=
      hfocus.run_first hplain (by simp [RoleKeyword.toEntries]) _
    have hothers : ((rs.map RoleKeyword.toEntries).flatMap fun t =>
        Line.element ["heuristics", "role_keywords"] :: assigns t).foldlM Document.add
        ⟨es ++ [("heuristics", .table .header (h.plainEntries ++
          [("role_keywords", .array true [.table .header r.toEntries])]))], ["heuristics",
            "role_keywords"]⟩ =
        some ⟨es ++ [("heuristics", .table .header h.toEntries)],
          ["heuristics", "role_keywords"]⟩ := by
      have hentries : h.toEntries = h.plainEntries ++ [("role_keywords", .array true
          ([.table .header r.toEntries] ++ (rs.map RoleKeyword.toEntries).map
            (.table .header)))] := by
        simp [HeuristicsConfig.toEntries, hkeywords]
      rw [hentries]
      exact hfocus.run_elements hplain _ (by simp [RoleKeyword.toEntries])
    have hblocks :
        (heuristicsBlocks h).flatten = (Line.header ["heuristics"] :: assigns h.plainEntries) ++
        ((Line.element ["heuristics", "role_keywords"] :: assigns r.toEntries) ++
          (rs.map RoleKeyword.toEntries).flatMap fun t =>
            Line.element ["heuristics", "role_keywords"] :: assigns t) := by
      simp [heuristicsBlocks, hkeywords, List.flatMap_def, Function.comp_def]
    refine ⟨["heuristics", "role_keywords"], ?_⟩
    rw [hblocks, List.foldlM_append, htable]
    simp only [List.foldlM_append, Option.bind_eq_bind, Option.bind_some, hfirst, hothers]

theorem build_blocks :
    Document.build (c.sectionBlocks ++ heuristicsBlocks c.heuristics).flatten =
      some c.toEntries := by
  have hnone : c.sectionEntries.lookup "heuristics" = none := by
    simp [sectionEntries, List.lookup_cons]
  obtain ⟨place, hheuristics⟩ := run_heuristicsBlocks c.heuristics hnone ["performance"]
  rw [Document.build, List.flatten_append, List.foldlM_append, run_sectionBlocks]
  simp only [Option.bind_eq_bind, Option.bind_some, hheuristics]
  rfl

section Spells
variable {c : Config} (hc : c.Writable)
include hc

theorem assigning_scanning : Assigning [
    assignLine "ignore_file" (ofText c.scanning.ignoreFile),
    assignLine "respect_gitignore" (ofBool c.scanning.respectGitignore),
    assignLine "include_hidden" (ofBool c.scanning.includeHidden),
    assignLine "binary_sniff_bytes" (ofNat c.scanning.binarySniffBytes),
    assignLine "max_file_size" (ofNat c.scanning.maxFileSize)] c.scanning.plainEntries :=
  .cons (spells_assignLine _ (writes_ofText _)) <|
  .cons (spells_assignLine _ (writes_ofBool _)) <|
  .cons (spells_assignLine _ (writes_ofBool _)) <|
  .cons (spells_assignLine _ (writes_ofNat (hc _ (by simp [numbers])))) <|
  .cons (spells_assignLine _ (writes_ofNat (hc _ (by simp [numbers])))) .nil

theorem spells_performanceTable :
    Spells (performanceTable c.performance)
      (.header ["performance"] :: assigns c.performance.toEntries) := by
  refine spells_tableLines (by simp) (by simp [maxDepth]) ?_
  refine .cons (spells_assignLine _ (writes_ofNat (hc _ (by simp [numbers])))) ?_
  refine .cons (spells_assignLine _ (writes_ofNat (hc _ (by simp [numbers])))) ?_
  refine .cons (spells_assignLine _ (writes_ofNat (hc _ (by simp [numbers])))) ?_
  cases hseconds : c.performance.timeoutSecs with
  | none => exact .nil
  | some seconds =>
    exact .cons (spells_assignLine _ (writes_ofNat (hc _ (by simp [numbers, hseconds])))) .nil

theorem spells_scanningTables :
    List.Forall₂ Spells (c.scanningTables ++ [performanceTable c.performance]) c.sectionBlocks := by
  have hproject : Assigning [assignLine "name" (ofText c.project.name)] c.project.toEntries :=
    .cons (spells_assignLine _ (writes_ofText _)) .nil
  have hextensions :
      Assigning (c.scanning.extensions.toList.map fun e => assignLine e.1 (ofText e.2))
      c.scanning.extensionEntries := by
    rw [Assigning, ScanningConfig.extensionEntries, List.forall₂_map_left_iff,
      List.forall₂_map_right_iff, List.forall₂_same]
    exact fun e _ => spells_assignLine e.1 (writes_ofText e.2)
  exact .cons (spells_tableLines (by simp) (by simp [maxDepth]) hproject) <|
    .cons (spells_tableLines (by simp) (by simp [maxDepth]) (assigning_scanning hc)) <|
    .cons (spells_tableLines (by simp) (by simp [maxDepth]) hextensions) <|
    .cons (spells_performanceTable hc) .nil

end Spells

theorem assigning_heuristics (h : HeuristicsConfig) : Assigning [
    assignLine "default_role" (ofText h.defaultRole),
    assignLine "dataclass_markers" (ofTexts h.dataclassMarkers),
    assignLine "model_bases" (ofTexts h.modelBases),
    assignLine "exception_suffixes" (ofTexts h.exceptionSuffixes),
    assignLine "enum_suffixes" (ofTexts h.enumSuffixes),
    assignLine "http_verbs" (ofTexts h.httpVerbs),
    assignLine "route_attribute" (ofText h.routeAttribute),
    assignLine "default_verb" (ofText h.defaultVerb),
    assignLine "default_status_codes" (ofTexts h.defaultStatusCodes)] h.plainEntries :=
  .cons (spells_assignLine _ (writes_ofText _)) <|
  .cons (spells_assignLine _ (writes_ofTexts _)) <|
  .cons (spells_assignLine _ (writes_ofTexts _)) <|
  .cons (spells_assignLine _ (writes_ofTexts _)) <|
  .cons (spells_assignLine _ (writes_ofTexts _)) <|
  .cons (spells_assignLine _ (writes_ofTexts _)) <|
  .cons (spells_assignLine _ (writes_ofText _)) <|
  .cons (spells_assignLine _ (writes_ofText _)) <|
  .cons (spells_assignLine _ (writes_ofTexts _)) .nil

theorem spells_heuristicsTables (h : HeuristicsConfig) :
    List.Forall₂ Spells (heuristicsTables h) (heuristicsBlocks h) := by
  refine .cons (spells_tableLines (by simp) (by simp [maxDepth]) ?_) ?_
  · refine List.rel_append (assigning_heuristics h) ?_
    split
    · exact .cons (spells_assignLine _ (writes_ofTexts [])) .nil
    · exact .nil
  · rw [List.forall₂_map_left_iff, List.forall₂_map_right_iff, List.forall₂_same]
    intro r _
    exact spells_elementLines (by simp) (by simp [maxDepth])
      (.cons (spells_assignLine _ (writes_ofText _))
        (.cons (spells_assignLine _ (writes_ofText _)) .nil))

/-- The text of settings stands for the tables that hold all of them. -/
theorem parse_toToml {c : Config} (hc : c.Writable) : Toml.parse c.toToml = some c.toEntries := by
  have htables := List.rel_append (spells_scanningTables hc) (spells_heuristicsTables c.heuristics)
  have hhead :
      ∃ more, Text.joinChars ['\n'] (c.scanningTables ++ [performanceTable c.performance] ++
      heuristicsTables c.heuristics) = '[' :: more := ⟨_, rfl⟩
  obtain ⟨more, hhead⟩ := hhead
  rw [toToml, parse_writeTables htables hhead, build_blocks]

/-! ## Settings in files -/

theorem render_eq {c : Config} (hc : c.Writable) : c.render = .ok c.toToml := by
  rw [render, if_pos]
  simpa [Writable] using hc

theorem parse_render {c : Config} (hc : c.Writable) (hchecked : c.checked = .ok c) :
    Config.parse c.toToml = .ok c := by
  simp only [Config.parse, parse_toToml hc, Option.bind_some, ofToml_toEntries, hchecked]

theorem load_eq {d : Disk} {path text : String} (h : d.readText path = .ok text) :
    Config.load d path = (Config.parse text).mapError .config := by
  rw [load, h]
  rfl

theorem eq_ok_of_mapError {ε ε' α : Type} {f : ε → ε'} {x : Except ε α} {a : α}
    (h : x.mapError f = .ok a) : x = .ok a := by
  cases x with
  | error e => cases h
  | ok a' => exact congrArg Except.ok (Except.ok.inj h)

theorem exists_parse_of_load {d : Disk} {path : String} {c : Config}
    (h : Config.load d path = .ok c) : ∃ text, Config.parse text = .ok c := by
  cases hread : d.readText path with
  | error e =>
    rw [load, hread] at h
    cases h
  | ok text =>
    rw [load_eq hread] at h
    exact ⟨text, eq_ok_of_mapError h⟩

/-- Settings that come from a file, and the defaults, can be saved wherever a
file can be written. Only that file changes, and loading it gives the same
settings. -/
theorem load_save_round_trip {c : Config} (hc : c = {} ∨ ∃ d path, Config.load d path = .ok c) :
    ∃ written, c.render = .ok written ∧ Config.parse written = .ok c ∧
      (∀ d path place, d.TakesFile path place →
        c.save d path = .ok (d.put place (.file written.toUTF8.toList))) ∧
      ∀ d path d', c.save d path = .ok d' → d'.readText path = .ok written ∧
        Config.load d' path = .ok c := by
  have hread : c.checked = .ok c ∧ c.Writable := by
    rcases hc with rfl | ⟨d, path, hload⟩
    · exact ⟨rfl, writable_default⟩
    · obtain ⟨text, hparse⟩ := exists_parse_of_load hload
      exact of_parse hparse
  obtain ⟨hchecked, hwritable⟩ := hread
  have hrender := render_eq hwritable
  have hparse := parse_render hwritable hchecked
  have hsave : ∀ d path, c.save d path = (d.writeText path c.toToml).mapError .io := by
    intro d path
    rw [save, hrender]
    rfl
  refine ⟨c.toToml, hrender, hparse, ?_, ?_⟩
  · intro d path place htakes
    rw [hsave, htakes.writeText_eq]
    rfl
  · intro d path d' hsaved
    rw [hsave] at hsaved
    have hwritten := eq_ok_of_mapError hsaved
    obtain ⟨place, htakes⟩ := Disk.takesFile_of_writeText hwritten
    rw [htakes.writeText_eq] at hwritten
    obtain rfl := Except.ok.inj hwritten
    have hreads := htakes.readText_eq c.toToml
    refine ⟨hreads, ?_⟩
    rw [load_eq hreads, hparse]
    rfl

/-- A text with tabs, quotes and a control character, an extension of its own,
and no role keywords. -/
def oddText : String :=
  "[project]\nname = \"tab\\there \\u0007\"\n[performance]\ntimeout_secs = 0x1F\n" ++
    "[scanning.extensions]\n'a\"b' = '''x'y'''\n" ++
    "[heuristics]\nmodel_bases = []\nrole_keywords = []\n"

def oddSettings : Config where
  project := { name := "tab\there \x07" }
  scanning := { extensions := .ofList [("a\"b", "x'y")] }
  performance := { timeoutSecs := some 31 }
  heuristics := { modelBases := [], roleKeywords := [] }

def oddDisk : Disk := ({} : Disk).put ["odd.toml"] (.file oddText.toUTF8.toList)

theorem load_save_odd : Config.load oddDisk "odd.toml" = .ok oddSettings ∧
    ∃ written, oddSettings.render = .ok written ∧ Config.parse written = .ok oddSettings ∧
      oddSettings.save oddDisk "odd.toml" =
        .ok (oddDisk.put ["odd.toml"] (.file written.toUTF8.toList)) := by
  have hload : Config.load oddDisk "odd.toml" = .ok oddSettings := by
    have hempty : ({} : Disk).TakesFile "odd.toml" ["odd.toml"] :=
      ⟨by decide +kernel, by decide +kernel, by decide +kernel⟩
    have hparse : Config.parse oddText = .ok oddSettings := by decide +kernel
    rw [oddDisk, load_eq (hempty.readText_eq oddText), hparse]
    rfl
  have htakes : oddDisk.TakesFile "odd.toml" ["odd.toml"] :=
    ⟨by decide +kernel, by decide +kernel, by decide +kernel⟩
  obtain ⟨written, hrender, hparse, hsave, -⟩ :=
    load_save_round_trip (.inr ⟨oddDisk, "odd.toml", hload⟩)
  exact ⟨hload, written, hrender, hparse, hsave _ _ _ htakes⟩

end Config

end CodeAtlas
