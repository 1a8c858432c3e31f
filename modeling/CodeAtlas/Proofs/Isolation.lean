import CodeAtlas.Proofs.Identity
import CodeAtlas.Proofs.Schedule

/-! # A record depends on its own file only

What the first pass makes of a file is a function of the settings, of the index
of modules, and of the bytes of that file. The index is built before any file
is read, from paths and languages alone. So whatever other files hold, and
whether they can be read or not, the record of a file is the same. -/
namespace CodeAtlas

theorem Disk.size_of_read {d : Disk} {path : String} {bytes : List UInt8}
    (h : d.read path = .ok bytes) : d.size path = .ok bytes.length := by
  unfold read at h
  unfold size
  cases hstat : d.stat path with
  | error why => simp [hstat, bind, Except.bind] at h
  | ok entry =>
    rw [hstat] at h
    cases entry with
    | file content =>
      cases h
      rfl
    | directory => cases h
    | link target => cases h

namespace Scan

/-- What the first pass makes of a record by the bytes of its file, if there
are any. -/
def ofBytes (config : Config) (index : RepoIndex) (m : ModuleRecord) :
    Option (List UInt8) → ModuleRecord
  | none => m
  | some bytes =>
    if (Language.ofTag m.language).isSome &&
      decide (bytes.length ≤ config.scanning.maxFileSize) then
      let text := Utf8.decodeLossy bytes
      ({ m with contentHash := some (Sha256.hexDigest text) } : ModuleRecord).extract
        config.heuristics index text
    else m

/-- A record that is filled by the disk is the one of the bytes there. -/
theorem filled_on_disk (c : Context) (m : ModuleRecord) :
    filled c m ((file? c m).map c.disk.readLossy) =
      ofBytes c.config c.index m (c.disk.read (Path.join c.root m.path)).toOption := by
  cases hread : c.disk.read (Path.join c.root m.path) with
  | error why =>
    have hlossy : c.disk.readLossy (Path.join c.root m.path) = .error why := by
      simp [Disk.readLossy, hread, Except.map]
    unfold file?
    split
    · simp only [Option.map_some, hlossy]
      rfl
    · rfl
  | ok bytes =>
    -- the size that is looked at first is that of the bytes
    have hwants : wants c m =
        ((Language.ofTag m.language).isSome &&
          decide (bytes.length ≤ c.config.scanning.maxFileSize)) := by
      simp only [wants, Disk.size_of_read hread]
    have hlossy : c.disk.readLossy (Path.join c.root m.path) = .ok (Utf8.decodeLossy bytes) := by
      simp [Disk.readLossy, hread, Except.map]
    simp only [file?, hwants, Except.toOption, ofBytes]
    split
    · simp only [Option.map_some, hlossy]
      rfl
    · rfl

theorem get?_assemble_on_disk {c : Context} {t : ModuleTable} (ht : t.Scanned) {k : String}
    {m : ModuleRecord} (hm : (k, m) ∈ t.toList) :
    (assemble c t.values (t.values.map fun m => (file? c m).map c.disk.readLossy)).get? k =
      some (ofBytes c.config c.index m (c.disk.read (Path.join c.root m.path)).toOption) := by
  have hanswers : t.values.map (fun m => (file? c m).map c.disk.readLossy) =
      t.toList.map fun x => (file? c x.2).map c.disk.readLossy := by
    have hvalues : t.values = t.toList.map (·.2) := rfl
    rw [hvalues, List.map_map]
    rfl
  rw [← filled_on_disk, Dict.get?_eq_some_iff, ← Dict.toList, assemble_toList ht (by simp),
    hanswers, ← List.map_prod_left_eq_zip, List.map_map]
  exact List.mem_map.mpr ⟨(k, m), hm, rfl⟩

end Scan

namespace Engine

variable {e : Engine} {d : Disk} {r : Request} {found : WalkOutcome}

/-- The first pass makes a record of the bytes of its own file. -/
theorem scanOnDisk_get? (hfind : e.find d r = .ok found) {i : Nat} {file : SourceFile}
    (hfile : found.files[i]? = some file) : ∃ a, e.scanOnDisk d r = .ok a ∧
      a.modules.get? file.path = some (Scan.ofBytes e.config (.build (e.skeletons found))
        (file.skeleton e.config.heuristics (i + 1))
          (d.read (Path.join r.root file.path)).toOption) := by
  refine ⟨_, by simp only [scanOnDisk, hfind, Except.map]; rfl, ?_⟩
  exact Scan.get?_assemble_on_disk (c := e.scanContext d r found) (e.skeletons_scanned found)
    (List.mem_of_getElem? (skeletons_getElem? hfind hfile))

theorem analyze_on_disk (config : Config) (d : Disk) (r : Request) :
    ((ofConfig config).analyze d r).1 = (ofConfig config).scanOnDisk d r := by
  obtain ⟨answers, h⟩ := (ofConfig config).analyze_analyzes d r
  exact (h.on_disk (ofConfig_drawn config d)).1

/-- **A record depends on its own file only.** Let two disks have the same
files to be found, by path and language, each from the directory of a request
of its own. For a file among them whose bytes are the same on both, or that
neither can read, an engine that keeps nothing yet makes the same record on
both, whatever the other files hold and in whatever order of steps files are read. -/
theorem record_of_own_bytes (config : Config) {d₁ d₂ : Disk} {r₁ r₂ : Request}
    {found₁ found₂ : WalkOutcome}
    (h₁ : (ofConfig config).find d₁ r₁ = .ok found₁)
    (h₂ : (ofConfig config).find d₂ r₂ = .ok found₂)
    (hsame : found₁.files = found₂.files) {file : SourceFile} (hfile : file ∈ found₁.files)
    (hbytes : (d₁.read (Path.join r₁.root file.path)).toOption =
      (d₂.read (Path.join r₂.root file.path)).toOption) :
    ∃ a₁ a₂ m, ((ofConfig config).analyze d₁ r₁).1 = .ok a₁ ∧
      ((ofConfig config).analyze d₂ r₂).1 = .ok a₂ ∧
      a₁.modules.get? file.path = some m ∧ a₂.modules.get? file.path = some m ∧
      (∀ answers outcome e', (ofConfig config).Analyzes d₁ r₁ answers outcome e' →
        outcome = .ok a₁) ∧
      ∀ answers outcome e', (ofConfig config).Analyzes d₂ r₂ answers outcome e' →
        outcome = .ok a₂ := by
  obtain ⟨i, hi⟩ := List.mem_iff_getElem?.mp hfile
  obtain ⟨a₁, ha₁, hm₁⟩ := scanOnDisk_get? h₁ hi
  obtain ⟨a₂, ha₂, hm₂⟩ := scanOnDisk_get? h₂ (hsame ▸ hi)
  -- all that the records are made of is the same
  have hskeletons : (ofConfig config).skeletons found₁ = (ofConfig config).skeletons found₂ := by
    unfold skeletons
    rw [hsame]
  rw [hskeletons, hbytes] at hm₁
  refine ⟨a₁, a₂, _, (analyze_on_disk config d₁ r₁).trans ha₁,
    (analyze_on_disk config d₂ r₂).trans ha₂, hm₁, hm₂, ?_, ?_⟩
  · intro answers outcome e' h
    exact (h.on_disk (ofConfig_drawn config d₁)).1.trans ha₁
  · intro answers outcome e' h
    exact (h.on_disk (ofConfig_drawn config d₂)).1.trans ha₂

/-- The project when one module is no text and the other is as before. -/
def damagedProject : Disk where
  entries := .ofList [("proj", .directory), ("proj/a.py", .file [100, 101, 102, 32, 40, 255, 10]),
    ("proj/b.py", .file "def g():\n    pass\n".toUTF8.toList)]

/-- Damage to one module leaves the record of the other. -/
theorem record_beside_damage :
    ∃ a₁ a₂ m, ((ofConfig {}).analyze callingProject ⟨"proj", none, none⟩).1 = .ok a₁ ∧
      ((ofConfig {}).analyze damagedProject ⟨"proj", none, none⟩).1 = .ok a₂ ∧
      a₁.modules.get? "b.py" = some m ∧ a₂.modules.get? "b.py" = some m ∧
      callingProject.read "proj/a.py" ≠ damagedProject.read "proj/a.py" := by
  obtain ⟨found₁, h₁, hfiles₁⟩ : ∃ found,
      (ofConfig {}).find callingProject ⟨"proj", none, none⟩ = .ok found ∧
      found.files = [⟨"a.py", "py"⟩, ⟨"b.py", "py"⟩] := ⟨_, rfl, by decide +kernel⟩
  obtain ⟨found₂, h₂, hfiles₂⟩ : ∃ found,
      (ofConfig {}).find damagedProject ⟨"proj", none, none⟩ = .ok found ∧
      found.files = [⟨"a.py", "py"⟩, ⟨"b.py", "py"⟩] := ⟨_, rfl, by decide +kernel⟩
  have hfile : ⟨"b.py", "py"⟩ ∈ found₁.files := by simp [hfiles₁]
  obtain ⟨a₁, a₂, m, ha₁, ha₂, hm₁, hm₂, _⟩ :=
    record_of_own_bytes {} h₁ h₂ (hfiles₁.trans hfiles₂.symm) hfile (by decide +kernel)
  exact ⟨a₁, a₂, m, ha₁, ha₂, hm₁, hm₂, by decide +kernel⟩

end Engine

end CodeAtlas
