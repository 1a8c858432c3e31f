import CodeAtlas.Config.File
import Mathlib.Data.Option.Basic
import Mathlib.Tactic.SplitIfs

/-! # The range of integers that are read

An integer of a text is at most the greatest one. All tables of a text keep to
this, and so do the numbers of settings, because the defaults do too. -/
namespace CodeAtlas.Toml

/-- No integer in a value is beyond the greatest one. -/
inductive InRange : Value → Prop where
  | string (text : String) : InRange (.string text)
  | integer {n : Int} (h : n ≤ maxInteger) : InRange (.integer n)
  | float (text : String) : InRange (.float text)
  | boolean (b : Bool) : InRange (.boolean b)
  | datetime (text : String) : InRange (.datetime text)
  | array {isOpen : Bool} {vs : List Value} (h : ∀ v ∈ vs, InRange v) : InRange (.array isOpen vs)
  | table {origin : TableOrigin} {es : Entries} (h : ∀ e ∈ es, InRange e.2) :
      InRange (.table origin es)

/-- All values that a reader gives have a property. -/
def Gives {α : Type} (read : Reader α) (P : α → Prop) : Prop :=
  ∀ cs a rest, read cs = some (a, rest) → P a

/-! ## Values -/

theorem basedInteger_le {base : Nat} {ok : Char → Bool} {cs rest : List Char} {n : Int}
    (h : basedInteger base ok cs = some (n, rest)) : n ≤ maxInteger := by
  simp only [basedInteger, Option.bind_eq_bind, Option.bind_eq_some_iff] at h
  obtain ⟨digits, -, h⟩ := h
  split at h
  · simp only [Option.some.injEq, Prod.mk.injEq] at h
    omega
  · cases h

theorem gives_integer : Gives integer (· ≤ maxInteger) := by
  intro cs n rest h
  rw [integer.eq_def] at h
  split at h
  · exact basedInteger_le h
  · exact basedInteger_le h
  · exact basedInteger_le h
  · simp only [Option.bind_eq_bind, Option.bind_eq_some_iff] at h
    obtain ⟨digits, -, h⟩ := h
    split_ifs at h <;> simp only [Option.some.injEq, Prod.mk.injEq] at h <;> omega

theorem gives_scalar : Gives scalar InRange := by
  intro cs v rest h
  rw [scalar.eq_def] at h
  split at h
  · simp only [Option.some.injEq, Prod.mk.injEq] at h
    exact h.1 ▸ .boolean true
  · simp only [Option.some.injEq, Prod.mk.injEq] at h
    exact h.1 ▸ .boolean false
  · simp only [Option.map_eq_some_iff, Prod.mk.injEq] at h
    obtain ⟨read, -, rfl, -⟩ := h
    exact .string _
  · simp only [Option.map_eq_some_iff, Prod.mk.injEq] at h
    obtain ⟨read, -, rfl, -⟩ := h
    exact .string _
  · split at h
    · simp only [Option.some.injEq, Prod.mk.injEq] at h
      exact h.1 ▸ .datetime _
    · simp only [Option.some.injEq, Prod.mk.injEq] at h
      exact h.1 ▸ .float _
    · rename_i hinteger
      simp only [Option.some.injEq, Prod.mk.injEq] at h
      exact h.1 ▸ .integer (gives_integer _ _ _ hinteger)
    · cases h

theorem Gives.elements {read : Reader Value} (hread : Gives read InRange) (left : Nat) :
    Gives (elements read left) fun vs => ∀ v ∈ vs, InRange v := by
  induction left with
  | zero => exact fun cs vs rest h => nomatch h
  | succ left ih =>
    intro cs vs rest h
    rw [Toml.elements] at h
    split at h
    · simp only [Option.some.injEq, Prod.mk.injEq] at h
      simp [← h.1]
    · simp only [Option.bind_eq_bind, Option.bind_eq_some_iff, Prod.exists] at h
      obtain ⟨v, tail, hfirst, h⟩ := h
      have hv := hread _ _ _ hfirst
      split at h
      · simp only [Option.bind_eq_some_iff, Prod.exists, Option.some.injEq, Prod.mk.injEq] at h
        obtain ⟨others, _, hothers, rfl, -⟩ := h
        have hvs := ih _ _ _ hothers
        simpa [hv] using hvs
      · simp only [Option.some.injEq, Prod.mk.injEq] at h
        simpa [← h.1] using hv
      · cases h

theorem Gives.assignment {read : Reader Value} (hread : Gives read InRange) :
    Gives (assignment read) fun pair => InRange pair.2 := by
  intro cs pair rest h
  simp only [Toml.assignment, Option.bind_eq_bind, Option.bind_eq_some_iff, Prod.exists,
    Option.some.injEq, Prod.mk.injEq] at h
  obtain ⟨_, _, -, _, -, v, _, hvalue, rfl, -⟩ := h
  exact hread _ _ _ hvalue

theorem Gives.assignments {read : Reader Value} (hread : Gives read InRange) (left : Nat) :
    Gives (assignments read left) fun pairs => ∀ pair ∈ pairs, InRange pair.2 := by
  induction left with
  | zero => exact fun cs vs rest h => nomatch h
  | succ left ih =>
    intro cs pairs rest h
    simp only [Toml.assignments, Option.bind_eq_bind, Option.bind_eq_some_iff, Prod.exists] at h
    obtain ⟨path, v, tail, hfirst, h⟩ := h
    have hv : InRange v := hread.assignment _ _ _ hfirst
    split at h
    · simp only [Option.bind_eq_some_iff, Prod.exists, Option.some.injEq, Prod.mk.injEq] at h
      obtain ⟨others, _, hothers, rfl, -⟩ := h
      have hpairs := ih _ _ _ hothers
      simpa [hv] using hpairs
    · simp only [Option.some.injEq, Prod.mk.injEq] at h
      simpa [← h.1] using hv
    · cases h

/-! ## Tables -/

/-- A change of a table keeps to the range. -/
def KeepsRange (change : TableOrigin → Entries → Option Entries) : Prop :=
  ∀ origin es es', change origin es = some es' → (∀ e ∈ es, InRange e.2) → ∀ e ∈ es', InRange e.2

namespace Entries
variable {es : Entries} {key : String} {v : Value}

theorem inRange_of_lookup (hes : ∀ e ∈ es, InRange e.2) (h : es.lookup key = some v) :
    InRange v := by
  obtain ⟨front, back, rfl, -⟩ := List.lookup_eq_some_iff.1 h
  exact hes (key, v) (by simp)

theorem inRange_add (hes : ∀ e ∈ es, InRange e.2) (hv : InRange v) :
    ∀ e ∈ es.add key v, InRange e.2 := by
  intro e he
  rcases List.mem_append.1 he with he | he
  · exact hes e he
  · rw [List.mem_singleton.1 he]
    exact hv

theorem inRange_replace (hes : ∀ e ∈ es, InRange e.2) (hv : InRange v) :
    ∀ e ∈ es.replace key v, InRange e.2 := by
  intro e he
  obtain ⟨e', he', rfl⟩ := List.mem_map.1 he
  split
  · exact hv
  · exact hes e' he'

theorem keepsRange_update (isDotted : Bool) {change : TableOrigin → Entries → Option Entries}
    (h : KeepsRange change) (path : List String) : KeepsRange (update isDotted change path) := by
  induction path with
  | nil => exact h
  | cons key path ih =>
    intro origin es es' hupdate hes
    simp only [update, Option.bind_eq_bind] at hupdate
    split at hupdate
    · obtain ⟨inner, hinner, hadd⟩ := Option.bind_eq_some_iff.1 hupdate
      obtain rfl := Option.some.inj hadd
      exact inRange_add hes (.table (ih _ _ _ hinner (by simp)))
    · rename_i hlookup
      split at hupdate
      · cases hupdate
      · obtain ⟨inner, hinner, hreplace⟩ := Option.bind_eq_some_iff.1 hupdate
        obtain rfl := Option.some.inj hreplace
        cases inRange_of_lookup hes hlookup with
        | table hold => exact inRange_replace hes (.table (ih _ _ _ hinner hold))
    · rename_i vs hlookup
      split at hupdate
      · rename_i hlast
        obtain ⟨inner, hinner, hreplace⟩ := Option.bind_eq_some_iff.1 hupdate
        obtain rfl := Option.some.inj hreplace
        cases inRange_of_lookup hes hlookup with
        | array hvs =>
          cases hvs _ (List.mem_of_getLast? hlast) with
          | table hold =>
            refine inRange_replace hes (.array fun v hv => ?_)
            rcases List.mem_append.1 hv with hv | hv
            · exact hvs v (List.dropLast_subset _ hv)
            · rw [List.mem_singleton.1 hv]
              exact .table (ih _ _ _ hinner hold)
      · cases hupdate
    · cases hupdate

theorem keepsRange_assign (path : List String) (hv : InRange v) : KeepsRange (assign path v) := by
  intro origin es es' h hes
  simp only [assign] at h
  split at h
  · cases h
  · refine keepsRange_update true ?_ _ _ _ _ h hes
    intro origin es es' hput hes
    simp only [put] at hput
    split at hput
    · cases hput
    · obtain rfl := Option.some.inj hput
      exact inRange_add hes hv

theorem keepsRange_openTable (key : String) : KeepsRange (openTable key) := by
  intro origin es es' h hes
  simp only [openTable] at h
  split at h
  · obtain rfl := Option.some.inj h
    exact inRange_add hes (.table (by simp))
  · rename_i hlookup
    obtain rfl := Option.some.inj h
    cases inRange_of_lookup hes hlookup with
    | table hinner => exact inRange_replace hes (.table hinner)
  · cases h

theorem keepsRange_openElement (key : String) : KeepsRange (openElement key) := by
  intro origin es es' h hes
  have hnew : InRange (.table .header []) := .table (by simp)
  simp only [openElement] at h
  split at h
  · obtain rfl := Option.some.inj h
    exact inRange_add hes (.array (by simpa using hnew))
  · rename_i hlookup
    obtain rfl := Option.some.inj h
    cases inRange_of_lookup hes hlookup with
    | array hvs =>
      refine inRange_replace hes (.array fun v hv => ?_)
      rcases List.mem_append.1 hv with hv | hv
      · exact hvs v hv
      · rw [List.mem_singleton.1 hv]
        exact hnew
  · cases h

end Entries

theorem foldlM_keeps {α β : Type} {f : β → α → Option β} {P : β → Prop} {l : List α} {b b' : β}
    (hstep : ∀ a ∈ l, ∀ b b', f b a = some b' → P b → P b') (h : l.foldlM f b = some b')
    (hb : P b) : P b' := by
  induction l generalizing b with
  | nil => exact Option.some.inj h ▸ hb
  | cons a l ih =>
    rw [List.foldlM_cons] at h
    obtain ⟨next, hnext, hrest⟩ := Option.bind_eq_some_iff.1 h
    exact ih (fun a' ha' => hstep a' (by simp [ha'])) hrest (hstep a (by simp) _ _ hnext hb)

theorem Gives.inlineTable {read : Reader Value} (hread : Gives read InRange) :
    Gives (inlineTable read) InRange := by
  intro cs v rest h
  simp only [Toml.inlineTable] at h
  split at h
  · simp only [Option.some.injEq, Prod.mk.injEq] at h
    exact h.1 ▸ .table (by simp)
  · simp only [Option.bind_eq_bind, Option.bind_eq_some_iff, Prod.exists, Option.some.injEq,
      Prod.mk.injEq] at h
    obtain ⟨pairs, _, hpairs, es, hes, rfl, -⟩ := h
    have hrange := hread.assignments _ _ _ _ hpairs
    refine .table (foldlM_keeps (P := fun es : Entries => ∀ e ∈ es, InRange e.2) ?_ hes (by simp))
    exact fun pair hpair es es' => Entries.keepsRange_assign _ (hrange pair hpair) _ es es'

theorem gives_value (levels : Nat) : Gives (value levels) InRange := by
  induction levels with
  | zero =>
    intro cs v rest h
    rw [value.eq_def] at h
    dsimp only at h
    split at h
    · cases h
    · cases h
    · exact gives_scalar _ _ _ h
  | succ levels ih =>
    intro cs v rest h
    rw [value.eq_def] at h
    dsimp only at h
    split at h
    · simp only [Option.map_eq_some_iff, Prod.exists, Prod.mk.injEq] at h
      obtain ⟨vs, _, hvs, rfl, -⟩ := h
      exact .array (ih.elements _ _ _ _ hvs)
    · exact ih.inlineTable _ _ _ h
    · exact gives_scalar _ _ _ h

/-! ## Texts -/

/-- The value that a line assigns is in the range. -/
def Line.InRange : Line → Prop
  | .assign _ v => Toml.InRange v
  | .header _ | .element _ => True

theorem gives_line : Gives line Line.InRange := by
  intro cs l rest h
  rw [line.eq_def] at h
  split at h
  · simp only [Option.bind_eq_bind, Option.bind_eq_some_iff, Option.some.injEq, Prod.mk.injEq] at h
    obtain ⟨_, _, _, _, _, _, _, _, rfl, -⟩ := h
    trivial
  · simp only [Option.bind_eq_bind, Option.bind_eq_some_iff, Option.some.injEq, Prod.mk.injEq] at h
    obtain ⟨_, _, _, _, _, _, rfl, -⟩ := h
    trivial
  · simp only [Option.bind_eq_bind, Option.bind_eq_some_iff, Option.some.injEq, Prod.mk.injEq] at h
    obtain ⟨_, hassign, _, _, rfl, -⟩ := h
    exact (gives_value maxDepth).assignment _ _ _ hassign

theorem inRange_lines {left : Nat} {cs : List Char} {ls : List Line} (h : lines left cs = some ls) :
    ∀ l ∈ ls, l.InRange := by
  induction left generalizing cs ls with
  | zero => cases h
  | succ left ih =>
    rw [lines] at h
    split at h
    · simp [← Option.some.inj h]
    · obtain ⟨rest, -, h⟩ := Option.bind_eq_some_iff.1 h
      exact ih h
    · exact ih h
    · exact ih h
    · simp only [Option.bind_eq_bind, Option.bind_eq_some_iff, Option.some.injEq, Prod.exists] at h
      obtain ⟨first, rest, hfirst, others, hothers, rfl⟩ := h
      simpa using ⟨gives_line _ _ _ hfirst, ih hothers⟩

theorem Document.inRange_add {d d' : Document} {l : Line} (h : d.add l = some d') (hl : l.InRange)
    (hd : ∀ e ∈ d.entries, InRange e.2) : ∀ e ∈ d'.entries, InRange e.2 := by
  cases l with
  | assign path v =>
    simp only [add, Option.bind_eq_bind, Option.bind_eq_some_iff, Option.some.injEq] at h
    obtain ⟨es, hes, rfl⟩ := h
    exact Entries.keepsRange_update false (Entries.keepsRange_assign path hl) _ _ _ _ hes hd
  | header path =>
    simp only [add, openAt, Option.bind_eq_bind, Option.bind_eq_some_iff, Option.some.injEq] at h
    obtain ⟨key, -, es, hes, rfl⟩ := h
    exact Entries.keepsRange_update false (Entries.keepsRange_openTable key) _ _ _ _ hes hd
  | element path =>
    simp only [add, openAt, Option.bind_eq_bind, Option.bind_eq_some_iff, Option.some.injEq] at h
    obtain ⟨key, -, es, hes, rfl⟩ := h
    exact Entries.keepsRange_update false (Entries.keepsRange_openElement key) _ _ _ _ hes hd

theorem inRange_parse {text : String} {es : Entries} (h : parse text = some es) :
    ∀ e ∈ es, InRange e.2 := by
  simp only [parse, Document.build, Option.bind_eq_bind, Option.bind_eq_some_iff,
    Option.map_eq_some_iff] at h
  obtain ⟨ls, hlines, d, hrun, rfl⟩ := h
  refine foldlM_keeps (P := fun d : Document => ∀ e ∈ d.entries, InRange e.2) ?_ hrun (by simp)
  exact fun l hl d d' hadd => Document.inRange_add hadd (inRange_lines hlines l hl)

end CodeAtlas.Toml

namespace CodeAtlas

open Toml

/-! ## Settings -/

namespace Toml.InRange

theorem setting? {v x : Value} {position : Nat} {name : String} (h : InRange v)
    (hx : v.setting? position name = some x) : InRange x := by
  cases h with
  | table hes => exact Entries.inRange_of_lookup hes hx
  | array hvs => exact hvs x (List.mem_of_getElem? hx)
  | _ => cases hx

theorem natural? {v : Value} {n : Nat} (h : InRange v) (hn : v.natural? = some n) :
    n ≤ maxInteger := by
  cases h with
  | @integer m hle =>
    cases m with
    | ofNat m =>
      obtain rfl := Option.some.inj hn
      exact Int.ofNat_le.1 hle
    | negSucc m => cases hn
  | _ => cases hn

/-- What holds of the default and of all that is read in the range holds of a
setting. -/
theorem of_setting {α : Type} {v : Value} {position : Nat} {name : String} {read : Value → Option α}
    {default a : α} {P : α → Prop} (h : InRange v) (hdefault : P default)
    (hread : ∀ x, InRange x → read x = some a → P a)
    (ha : v.setting position name read default = some a) : P a := by
  unfold Value.setting at ha
  split at ha
  · exact Option.some.inj ha ▸ hdefault
  · rename_i hx
    exact hread _ (h.setting? hx) ha

theorem of_natural_setting {v : Value} {position : Nat} {name : String} {default n : Nat}
    (h : InRange v) (hdefault : default ≤ maxInteger)
    (hn : v.setting position name Value.natural? default = some n) : n ≤ maxInteger :=
  h.of_setting (P := (· ≤ maxInteger)) hdefault (fun _ hx => hx.natural?) hn

end Toml.InRange

/-- The numbers of a scan are in the range. -/
def ScanningConfig.InRange (s : ScanningConfig) : Prop :=
  s.binarySniffBytes ≤ maxInteger ∧ s.maxFileSize ≤ maxInteger

/-- The numbers of pools and caches are in the range. -/
def PerformanceConfig.InRange (p : PerformanceConfig) : Prop :=
  p.maxWorkers ≤ maxInteger ∧ p.cacheSize ≤ maxInteger ∧ p.minFilesForParallel ≤ maxInteger ∧
    ∀ seconds ∈ p.timeoutSecs, seconds ≤ maxInteger

theorem ScanningConfig.inRange_ofToml {v : Value} {s : ScanningConfig} (hv : Toml.InRange v)
    (h : ScanningConfig.ofToml v = some s) : s.InRange := by
  simp only [ScanningConfig.ofToml, Option.bind_eq_bind, Option.bind_eq_some_iff, Option.pure_def,
    Option.some.injEq] at h
  obtain ⟨_, -, _, -, _, -, _, -, sniffed, hsniffed, size, hsize, _, -, rfl⟩ := h
  exact ⟨hv.of_natural_setting (by decide) hsniffed,
    hv.of_natural_setting (by decide) hsize⟩

theorem PerformanceConfig.inRange_ofToml {v : Value} {p : PerformanceConfig} (hv : Toml.InRange v)
    (h : PerformanceConfig.ofToml v = some p) : p.InRange := by
  simp only [PerformanceConfig.ofToml, Option.bind_eq_bind, Option.bind_eq_some_iff,
    Option.pure_def, Option.some.injEq] at h
  obtain ⟨_, -, workers, hworkers, cached, hcached, files, hfiles, timeout, htimeout, rfl⟩ := h
  refine ⟨hv.of_natural_setting (by decide) hworkers,
    hv.of_natural_setting (by decide) hcached,
    hv.of_natural_setting (by decide) hfiles,
    hv.of_setting (P := fun timeout => ∀ seconds ∈ timeout, seconds ≤ maxInteger)
      (by simp) ?_ htimeout⟩
  intro x hx hread seconds hseconds
  obtain ⟨n, hn, rfl⟩ := Option.map_eq_some_iff.1 hread
  obtain rfl := Option.some.inj hseconds
  exact hx.natural? hn

namespace Config

/-- No number among the settings is too large to be written. -/
def Writable (c : Config) : Prop := ∀ n ∈ c.numbers, n ≤ maxInteger

theorem writable_iff {c : Config} : c.Writable ↔ c.scanning.InRange ∧ c.performance.InRange := by
  simp [Writable, numbers, ScanningConfig.InRange, PerformanceConfig.InRange, and_assoc]

theorem writable_default : Writable {} := by
  simp [writable_iff, ScanningConfig.InRange, PerformanceConfig.InRange, maxInteger]

theorem writable_ofToml {v : Value} {c : Config} (hv : Toml.InRange v)
    (h : Config.ofToml v = some c) : c.Writable := by
  obtain ⟨hscanning, hperformance⟩ := writable_iff.1 writable_default
  simp only [Config.ofToml, Option.bind_eq_bind, Option.bind_eq_some_iff, Option.pure_def,
    Option.some.injEq] at h
  obtain ⟨_, -, scanning, hs, performance, hp, _, -, rfl⟩ := h
  exact writable_iff.2 ⟨hv.of_setting hscanning (fun x hx => ScanningConfig.inRange_ofToml hx) hs,
    hv.of_setting hperformance (fun x hx => PerformanceConfig.inRange_ofToml hx) hp⟩

theorem eq_of_checked {c c' : Config} (h : c'.checked = .ok c) : c' = c := by
  unfold checked at h
  split at h
  · cases h
  · split at h
    · cases h
    · exact Except.ok.inj h

/-- Settings that are read passed the check, and none of their numbers is too
large. -/
theorem of_parse {text : String} {c : Config} (h : Config.parse text = .ok c) :
    c.checked = .ok c ∧ c.Writable := by
  unfold Config.parse at h
  split at h
  · rename_i c' hread
    obtain rfl := eq_of_checked h
    obtain ⟨es, hes, hc⟩ := Option.bind_eq_some_iff.1 hread
    exact ⟨h, writable_ofToml (.table (inRange_parse hes)) hc⟩
  · cases h

end Config

end CodeAtlas
