import CodeAtlas.Engine.Run
import CodeAtlas.Proofs.Places
import Mathlib.Tactic.SplitIfs

/-! # The order of paths

Paths are compared by their characters, and that is the order of their bytes:
of two characters the smaller one has the smaller bytes, and none of their
encodings is the start of another. Paths below a directory come in the order of
the full paths, since what they have in common stands in front. Hence a walk
finds files in strictly ascending order. -/
namespace CodeAtlas

namespace Text

/-! ## Characters and bytes -/

theorem bytes_eq (s : String) : s.toUTF8.data.toList = s.toList.flatMap String.utf8EncodeChar := by
  show s.toByteArray.data.toList = _
  rw [← String.utf8Encode_toList, List.utf8Encode, List.toList_data_toByteArray]

theorem ofNat_lt_ofNat_iff {a b : Nat} (ha : a < 256) (hb : b < 256) :
    UInt8.ofNat a < UInt8.ofNat b ↔ a < b := by
  rw [UInt8.lt_iff_toNat_lt, UInt8.toNat_ofNat_of_lt' ha, UInt8.toNat_ofNat_of_lt' hb]

theorem ofNat_eq_ofNat_iff {a b : Nat} (ha : a < 256) (hb : b < 256) :
    UInt8.ofNat a = UInt8.ofNat b ↔ a = b := by
  rw [← UInt8.toNat_inj, UInt8.toNat_ofNat_of_lt' ha, UInt8.toNat_ofNat_of_lt' hb]

/-- Numbers are compared by what stands before their last six bits, and then by
these. -/
theorem lt_by_digits {a b : Nat} (h : a < b) :
    a / 64 < b / 64 ∨ (a / 64 = b / 64 ∧ a % 64 < b % 64) := by
  omega

theorem utf8EncodeChar_append_lt {c c' : Char} (h : c < c') (rest rest' : List UInt8) :
    String.utf8EncodeChar c ++ rest < String.utf8EncodeChar c' ++ rest' := by
  have hlt : c.val.toNat < c'.val.toNat := h
  have hmax : c'.val.toNat < 0x110000 := by
    rcases c'.valid with hv | hv <;> omega
  rw [String.utf8EncodeChar.eq_def c, String.utf8EncodeChar.eq_def c']
  generalize c.val.toNat = v at *
  generalize c'.val.toNat = v' at *
  have hshift : ∀ n : Nat, n / 4096 = n / 64 / 64 ∧ n / 262144 = n / 64 / 64 / 64 := by omega
  have hlast := @lt_by_digits v v'
  have hmiddle := @lt_by_digits (v / 64) (v' / 64)
  have hfirst := @lt_by_digits (v / 64 / 64) (v' / 64 / 64)
  simp only [hshift]
  -- a case for each pair of lengths: if they differ, so do the first bytes, and else
  -- the digits decide
  split_ifs
  all_goals
    simp (disch := omega) only [List.cons_append, List.nil_append, List.cons_lt_cons_iff,
      ofNat_lt_ofNat_iff, ofNat_eq_ofNat_iff]
    omega

theorem flatMap_utf8EncodeChar_lt {l l' : List Char} (h : l < l') :
    l.flatMap String.utf8EncodeChar < l'.flatMap String.utf8EncodeChar := by
  induction l generalizing l' with
  | nil =>
    cases l' with
    | nil => exact absurd h (List.lt_irrefl [])
    | cons c rest =>
      obtain ⟨b, bytes, hb⟩ := List.exists_cons_of_ne_nil (String.utf8EncodeChar_ne_nil (c := c))
      simp [hb]
  | cons c rest ih =>
    cases l' with
    | nil => exact absurd h (List.not_lt_nil _)
    | cons c' rest' =>
      rcases List.cons_lt_cons_iff.mp h with hlt | ⟨rfl, hlt⟩
      · exact utf8EncodeChar_append_lt hlt _ _
      · exact List.append_left_lt (ih hlt)

/-- The order of texts is the order of their bytes. -/
theorem bytes_lt {s t : String} (h : s < t) : s.toUTF8.data.toList < t.toUTF8.data.toList := by
  rw [bytes_eq, bytes_eq]
  exact flatMap_utf8EncodeChar_lt (String.lt_iff.mp h)

/-! ## Texts with the same start -/

theorem lt_of_append_lt {lead s t : String} (h : lead ++ s < lead ++ t) : s < t := by
  have hmono : ∀ {s t : String}, s < t → lead ++ s < lead ++ t := by
    intro s t hlt
    rw [String.lt_iff, String.toList_append, String.toList_append]
    exact List.append_left_lt (String.lt_iff.mp hlt)
  by_contra hge
  have hne : s ≠ t := by
    rintro rfl
    exact String.lt_irrefl _ h
  exact String.lt_irrefl _ (String.lt_trans h (hmono (Dict.lt_of_not_lt_of_ne hge hne)))

theorem join_slash_append {front back : List String} (hfront : front ≠ []) (hback : back ≠ []) :
    join "/" (front ++ back) = join "/" front ++ "/" ++ join "/" back := by
  apply String.toList_injective
  simp only [join, String.toList_ofList, List.map_append, String.toList_append]
  exact joinChars_append _ (by simpa using hfront) (by simpa using hback)

end Text

open Text

/-! ## Files below a directory -/

theorem Disk.below?_eq_some {directory steps : List String} {key : String}
    (h : below? directory key = some steps) : key = join "/" (directory ++ steps) ∧ steps ≠ [] := by
  simp only [below?] at h
  split at h
  · rename_i hbelow
    cases h
    simp only [Bool.and_eq_true, List.isPrefixOf_iff_prefix, decide_eq_true_eq] at hbelow
    obtain ⟨⟨rest, hrest⟩, hlength⟩ := hbelow
    constructor
    · rw [← hrest, List.drop_left, hrest]
      exact (join_split '/' key).symm
    · intro hnil
      have := List.drop_eq_nil_iff.mp hnil
      omega
  · cases h

/-- Paths below a directory are in the order of the full paths. -/
theorem Disk.below?_lt {directory steps steps' : List String} {key key' : String}
    (h : below? directory key = some steps) (h' : below? directory key' = some steps')
    (hlt : key < key') : join "/" steps < join "/" steps' := by
  obtain ⟨rfl, hne⟩ := below?_eq_some h
  obtain ⟨rfl, hne'⟩ := below?_eq_some h'
  by_cases hd : directory = []
  · simpa [hd] using hlt
  · rw [join_slash_append hd hne, join_slash_append hd hne'] at hlt
    exact lt_of_append_lt hlt

theorem Disk.entriesBelow_sorted (d : Disk) (directory : List String) :
    (d.entriesBelow directory).Pairwise fun a b => join "/" a.1 < join "/" b.1 := by
  refine List.Pairwise.filterMap _ ?_ d.entries.sorted
  rintro ⟨key, e⟩ ⟨key', e'⟩ hlt x hx x' hx'
  obtain ⟨steps, hsteps, rfl⟩ := Option.map_eq_some_iff.mp hx
  obtain ⟨steps', hsteps', rfl⟩ := Option.map_eq_some_iff.mp hx'
  exact below?_lt hsteps hsteps' hlt

namespace Walk

variable {c : ScanningConfig} {d : Disk} {root : List String}

theorem seenFiles_sorted :
    (seenFiles c d root).Pairwise fun a b => join "/" a.1 < join "/" b.1 := by
  refine List.Pairwise.filterMap _ ?_ (d.entriesBelow_sorted root)
  rintro ⟨steps, e⟩ ⟨steps', e'⟩ hlt x hx x' hx'
  cases e with
  | file content =>
    cases e' with
    | file content' =>
      obtain ⟨_, hx⟩ := Option.ite_none_right_eq_some.mp hx
      obtain ⟨_, hx'⟩ := Option.ite_none_right_eq_some.mp hx'
      cases hx
      cases hx'
      exact hlt
    | directory => cases hx'
    | link target => cases hx'
  | directory => cases hx
  | link target => cases hx

/-- What a source is made of: its path has an extension with a language. -/
theorem source_eq_some {steps : List String} {content : List UInt8} {x : SourceFile × List UInt8}
    (h : (do
      let path := join "/" steps
      let language ← c.languageFor (← Path.extension? path)
      some ((⟨path, language⟩ : SourceFile), content)) = some x) :
    x.1.path = join "/" steps ∧ ∃ extension, Path.extension? x.1.path = some extension := by
  obtain ⟨extension, hextension, h⟩ := Option.bind_eq_some_iff.mp h
  obtain ⟨language, _, h⟩ := Option.bind_eq_some_iff.mp h
  cases h
  exact ⟨rfl, extension, hextension⟩

theorem sources_sorted : (sources c d root).Pairwise fun a b => a.1.path < b.1.path := by
  refine List.Pairwise.filterMap _ ?_ seenFiles_sorted
  rintro ⟨steps, content⟩ ⟨steps', content'⟩ hlt x hx x' hx'
  rw [(source_eq_some hx).1, (source_eq_some hx').1]
  exact hlt

theorem sources_extension {x : SourceFile × List UInt8} (h : x ∈ sources c d root) :
    ∃ extension, Path.extension? x.1.path = some extension := by
  obtain ⟨⟨steps, content⟩, _, hx⟩ := List.mem_filterMap.mp h
  exact (source_eq_some hx).2

/-- A walk finds files in strictly ascending order of paths. -/
theorem outcome_sorted (f : PathFilter) :
    (outcome c f (sources c d root)).files.Pairwise fun a b => a.path < b.path :=
  List.pairwise_map.mpr (sources_sorted.filter _)

end Walk

namespace Engine

variable {e : Engine} {d : Disk} {r : Request} {found : WalkOutcome}

/-- What a walk for a request found: the files of the walk from the root that
the patterns select. -/
theorem find_eq_ok_iff : e.find d r = .ok found ↔ ∃ place filter, d.root r.root = .ok place ∧
    PathFilter.ofPatterns r.includePattern r.excludePattern = .ok filter ∧
    found = Walk.outcome e.config.scanning filter (Walk.sources e.config.scanning d place) := by
  unfold find Disk.walk
  cases hroot : d.root r.root with
  | error why => simp [Except.mapError, bind, Except.bind]
  | ok place =>
    cases hfilter : PathFilter.ofPatterns r.includePattern r.excludePattern with
    | error why => simp [Except.mapError, bind, Except.bind]
    | ok filter => simp [Except.mapError, bind, Except.bind, Except.map, eq_comm]

theorem find_named (h : e.find d r = .ok found) {file : SourceFile} (hfile : file ∈ found.files) :
    Path.EndsInName file.path := by
  obtain ⟨place, filter, _, _, rfl⟩ := find_eq_ok_iff.mp h
  obtain ⟨x, hx, rfl⟩ := List.mem_map.mp hfile
  obtain ⟨extension, hextension⟩ := Walk.sources_extension (List.mem_filter.mp hx).1
  exact Path.endsInName_of_extension hextension

theorem find_sorted (h : e.find d r = .ok found) :
    found.files.Pairwise fun a b => a.path < b.path := by
  obtain ⟨place, filter, _, _, rfl⟩ := find_eq_ok_iff.mp h
  exact Walk.outcome_sorted filter

end Engine

end CodeAtlas
