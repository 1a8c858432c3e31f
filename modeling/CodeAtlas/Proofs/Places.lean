import CodeAtlas.Files.Disk
import CodeAtlas.Proofs.DottedName

/-! # Paths that lead to the same place

Texts are kept by the steps of the paths they were read from. The steps alone
decide which place a path leads to, up to one thing: a path that ends in a
slash or a dot leads to directories only. Empty steps and single dots on the
way change nothing, not even where links are followed. Hence a text that is
kept for one spelling of a path is the right one for every other spelling that
ends alike. -/
namespace CodeAtlas

namespace Text

theorem cutWhere_separator {α : Type} {p : α → Bool} {x : α} (hx : p x = true) (a b : List α) :
    cutWhere p (a ++ x :: b) = cutWhere p a ++ cutWhere p b := by
  induction a with
  | nil =>
    simp only [List.nil_append, cutWhere]
    cases hb : cutWhere p b with
    | nil => exact absurd hb (cutWhere_ne_nil p b)
    | cons piece pieces => simp [hx]
  | cons y rest ih =>
    simp only [List.cons_append, cutWhere, ih]
    cases hr : cutWhere p rest with
    | nil => exact absurd hr (cutWhere_ne_nil p rest)
    | cons piece pieces => by_cases hy : p y = true <;> simp [hy]

theorem split_separator (sep : Char) (a b : String) :
    split sep (a ++ String.ofList [sep] ++ b) = split sep a ++ split sep b := by
  have hchars : (a ++ String.ofList [sep] ++ b).toList = a.toList ++ sep :: b.toList := by simp
  unfold split
  rw [hchars, cutWhere_separator (by simp), List.map_append]

theorem split_slash (a b : String) : split '/' (a ++ "/" ++ b) = split '/' a ++ split '/' b :=
  split_separator '/' a b

/-- A text starts with a slash exactly if its first piece is empty and not its
only one. -/
theorem startsWith_slash_iff {s first : String} {rest : List String}
    (h : split '/' s = first :: rest) : startsWith s "/" = true ↔ first = "" ∧ rest ≠ [] := by
  have hs : s = join "/" (first :: rest) := by
    rw [← h]
    exact (join_split '/' s).symm
  constructor
  · intro hstart
    obtain ⟨chars, hchars⟩ := List.isPrefixOf_iff_prefix.mp hstart
    have hcut : split '/' s = "" :: split '/' (String.ofList chars) := by
      have hs' : s = "" ++ "/" ++ String.ofList chars := by
        apply String.toList_injective
        simpa using hchars.symm
      rw [hs', split_slash]
      rfl
    rw [h] at hcut
    obtain ⟨hfirst, hrest⟩ := List.cons.inj hcut
    exact ⟨hfirst, by rw [hrest]; exact split_ne_nil _ _⟩
  · rintro ⟨rfl, hrest⟩
    obtain ⟨second, more, rfl⟩ := List.exists_cons_of_ne_nil hrest
    rw [hs]
    simp [startsWith, join, joinChars]

end Text

open Text

namespace Path

/-- Whether a step leads from one place to another. -/
def isMove (step : String) : Bool := step ≠ "" ∧ step ≠ "."

/-- The last step, if there is one, leads somewhere. -/
def EndsInMove (steps : List String) : Prop :=
  ∀ last, steps.getLast? = some last → isMove last = true

instance : DecidablePred EndsInMove := fun steps =>
  decidable_of_iff (steps.getLast?.all isMove = true)
    (by cases h : steps.getLast? <;> simp [EndsInMove, h])

/-- A path ends in a name, and not in a slash or a dot. -/
def EndsInName (path : String) : Prop := EndsInMove (split '/' path)

theorem endsInMove_append {front back : List String} (hne : back ≠ []) :
    EndsInMove (front ++ back) ↔ EndsInMove back := by
  unfold EndsInMove
  rw [List.getLast?_append_of_ne_nil front hne]

/-- The steps that lead somewhere, and an idle one behind them if steps end in one. -/
def moves (steps : List String) : List String :=
  steps.filter isMove ++ if EndsInMove steps then [] else [""]

theorem moves_cons {rest : List String} (step : String) (hne : rest ≠ []) :
    moves (step :: rest) = if isMove step then step :: moves rest else moves rest := by
  have hend : EndsInMove (step :: rest) ↔ EndsInMove rest := by
    rw [← List.singleton_append, endsInMove_append hne]
  unfold moves
  rw [List.filter_cons]
  simp only [hend]
  split <;> rfl

theorem filter_moves (steps : List String) : (moves steps).filter isMove = steps.filter isMove := by
  unfold moves
  rw [List.filter_append, List.filter_filter]
  split <;> simp [show isMove "" = false from rfl]

theorem endsInMove_moves (steps : List String) : EndsInMove (moves steps) ↔ EndsInMove steps := by
  unfold moves
  split
  · rename_i hend
    refine iff_of_true ?_ hend
    intro last hlast
    rw [List.append_nil] at hlast
    exact (List.mem_filter.mp (List.mem_of_getLast? hlast)).2
  · rename_i hend
    rw [endsInMove_append (List.cons_ne_nil _ _)]
    refine iff_of_false ?_ hend
    intro hidle
    exact absurd (hidle "" rfl) (by decide)

/-- No step is lost altogether. -/
theorem moves_eq_nil_iff {steps : List String} : moves steps = [] ↔ steps = [] := by
  constructor
  · intro hnil
    obtain ⟨hfilter, hidle⟩ := List.append_eq_nil_iff.mp hnil
    cases hlast : steps.getLast? with
    | none => exact List.getLast?_eq_none_iff.mp hlast
    | some last =>
      have hend : EndsInMove steps := by
        by_contra hend
        simp [hend] at hidle
      have hmove := List.filter_eq_nil_iff.mp hfilter last (List.mem_of_getLast? hlast)
      exact absurd (hend last hlast) hmove
  · rintro rfl
    rfl

theorem components_of_split {path first : String} {rest : List String}
    (h : split '/' path = first :: rest) :
    components path =
      (if first = "" && !rest.isEmpty then ["/"] else if first = "" then [] else [first]) ++
        rest.filter isMove := by
  unfold components
  rw [h]
  rfl

/-- The steps of a path say whether it starts at the root. -/
theorem startsWith_slash_iff_components (path : String) :
    startsWith path "/" = true ↔ (components path).head? = some "/" := by
  obtain ⟨first, rest, hsplit⟩ := List.exists_cons_of_ne_nil (split_ne_nil '/' path)
  rw [startsWith_slash_iff hsplit, components_of_split hsplit]
  by_cases hfirst : first = ""
  · cases rest <;> simp [hfirst]
  · have hslash : first ≠ "/" := by
      rintro rfl
      have hmem : "/" ∈ split '/' path := by
        rw [hsplit]
        exact List.mem_cons_self
      exact not_mem_of_mem_split hmem (by simp : '/' ∈ "/".toList)
    simp [hfirst, hslash]

/-- The steps of a path say what its moves are. -/
theorem filter_split_eq (path : String) :
    (split '/' path).filter isMove =
      (if (components path).head? = some "/" then (components path).tail
        else components path).filter isMove := by
  have hstart := startsWith_slash_iff_components path
  obtain ⟨first, rest, hsplit⟩ := List.exists_cons_of_ne_nil (split_ne_nil '/' path)
  rw [startsWith_slash_iff hsplit] at hstart
  by_cases hroot : first = "" ∧ rest ≠ []
  · rw [if_pos (hstart.mp hroot), components_of_split hsplit, hsplit]
    simp [hroot.1, hroot.2, show isMove "" = false from rfl]
  · rw [if_neg (fun hh => hroot (hstart.mpr hh)), components_of_split hsplit, hsplit]
    by_cases hfirst : first = ""
    · have hrest : rest = [] := by
        by_contra hne
        exact hroot ⟨hfirst, hne⟩
      simp [hfirst, hrest, isMove]
    · simp [hfirst, List.filter_cons]

/-- Only the empty path has no steps. -/
theorem components_eq_nil_iff {path : String} : components path = [] ↔ path = "" := by
  constructor
  · intro hnil
    obtain ⟨first, rest, hsplit⟩ := List.exists_cons_of_ne_nil (split_ne_nil '/' path)
    rw [components_of_split hsplit] at hnil
    have hpath := join_split '/' path
    rw [hsplit] at hpath
    by_cases hfirst : first = ""
    · cases rest with
      | nil => rw [← hpath, hfirst]; rfl
      | cons second more => simp [hfirst] at hnil
    · simp [hfirst] at hnil
  · rintro rfl
    decide

end Path

open CodeAtlas.Path

namespace Disk

variable {d : Disk}

/-- A way to go on from a directory that only looks at the moves among the
steps left, and at whether these end in a move. -/
def ByMoves (onLink : List String → List String → Except FileError (List String)) : Prop :=
  ∀ here steps steps', (EndsInMove steps ↔ EndsInMove steps') →
    steps.filter isMove = steps'.filter isMove → onLink here steps = onLink here steps'

variable {onLink : List String → List String → Except FileError (List String)}

theorem go_moves (hlink : ByMoves onLink) (steps here : List String) :
    d.go onLink here steps = d.go onLink here (moves steps) := by
  induction steps generalizing here with
  | nil => rfl
  | cons step rest ih =>
    by_cases hmove : isMove step = true
    · have hidle : ¬(step = "" ∨ step = ".") := by simpa [isMove] using hmove
      by_cases hrest : rest = []
      · subst hrest
        have hend : EndsInMove [step] := by simpa [EndsInMove] using hmove
        simp [moves, hend, hmove]
      · rw [moves_cons step hrest, if_pos hmove]
        simp only [go, hidle, if_false, ih]
        split
        · rfl
        · -- what is asked of the steps left is only whether there are any
          have hmoves : moves rest ≠ [] := fun hnil => hrest (moves_eq_nil_iff.mp hnil)
          have hsame : ∀ target start, onLink start (split '/' target ++ rest) =
              onLink start (split '/' target ++ moves rest) := by
            intro target start
            apply hlink
            · rw [endsInMove_append hrest, endsInMove_append hmoves, endsInMove_moves]
            · rw [List.filter_append, List.filter_append, filter_moves]
          cases d.entryAt (here ++ [step]) with
          | none => simp only [hmoves, if_false]
          | some e =>
            cases e with
            | file content => simp only [hmoves, if_false]
            | directory => rfl
            | link target => simp only [hsame]
    · have hidle : step = "" ∨ step = "." := by
        simp only [isMove, decide_eq_true_eq] at hmove
        by_contra hne
        exact hmove (not_or.mp hne)
      by_cases hrest : rest = []
      · subst hrest
        have hend : ¬EndsInMove [step] := by simpa [EndsInMove] using hmove
        simp [moves, hend, hmove, go, hidle]
      · rw [moves_cons step hrest, if_neg hmove, ← ih]
        simp only [go, hidle, if_true]

theorem byMoves_go (hlink : ByMoves onLink) : ByMoves (d.go onLink) := by
  intro here steps steps' hend hsame
  have hmoves : moves steps = moves steps' := by
    unfold moves
    rw [hsame]
    simp only [hend]
  rw [go_moves hlink steps, go_moves hlink steps', hmoves]

theorem byMoves_follow (links : Nat) : ByMoves (d.follow links) := by
  induction links with
  | zero => exact byMoves_go fun _ _ _ _ _ => rfl
  | succ links ih => exact byMoves_go ih

variable {path path' : String}

/-- Paths that have the same steps and end alike lead to the same place. -/
theorem locate_congr (hend : EndsInName path ↔ EndsInName path')
    (hsteps : components path = components path') : d.locate path = d.locate path' := by
  have hempty : path = "" ↔ path' = "" := by
    rw [← components_eq_nil_iff, hsteps, components_eq_nil_iff]
  have hstart : startsWith path "/" = startsWith path' "/" := by
    rw [Bool.eq_iff_iff, startsWith_slash_iff_components, startsWith_slash_iff_components, hsteps]
  have hmoves : (split '/' path).filter isMove = (split '/' path').filter isMove := by
    rw [filter_split_eq, filter_split_eq, hsteps]
  unfold locate
  simp only [hempty, hstart, byMoves_follow maxLinks _ _ _ hend hmoves]

/-- What is read does not depend on the spelling of the path, if it ends alike. -/
theorem readLossy_congr (hend : EndsInName path ↔ EndsInName path')
    (hsteps : components path = components path') : d.readLossy path = d.readLossy path' := by
  unfold readLossy read stat
  rw [locate_congr hend hsteps]

end Disk

/-! ## The paths of source files -/

namespace Path

theorem fileName_eq_getLast (path : String) : (split '/' path).getLast? = some (fileName path) := by
  unfold fileName afterLast
  rw [List.getLastD_eq_getLast?, List.getLast?_eq_some_getLast (split_ne_nil '/' path)]
  rfl

/-- A path with an extension ends in a name. -/
theorem endsInName_of_extension {path extension : String} (h : extension? path = some extension) :
    EndsInName path := by
  intro last hlast
  rw [fileName_eq_getLast, Option.some.injEq] at hlast
  unfold extension? at h
  rw [hlast] at h
  have hempty : last ≠ "" := by
    rintro rfl
    have hnone : beforeLast? '.' "" = none := by decide
    simp [hnone] at h
  have hdot : last ≠ "." := by
    rintro rfl
    have hnone : beforeLast? '.' "." = some "" := by decide
    simp [hnone] at h
  simp [isMove, hempty, hdot]

/-- The path of a file below a directory ends as the path of the file does. -/
theorem endsInName_join {directory path : String} :
    EndsInName (join directory path) ↔ EndsInName path := by
  have hbelow : ∀ above, EndsInName (above ++ "/" ++ path) ↔ EndsInName path := by
    intro above
    unfold EndsInName
    rw [split_slash, endsInMove_append (split_ne_nil _ _)]
  unfold join
  split
  · rfl
  · split
    · rename_i hslash
      obtain ⟨above, habove⟩ := List.isSuffixOf_iff_suffix.mp hslash
      have hdirectory : directory = String.ofList above ++ "/" := by
        apply String.toList_injective
        rw [String.toList_append, String.toList_ofList]
        exact habove.symm
      rw [hdirectory]
      exact hbelow _
    · exact hbelow _

end Path

end CodeAtlas
