import CodeAtlas.Proofs.Ownership
import CodeAtlas.Proofs.Resolution

/-! # Dotted names and their segments

A dotted name is taken apart and put together at its dots. Joining pieces that
are dotted names themselves is joining their segments, and a name whose leading
segments have an owner, with no owner further on, is looked up in that owner. -/
namespace CodeAtlas

namespace Text

theorem joinChars_append (sep : List Char) {a b : List (List Char)} (ha : a ≠ []) (hb : b ≠ []) :
    joinChars sep (a ++ b) = joinChars sep a ++ sep ++ joinChars sep b := by
  induction a with
  | nil => exact absurd rfl ha
  | cons p rest ih =>
    cases rest with
    | nil =>
      cases b with
      | nil => exact absurd rfl hb
      | cons q more => rfl
    | cons q more =>
      have hrest := ih (by simp)
      simp only [List.cons_append, joinChars] at hrest ⊢
      rw [hrest]
      simp

theorem join_append {a b : List String} (ha : a ≠ []) (hb : b ≠ []) :
    join "." (a ++ b) = join "." a ++ "." ++ join "." b := by
  apply String.toList_injective
  simp only [join, String.toList_ofList, List.map_append, String.toList_append]
  exact joinChars_append _ (by simpa using ha) (by simpa using hb)

theorem join_singleton (s : String) : join "." [s] = s := by
  simp [join, joinChars]

theorem join_ne_empty {a : List String} (ha : a ≠ []) (h : ∀ s ∈ a, s ≠ "") : join "." a ≠ "" := by
  cases a with
  | nil => exact absurd rfl ha
  | cons s rest =>
    cases rest with
    | nil =>
      rw [join_singleton]
      exact h s (by simp)
    | cons q more =>
      have hcons := @join_append [s] (q :: more) (by simp) (by simp)
      rw [List.singleton_append] at hcons
      rw [hcons]
      simp

/-- A dotted name in front stands for its segments. -/
theorem join_join_cons {a : List String} (ha : a ≠ []) (b : List String) :
    join "." (join "." a :: b) = join "." (a ++ b) := by
  cases b with
  | nil => rw [join_singleton, List.append_nil]
  | cons q more =>
    have hcons := @join_append [join "." a] (q :: more) (by simp) (by simp)
    rw [List.singleton_append, join_singleton] at hcons
    rw [hcons, join_append ha (by simp)]

theorem join_split_dots (s : String) : join "." (split '.' s) = s := join_split '.' s

theorem split_join_dots {a : List String} (ha : a ≠ []) (h : ∀ s ∈ a, '.' ∉ s.toList) :
    split '.' (join "." a) = a := split_join '.' a ha h

theorem not_mem_of_mem_cutWhere {α : Type} {p : α → Bool} {l piece : List α}
    (h : piece ∈ cutWhere p l) : ∀ x ∈ piece, p x = false := by
  induction l generalizing piece with
  | nil =>
    simp only [cutWhere, List.mem_singleton] at h
    simp [h]
  | cons c rest ih =>
    simp only [cutWhere] at h
    split at h
    · rename_i hnil
      exact absurd hnil (cutWhere_ne_nil _ _)
    · rename_i first others hcut
      have hfirst := @ih first (by simp [hcut])
      split at h
      · rcases List.mem_cons.mp h with rfl | h
        · simp
        · exact ih (by rw [hcut]; exact h)
      · rename_i hc
        rcases List.mem_cons.mp h with rfl | h
        · intro x hx
          rcases List.mem_cons.mp hx with rfl | hx
          · simpa using hc
          · exact hfirst x hx
        · exact ih (by rw [hcut]; exact List.mem_cons_of_mem _ h)

theorem not_mem_of_mem_split {sep : Char} {s piece : String} (h : piece ∈ split sep s) :
    sep ∉ piece.toList := by
  obtain ⟨chars, hchars, rfl⟩ := List.mem_map.mp h
  intro hsep
  have hfalse := not_mem_of_mem_cutWhere hchars sep (by simpa using hsep)
  simp at hfalse

end Text

open Text

/-- Where leading segments have an owner and no longer part has one, the rest
is looked up in that owner. -/
theorem CallResolver.tryDirect_of_owner {t : ModuleTable} {k : String} {m : ModuleRecord}
    {segments rest : List String} (hdots : ∀ s ∈ segments ++ rest, '.' ∉ s.toList)
    (hne : segments ≠ []) (howner : (RepoIndex.build t).pathForDotted (join "." segments) = some k)
    (hm : t.get? k = some m) (hlonger : ∀ extra, extra ≠ [] → extra <+: rest →
      (RepoIndex.build t).pathForDotted (join "." (segments ++ extra)) = none) :
    (ofModules t).tryDirect (join "." (segments ++ rest)) =
      some ⟨m.id, (symbolIn m rest).getD noSymbol⟩ := by
  have hsplit : split '.' (join "." (segments ++ rest)) = segments ++ rest :=
    split_join_dots (by simp [hne]) hdots
  have hlongest : (RepoIndex.build t).longestPrefixModule (join "." (segments ++ rest)) =
      some (k, segments.length) := by
    unfold RepoIndex.longestPrefixModule
    rw [hsplit, RepoIndex.longestPrefixOf_eq_some_iff]
    refine ⟨List.length_pos_iff.mpr hne, by simp, by simpa using howner, ?_⟩
    intro j hj hle
    obtain ⟨n, rfl⟩ := Nat.exists_eq_add_of_lt hj
    have htake : (segments ++ rest).take (segments.length + n + 1) = segments ++
        rest.take (n + 1) := by
      rw [Nat.add_assoc, List.take_length_add_append]
    rw [htake]
    apply hlonger _ _ (List.take_prefix _ _)
    intro hnil
    rw [List.length_append] at hle
    have hrest : rest = [] := by simpa using hnil
    rw [hrest, List.length_nil] at hle
    omega
  rw [tryDirect_eq_some_iff]
  exact ⟨k, segments.length, m, hlongest, hm, by rw [hsplit, List.drop_left]⟩

end CodeAtlas
