import CodeAtlas.Data.Dict

/-! # Look-up in finite maps

Look-up is the one view of a map that the rest of the theory uses. Because keys
are in strict order, an entry is in the list of a map exactly when look-up
finds it, and each way of building a map has one equation for look-up: of
several bindings of a key, the last one counts. -/
namespace CodeAtlas.Dict

variable {α β : Type}

/-! ## Entries and look-up -/

theorem eq_of_mem_sorted {l : List (String × α)} (hs : l.Pairwise (fun a b => a.1 < b.1))
    {a b : String × α} (ha : a ∈ l) (hb : b ∈ l) (h : a.1 = b.1) : a = b := by
  induction hs with
  | nil => cases ha
  | @cons c rest hc _ ih =>
    rcases List.mem_cons.mp ha with rfl | ha' <;> rcases List.mem_cons.mp hb with rfl | hb'
    · rfl
    · have hlt := hc b hb'
      rw [h] at hlt
      exact absurd hlt (String.lt_irrefl _)
    · have hlt := hc a ha'
      rw [h] at hlt
      exact absurd hlt (String.lt_irrefl _)
    · exact ih ha' hb'

/-- Look-up finds exactly the entries. -/
theorem get?_eq_some_iff {d : Dict α} {k : String} {v : α} :
    d.get? k = some v ↔ (k, v) ∈ d.entries := by
  unfold get?
  constructor
  · intro h
    obtain ⟨front, back, he, _⟩ := List.lookup_eq_some_iff.mp h
    simp [he]
  · intro h
    cases hl : d.entries.lookup k with
    | none =>
      have hne := List.lookup_eq_none_iff.mp hl (k, v) h
      simp at hne
    | some w =>
      obtain ⟨front, back, he, _⟩ := List.lookup_eq_some_iff.mp hl
      have hw : (k, w) ∈ d.entries := by simp [he]
      have heq := eq_of_mem_sorted d.sorted hw h rfl
      exact congrArg (fun e => some e.2) heq

theorem mem_toList {d : Dict α} {e : String × α} : e ∈ d.toList ↔ d.get? e.1 = some e.2 :=
  get?_eq_some_iff.symm

theorem mem_values {d : Dict α} {v : α} : v ∈ d.values ↔ ∃ k, d.get? k = some v := by
  simp only [values, List.mem_map]
  constructor
  · rintro ⟨⟨k, w⟩, hm, rfl⟩
    exact ⟨k, get?_eq_some_iff.mpr hm⟩
  · rintro ⟨k, hk⟩
    exact ⟨(k, v), get?_eq_some_iff.mp hk, rfl⟩

theorem mem_values_of_get? {d : Dict α} {k : String} {v : α} (h : d.get? k = some v) :
    v ∈ d.values :=
  mem_values.mpr ⟨k, h⟩

theorem forall_mem_values {d : Dict α} {P : α → Prop} :
    (∀ v ∈ d.values, P v) ↔ ∀ e ∈ d.toList, P e.2 := by
  constructor
  · intro h e he
    exact h e.2 (List.mem_map_of_mem he)
  · intro h v hv
    obtain ⟨e, he, rfl⟩ := List.mem_map.mp hv
    exact h e he

theorem mem_keys {d : Dict α} {k : String} : k ∈ d.keys ↔ ∃ v, d.get? k = some v := by
  simp only [keys, List.mem_map]
  constructor
  · rintro ⟨⟨k, v⟩, hm, rfl⟩
    exact ⟨v, get?_eq_some_iff.mpr hm⟩
  · rintro ⟨v, hv⟩
    exact ⟨(k, v), get?_eq_some_iff.mp hv, rfl⟩

/-! ## Look-up after building -/

/-- Of several bindings of a key the last one counts, and all of them go before
the bindings that were there. -/
theorem get?_insertMany (d : Dict α) (l : List (String × α)) (k : String) :
    (d.insertMany l).get? k = (l.reverse.lookup k).or (d.get? k) := by
  unfold insertMany
  induction l generalizing d with
  | nil => simp
  | cons e rest ih =>
    obtain ⟨key, v⟩ := e
    rw [List.foldl_cons, ih, List.reverse_cons, List.lookup_append, get?_insert, Option.or_assoc]
    congr 1
    by_cases h : k = key
    · simp [h]
    · simp [List.lookup_cons, beq_false_of_ne h, h]

theorem get?_ofList (l : List (String × α)) (k : String) :
    (ofList l).get? k = l.reverse.lookup k := by
  simp [ofList, get?_insertMany]

/-- The last entry of a key counts. -/
theorem get?_ofList_last (front : List (String × α)) {k : String} (v : α) {back : List (String × α)}
    (h : ∀ e ∈ back, e.1 ≠ k) : (ofList (front ++ (k, v) :: back)).get? k = some v := by
  rw [get?_ofList, List.lookup_eq_some_iff]
  refine ⟨back.reverse, front.reverse, by simp, ?_⟩
  intro e he
  exact bne_iff_ne.mpr (h e (List.mem_reverse.mp he)).symm

theorem mem_of_lookup_reverse {l : List (String × α)} {k : String} {v : α}
    (h : l.reverse.lookup k = some v) : (k, v) ∈ l := by
  obtain ⟨front, back, he, _⟩ := List.lookup_eq_some_iff.mp h
  exact List.mem_reverse.mp (by simp [he])

theorem isSome_lookup_reverse {l : List (String × α)} {k : String} :
    (l.reverse.lookup k).isSome = true ↔ k ∈ l.map (·.1) := by
  cases h : l.reverse.lookup k with
  | some v => exact iff_of_true rfl (List.mem_map.mpr ⟨(k, v), mem_of_lookup_reverse h, rfl⟩)
  | none =>
    refine iff_of_false Bool.false_ne_true ?_
    intro hk
    obtain ⟨e, he, rfl⟩ := List.mem_map.mp hk
    have hne := List.lookup_eq_none_iff.mp h e (List.mem_reverse.mpr he)
    simp at hne

theorem lookup_reverse_eq (l : List (String × α)) (k : String) :
    l.reverse.lookup k = ((l.filter (·.1 = k)).getLast?).map (·.2) := by
  induction l with
  | nil => rfl
  | cons e rest ih =>
    obtain ⟨key, v⟩ := e
    rw [List.reverse_cons, List.lookup_append, ih]
    by_cases h : key = k
    · subst h
      cases hrest : (rest.filter (·.1 = key)).getLast? <;> simp [List.getLast?_cons, hrest]
    · have hne : (k == key) = false := beq_false_of_ne (Ne.symm h)
      simp [List.lookup_cons, hne, h]

theorem mem_of_get?_ofList {l : List (String × α)} {k : String} {v : α}
    (h : (ofList l).get? k = some v) : (k, v) ∈ l := by
  rw [get?_ofList] at h
  exact mem_of_lookup_reverse h

/-- Where all entries of a key say the same, look-up finds exactly the entries. -/
theorem get?_ofList_iff_of_agree {l : List (String × α)}
    (h : ∀ e ∈ l, ∀ e' ∈ l, e.1 = e'.1 → e.2 = e'.2) {k : String} {v : α} :
    (ofList l).get? k = some v ↔ (k, v) ∈ l := by
  refine ⟨mem_of_get?_ofList, fun hmem => ?_⟩
  cases hget : (ofList l).get? k with
  | none =>
    rw [get?_ofList] at hget
    have hne := List.lookup_eq_none_iff.mp hget (k, v) (List.mem_reverse.mpr hmem)
    simp at hne
  | some w => exact congrArg some (h (k, w) (mem_of_get?_ofList hget) (k, v) hmem rfl)

theorem lookup_map_value (f : String → α → β) (l : List (String × α)) (k : String) :
    (l.map fun e => (e.1, f e.1 e.2)).lookup k = (l.lookup k).map (f k) := by
  induction l with
  | nil => rfl
  | cons e rest ih =>
    obtain ⟨key, v⟩ := e
    simp only [List.map_cons, List.lookup_cons, ih]
    by_cases h : k = key
    · simp [h]
    · simp [beq_false_of_ne h]

theorem get?_map (f : String → α → β) (d : Dict α) (k : String) :
    (d.map f).get? k = (d.get? k).map (f k) :=
  lookup_map_value f d.entries k

/-! ## Entries that come in order -/

theorem insertEntry_of_all_lt {k : String} {v : α} {l : List (String × α)} (h : ∀ e ∈ l, e.1 < k) :
    insertEntry k v l = l ++ [(k, v)] := by
  induction l with
  | nil => rfl
  | cons e rest ih =>
    obtain ⟨hlt, hrest⟩ := List.forall_mem_cons.mp h
    have hge : ¬k < e.1 := fun h' => String.lt_irrefl k (String.lt_trans h' hlt)
    have hne : k ≠ e.1 := fun h' => String.lt_irrefl k (h' ▸ hlt)
    simp [insertEntry, hge, hne, ih hrest]

theorem entries_insertMany_of_sorted (d : Dict α) {l : List (String × α)}
    (h : (d.entries ++ l).Pairwise (fun a b => a.1 < b.1)) :
    (d.insertMany l).entries = d.entries ++ l := by
  unfold insertMany
  induction l generalizing d with
  | nil => simp
  | cons e rest ih =>
    have hlast : (d.insert e.1 e.2).entries = d.entries ++ [e] :=
      insertEntry_of_all_lt fun x hx => (List.pairwise_append.mp h).2.2 x hx e (by simp)
    rw [List.foldl_cons, ih (d.insert e.1 e.2) (by rw [hlast]; simpa using h), hlast]
    simp

/-- The map of entries in order has just these entries. -/
theorem toList_ofList {l : List (String × α)} (h : l.Pairwise (fun a b => a.1 < b.1)) :
    (ofList l).toList = l :=
  entries_insertMany_of_sorted empty h

/-! ## Replacing a value -/

theorem insertEntry_of_mem {k : String} {v w : α} {l : List (String × α)}
    (hs : l.Pairwise (fun a b => a.1 < b.1)) (h : (k, w) ∈ l) :
    insertEntry k v l = l.map fun e => if e.1 = k then (k, v) else e := by
  induction l with
  | nil => cases h
  | cons e rest ih =>
    obtain ⟨he, hrest⟩ := List.pairwise_cons.mp hs
    rcases List.mem_cons.mp h with rfl | hmem
    · have hkeep : rest.map (fun e => if e.1 = k then (k, v) else e) = rest := by
        rw [List.map_congr_left (g := id) ?_, List.map_id]
        intro x hx
        have hne : x.1 ≠ k := fun hx' => String.lt_irrefl k (hx' ▸ he x hx)
        simp [hne]
      rw [insertEntry, if_neg (String.lt_irrefl k), if_pos rfl]
      simp [hkeep]
    · have hlt : e.1 < k := he (k, w) hmem
      have hge : ¬k < e.1 := fun h' => String.lt_irrefl k (String.lt_trans h' hlt)
      have hne : e.1 ≠ k := fun h' => String.lt_irrefl k (h' ▸ hlt)
      simp [insertEntry, hge, Ne.symm hne, hne, ih hrest hmem]

/-- Binding a key that is bound already replaces its value and leaves
everything in its place. -/
theorem toList_insert_of_get? {d : Dict α} {k : String} {w : α} (h : d.get? k = some w) (v : α) :
    (d.insert k v).toList = d.toList.map fun e => if e.1 = k then (k, v) else e :=
  insertEntry_of_mem d.sorted (get?_eq_some_iff.mp h)

/-! ## Equal maps -/

theorem nodup_entries (d : Dict α) : d.entries.Nodup := by
  refine d.sorted.imp ?_
  intro x y hlt he
  rw [he] at hlt
  exact String.lt_irrefl _ hlt

/-- Maps in which look-up finds the same are equal. -/
theorem ext_get? {d e : Dict α} (h : ∀ k, d.get? k = e.get? k) : d = e := by
  have hperm : d.entries.Perm e.entries := by
    refine (List.perm_ext_iff_of_nodup d.nodup_entries e.nodup_entries).mpr fun x => ?_
    rw [← get?_eq_some_iff, ← get?_eq_some_iff, h]
  refine ext (hperm.eq_of_pairwise ?_ d.sorted e.sorted)
  intro x y _ _ hxy hyx
  exact absurd (String.lt_trans hxy hyx) (String.lt_irrefl _)

theorem keys_map (f : String → α → β) (d : Dict α) : (d.map f).keys = d.keys := by
  simp [keys, map]

theorem values_map (f : α → β) (d : Dict α) : (d.map fun _ => f).values = d.values.map f := by
  simp [values, map]

/-! ## Sets of names -/

theorem mem_nameSet_iff {names : List String} {name : String} :
    name ∈ (NameSet.ofList names).toList ↔ name ∈ names := by
  have hget : (NameSet.ofList names).get? name = some () ↔
      (name, ()) ∈ names.map fun s => (s, ()) :=
    get?_ofList_iff_of_agree fun _ _ _ _ _ => rfl
  have hkey : name ∈ (NameSet.ofList names).toList ↔
      (NameSet.ofList names).get? name = some () := by
    rw [NameSet.toList, mem_keys]
    constructor
    · rintro ⟨_, h⟩
      exact h
    · intro h
      exact ⟨(), h⟩
  rw [hkey, hget]
  simp

end CodeAtlas.Dict
