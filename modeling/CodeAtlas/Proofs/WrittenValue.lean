import CodeAtlas.Proofs.WrittenText

/-! # Values read back as they were written

A number is written in decimal digits. Behind them stands the end of a line, so
that they are neither a date nor a float, and no zero stands before them, so
that they are an integer. -/
namespace CodeAtlas.Toml

/-! ## Digits -/

theorem ofNat_of_lt {n : Nat} (h : n < 10) : ofNat n = [Nat.digitChar n] :=
  Nat.toDigits_of_lt_base h

theorem ofNat_of_le {n : Nat} (h : 10 ≤ n) : ofNat n = ofNat (n / 10) ++ [Nat.digitChar (n % 10)] :=
  Nat.toDigits_of_base_le (by decide) h

theorem digitChar_spec : ∀ n < 10,
    isDigit (Nat.digitChar n) = true ∧ Text.hexValue (Nat.digitChar n) = n ∧
    (Nat.digitChar n = '0' → n = 0) := by
  decide

theorem isDigit_of_mem_ofNat {c : Char} {n : Nat} (h : c ∈ ofNat n) : isDigit c = true := by
  induction n using Nat.strongRecOn with
  | ind n ih =>
    rcases Nat.lt_or_ge n 10 with hn | hn
    · rw [ofNat_of_lt hn, List.mem_singleton] at h
      exact h ▸ (digitChar_spec n hn).1
    · rw [ofNat_of_le hn, List.mem_append, List.mem_singleton] at h
      rcases h with h | rfl
      · exact ih _ (by omega) h
      · exact (digitChar_spec _ (Nat.mod_lt n (by decide))).1

theorem numberOf_ofNat (n : Nat) : numberOf 10 (ofNat n) = n := by
  induction n using Nat.strongRecOn with
  | ind n ih =>
    rcases Nat.lt_or_ge n 10 with hn | hn
    · simp [ofNat_of_lt hn, numberOf, (digitChar_spec n hn).2.1]
    · have hfront : numberOf 10 (ofNat (n / 10)) = n / 10 := ih _ (by omega)
      have hlast := (digitChar_spec _ (Nat.mod_lt n (by decide : 0 < 10))).2.1
      simp only [numberOf] at hfront
      simp only [numberOf, ofNat_of_le hn, List.foldl_append, List.foldl_cons, List.foldl_nil,
        hfront, hlast]
      omega

/-- Only zero starts with a zero. -/
theorem ofNat_head (n : Nat) : ∃ c more, ofNat n = c :: more ∧ (c = '0' → more = []) := by
  induction n using Nat.strongRecOn with
  | ind n ih =>
    rcases Nat.lt_or_ge n 10 with hn | hn
    · exact ⟨_, _, ofNat_of_lt hn, fun _ => rfl⟩
    · obtain ⟨c, more, hfront, hzero⟩ := ih (n / 10) (by omega)
      refine ⟨c, more ++ [Nat.digitChar (n % 10)], by rw [ofNat_of_le hn, hfront]; rfl,
        fun hc => ?_⟩
      -- A zero would be all of the digits before the last one, but they stand for at
      -- least one ten.
      have hvalue := numberOf_ofNat (n / 10)
      rw [hfront, hzero hc, hc] at hvalue
      have hnone : numberOf 10 ['0'] = 0 := rfl
      omega

/-! ## Numbers -/

/-- What may stand behind a value: the end of its line, or what goes on in an
array. -/
def EndsValue (rest : List Char) : Prop :=
  ∃ c more, rest = c :: more ∧ (c = '\n' ∨ c = ',' ∨ c = ']')

theorem EndsValue.unquoted {rest : List Char} (h : EndsValue rest) : Unquoted rest := by
  obtain ⟨c, more, rfl, rfl | rfl | rfl⟩ := h <;> simp [Unquoted]

theorem ne_of_isDigit {c d : Char} (h : isDigit c = true) (hd : isDigit d = false) : c ≠ d := by
  rintro rfl
  rw [h] at hd
  cases hd

theorem moreDigits_append {ds rest : List Char} (hds : ∀ c ∈ ds, isDigit c = true)
    (h : EndsValue rest) : moreDigits isDigit (ds ++ rest) = (ds, rest) := by
  induction ds with
  | nil => obtain ⟨c, more, rfl, rfl | rfl | rfl⟩ := h <;> simp [moreDigits, isDigit]
  | cons c ds ih =>
    have hc : isDigit c = true := hds c (by simp)
    have hline : c ≠ '_' := ne_of_isDigit hc (by decide)
    simp [moreDigits, hc, hline, ih fun d hd => hds d (by simp [hd])]

theorem decimalDigits_ofNat (n : Nat) {rest : List Char} (h : EndsValue rest) :
    decimalDigits (ofNat n ++ rest) = some (ofNat n, rest) := by
  obtain ⟨c, more, hn, hzero⟩ := ofNat_head n
  have hdigits : ∀ d ∈ c :: more, isDigit d = true :=
    fun d hd => isDigit_of_mem_ofNat (n := n) (hn ▸ hd)
  rw [hn]
  by_cases hc : c = '0'
  · rw [hzero hc, hc]
    rfl
  · have hmore : moreDigits isDigit (more ++ rest) = (more, rest) :=
      moreDigits_append (fun d hd => hdigits d (by simp [hd])) h
    simp [decimalDigits, hc, someDigits, hdigits c (by simp), hmore]

section Digits
variable {ds rest : List Char} (hds : ∀ c ∈ ds, isDigit c = true) (h : EndsValue rest)
include hds h

/-- A digit at the front is one of the digits. -/
theorem digits_of_cons {c : Char} {tail : List Char} (heq : ds ++ rest = c :: tail)
    (hc : isDigit c = true) : ∃ ds', (∀ c ∈ ds', isDigit c = true) ∧ tail = ds' ++ rest := by
  cases ds with
  | nil =>
    obtain ⟨d, more, rfl, hd⟩ := h
    obtain ⟨rfl, -⟩ := List.cons.inj heq
    rcases hd with rfl | rfl | rfl <;> exact absurd hc (by decide)
  | cons d ds =>
    obtain ⟨rfl, rfl⟩ := List.cons.inj heq
    exact ⟨ds, fun x hx => hds x (by simp [hx]), rfl⟩

theorem expect_digits {x : Char} (hx : isDigit x = false) (hend : x ≠ '\n' ∧ x ≠ ',' ∧ x ≠ ']') :
    expect x (ds ++ rest) = none := by
  cases ds with
  | nil =>
    obtain ⟨d, more, rfl, rfl | rfl | rfl⟩ := h <;> simp [expect, hend, eq_comm]
  | cons d ds => simp [expect, ne_of_isDigit (hds d (by simp)) hx]

theorem twoDigits_digits {most n : Nat} {tail : List Char}
    (heq : twoDigits most (ds ++ rest) = some (n, tail)) :
    ∃ ds', (∀ c ∈ ds', isDigit c = true) ∧ tail = ds' ++ rest := by
  rw [twoDigits.eq_def] at heq
  split at heq
  · rename_i a b tail' hcs
    split at heq
    · rename_i hab
      simp only [Bool.and_eq_true, decide_eq_true_eq] at hab
      obtain ⟨ds₁, hds₁, htail⟩ := digits_of_cons hds h hcs hab.1.1
      obtain ⟨ds₂, hds₂, rfl⟩ := digits_of_cons hds₁ h htail.symm hab.1.2
      simp only [Option.some.injEq, Prod.mk.injEq] at heq
      exact ⟨ds₂, hds₂, heq.2.symm⟩
    · cases heq
  · cases heq

theorem date_digits : date (ds ++ rest) = none := by
  rw [date.eq_def]
  split
  · rename_i a b c d tail hcs
    split
    · rename_i hall
      simp only [List.all_cons, List.all_nil, Bool.and_eq_true] at hall
      obtain ⟨ds₁, hds₁, h₁⟩ := digits_of_cons hds h hcs hall.1
      obtain ⟨ds₂, hds₂, h₂⟩ := digits_of_cons hds₁ h h₁.symm hall.2.1
      obtain ⟨ds₃, hds₃, h₃⟩ := digits_of_cons hds₂ h h₂.symm hall.2.2.1
      obtain ⟨ds₄, hds₄, rfl⟩ := digits_of_cons hds₃ h h₃.symm hall.2.2.2.1
      simp [expect_digits hds₄ h (x := '-') (by decide) (by decide)]
    · rfl
  · rfl

theorem timeOfDay_digits : timeOfDay (ds ++ rest) = none := by
  unfold timeOfDay
  cases htwo : twoDigits 23 (ds ++ rest) with
  | none => rfl
  | some read =>
    obtain ⟨hour, tail⟩ := read
    obtain ⟨ds', hds', rfl⟩ := twoDigits_digits hds h htwo
    simp [expect_digits hds' h (x := ':') (by decide) (by decide)]

theorem datetime_digits : datetime (ds ++ rest) = none := by
  simp [datetime, date_digits hds h, timeOfDay_digits hds h]

end Digits

theorem fraction_of_endsValue {rest : List Char} (h : EndsValue rest) : fraction rest = none := by
  obtain ⟨c, more, rfl, rfl | rfl | rfl⟩ := h <;> simp [fraction, exponent]

/-- A number starts with a digit. -/
theorem ofNat_append_ne (n : Nat) (rest : List Char) {d : Char} (hd : isDigit d = false)
    (tail : List Char) : ofNat n ++ rest ≠ d :: tail := by
  obtain ⟨c, more, hn, -⟩ := ofNat_head n
  have hc : isDigit c = true := isDigit_of_mem_ofNat (n := n) (by simp [hn])
  intro heq
  rw [hn] at heq
  exact ne_of_isDigit hc hd (List.cons.inj heq).1

theorem takeSign_ofNat (n : Nat) (rest : List Char) :
    takeSign (ofNat n ++ rest) = (false, ofNat n ++ rest) := by
  rw [takeSign.eq_def]
  split
  · exact absurd ‹_› (ofNat_append_ne n rest (by decide) _)
  · exact absurd ‹_› (ofNat_append_ne n rest (by decide) _)
  · rfl

theorem float_ofNat (n : Nat) {rest : List Char} (h : EndsValue rest) :
    float (ofNat n ++ rest) = none := by
  simp only [float, takeSign_ofNat]
  split
  · exact absurd ‹_› (ofNat_append_ne n rest (by decide) _)
  · exact absurd ‹_› (ofNat_append_ne n rest (by decide) _)
  · simp [decimalDigits_ofNat n h, fraction_of_endsValue h]

theorem integer_ofNat {n : Nat} (hn : n ≤ maxInteger) {rest : List Char} (h : EndsValue rest) :
    integer (ofNat n ++ rest) = some ((n : Int), rest) := by
  -- A zero at the front is the whole number, so that no letter for a base stands behind
  -- it.
  have hbase : ∀ x tail, ofNat n ++ rest = '0' :: x :: tail → x = '\n' ∨ x = ',' ∨ x = ']' := by
    intro x tail heq
    obtain ⟨c, more, hdigits, hzero⟩ := ofNat_head n
    rw [hdigits] at heq
    obtain ⟨hc, htail⟩ := List.cons.inj heq
    obtain ⟨d, others, rfl, hd⟩ := h
    rw [hzero hc] at htail
    obtain ⟨rfl, -⟩ := List.cons.inj htail
    exact hd
  rw [integer.eq_def]
  split
  · rename_i heq
    exact absurd (hbase _ _ heq) (by decide)
  · rename_i heq
    exact absurd (hbase _ _ heq) (by decide)
  · rename_i heq
    exact absurd (hbase _ _ heq) (by decide)
  · simp [takeSign_ofNat, decimalDigits_ofNat n h, numberOf_ofNat, hn]

/-! ## Values -/

/-- A text stands for a value, with blanks before it and the end of a line
behind it. -/
def Writes (written : List Char) (v : Value) : Prop :=
  ∀ rest, value maxDepth (skipBlanks (' ' :: (written ++ '\n' :: rest))) = some (v, '\n' :: rest)

theorem Writes.of_head {written : List Char} {v : Value} {first : Char} {more : List Char}
    (hhead : written = first :: more) (hblank : isBlank first = false)
    (h : ∀ rest, value maxDepth (written ++ '\n' :: rest) = some (v, '\n' :: rest)) :
    Writes written v := by
  intro rest
  have hskip : skipBlanks (' ' :: (written ++ '\n' :: rest)) = written ++ '\n' :: rest := by
    have hspace : isBlank ' ' = true := rfl
    simp [skipBlanks, hhead, hblank, hspace]
  rw [hskip, h rest]

/-- A value that opens neither an array nor a table is read as such at every
depth. -/
theorem value_eq_scalar {c : Char} (harray : c ≠ '[') (htable : c ≠ '\x7b') (levels : Nat)
    (cs : List Char) : value levels (c :: cs) = scalar (c :: cs) := by
  cases levels <;> simp [value, harray, htable]

theorem value_ofText (levels : Nat) (s : String) {rest : List Char} (h : EndsValue rest) :
    value levels (ofText s ++ rest) = some (.string s, rest) := by
  have hquoted := quoted_writeString s.toList h.unquoted
  obtain ⟨first, more, hwritten, hfirst⟩ := writeString_head s.toList
  simp only [ofText, hwritten, List.cons_append] at hquoted ⊢
  rcases hfirst with rfl | rfl
  · rw [value_eq_scalar (by decide) (by decide)]
    simp [scalar, hquoted]
  · rw [value_eq_scalar (by decide) (by decide)]
    simp [scalar, hquoted]

theorem endsValue_newline (rest : List Char) : EndsValue ('\n' :: rest) := ⟨_, _, rfl, .inl rfl⟩

theorem writes_ofText (s : String) : Writes (ofText s) (.string s) := by
  obtain ⟨first, more, hwritten, hfirst⟩ := writeString_head s.toList
  refine .of_head hwritten ?_ fun rest => value_ofText _ s (endsValue_newline rest)
  rcases hfirst with rfl | rfl <;> rfl

theorem writes_ofBool (b : Bool) : Writes (ofBool b) (.boolean b) := by
  cases b <;> exact .of_head rfl rfl fun rest => rfl

theorem scalar_ofNat {n : Nat} (hn : n ≤ maxInteger) {rest : List Char} (h : EndsValue rest) :
    scalar (ofNat n ++ rest) = some (.integer n, rest) := by
  rw [scalar.eq_def]
  split
  · exact absurd ‹_› (ofNat_append_ne n rest (by decide) _)
  · exact absurd ‹_› (ofNat_append_ne n rest (by decide) _)
  · exact absurd ‹_› (ofNat_append_ne n rest (by decide) _)
  · exact absurd ‹_› (ofNat_append_ne n rest (by decide) _)
  · simp [datetime_digits (fun _ => isDigit_of_mem_ofNat) h, float_ofNat n h, integer_ofNat hn h]

theorem writes_ofNat {n : Nat} (hn : n ≤ maxInteger) : Writes (ofNat n) (.integer n) := by
  obtain ⟨c, more, hdigits, -⟩ := ofNat_head n
  have hc : isDigit c = true := isDigit_of_mem_ofNat (n := n) (by simp [hdigits])
  have hblank : isBlank c = false := by
    simp [isBlank, ne_of_isDigit hc (d := ' ') (by decide),
      ne_of_isDigit hc (d := '\t') (by decide)]
  refine .of_head hdigits hblank fun rest => ?_
  have hscalar := scalar_ofNat hn (endsValue_newline rest)
  rw [hdigits, List.cons_append] at hscalar ⊢
  rw [value_eq_scalar (ne_of_isDigit hc (by decide)) (ne_of_isDigit hc (by decide)), hscalar]

/-! ## Arrays of texts -/

theorem skipGap_ofText (s : String) (rest : List Char) :
    skipGap false (ofText s ++ rest) = ofText s ++ rest := by
  obtain ⟨first, more, hwritten, hfirst⟩ := writeString_head s.toList
  rw [ofText, hwritten]
  rcases hfirst with rfl | rfl <;> simp [skipGap, isBlank]

section Elements
variable {cs tail : List Char} {s : String}

theorem elements_comma (hgap : skipGap false cs = ofText s ++ ',' :: tail) (levels left : Nat) :
    elements (value levels) (left + 1) cs =
      (elements (value levels) left tail).map fun (others, rest) =>
        (.string s :: others, rest) := by
  have hvalue := value_ofText levels s (⟨_, _, rfl, .inr (.inl rfl)⟩ : EndsValue (',' :: tail))
  obtain ⟨first, more, hwritten, hfirst⟩ := writeString_head s.toList
  rw [elements, hgap]
  simp only [ofText, hwritten, List.cons_append] at hvalue ⊢
  cases hothers : elements (value levels) left tail <;>
    rcases hfirst with rfl | rfl <;> simp [hvalue, skipGap, isBlank, hothers]

theorem elements_last (hgap : skipGap false cs = ofText s ++ ']' :: tail) (levels left : Nat) :
    elements (value levels) (left + 1) cs = some ([.string s], tail) := by
  have hvalue := value_ofText levels s (⟨_, _, rfl, .inr (.inr rfl)⟩ : EndsValue (']' :: tail))
  obtain ⟨first, more, hwritten, hfirst⟩ := writeString_head s.toList
  rw [elements, hgap]
  simp only [ofText, hwritten, List.cons_append] at hvalue ⊢
  rcases hfirst with rfl | rfl <;> simp [hvalue, skipGap, isBlank]

end Elements

/-- The lines of an array, from the line break before each of them. -/
theorem elements_lines (levels : Nat) (l : List String) (rest : List Char) {left : Nat}
    (hleft : l.length < left) :
    elements (value levels) left
      ('\n' :: ((l.map ofText).flatMap (fun x => [' ', ' ', ' ', ' '] ++ x ++ [',', '\n']) ++
        ']' :: rest)) =
      some (l.map .string, rest) := by
  induction l generalizing left with
  | nil =>
    obtain ⟨left, rfl⟩ := Nat.exists_eq_add_of_lt hleft
    simp [elements, skipGap, isBlank]
  | cons s l ih =>
    obtain ⟨left, rfl⟩ : ∃ k, left = k + 1 := ⟨left - 1, by simp at hleft; omega⟩
    simp only [List.map_cons, List.flatMap_cons, List.append_assoc, List.cons_append,
      List.nil_append] at ih ⊢
    rw [elements_comma (s := s) (by simp [skipGap, isBlank, skipGap_ofText]; rfl),
      ih (Nat.lt_of_succ_lt_succ hleft)]
    rfl

/-- Every element takes up some of the text. -/
theorem length_le_flatMap {α β : Type} (f : α → List β) (hf : ∀ x, f x ≠ []) (l : List α) :
    l.length ≤ (l.flatMap f).length := by
  induction l with
  | nil => simp
  | cons x l ih =>
    have hx := List.length_pos_iff.2 (hf x)
    simp only [List.flatMap_cons, List.length_append, List.length_cons]
    omega

theorem value_ofTexts (levels : Nat) (l : List String) (rest : List Char) :
    value (levels + 1) (ofTexts l ++ rest) = some (.array false (l.map .string), rest) := by
  match l with
  | [] => simp [ofTexts, ofElements, value, elements, skipGap, isBlank]
  | [s] => simp [ofTexts, ofElements, value, elements_last (skipGap_ofText s _)]
  | s :: t :: l =>
    have hwritten :
        ofTexts (s :: t :: l) ++ rest = '[' :: '\n' :: (((s :: t :: l).map ofText).flatMap
        (fun x => [' ', ' ', ' ', ' '] ++ x ++ [',', '\n']) ++ ']' :: rest) := by
      simp [ofTexts, ofElements]
    have hlength := length_le_flatMap (fun x => [' ', ' ', ' ', ' '] ++ x ++ [',', '\n']) (by simp)
      ((s :: t :: l).map ofText)
    rw [hwritten, value, elements_lines]
    · rfl
    · simp only [List.length_map, List.length_append, List.length_cons] at hlength ⊢
      omega

theorem writes_ofTexts (l : List String) : Writes (ofTexts l) (.array false (l.map .string)) := by
  have hhead : ∃ more, ofTexts l = '[' :: more := by
    match l with
    | [] => exact ⟨_, rfl⟩
    | [_] => exact ⟨_, rfl⟩
    | _ :: _ :: _ => exact ⟨_, rfl⟩
  obtain ⟨more, hhead⟩ := hhead
  exact .of_head hhead rfl fun rest => value_ofTexts _ l _

end CodeAtlas.Toml
