import CodeAtlas.Toml.Printer
import Mathlib.Tactic.SplitIfs

/-! # Texts read back as they were written

Every form of a string is read up to its own end, whatever stands behind it.
Between double quotes this goes character by character, an escape standing for
one of them. Between three quotes, one or two quotes of the text may stand
directly before the end, where the reader takes four or five in a row for
the end; before that the printer leaves no three in a row. -/
namespace CodeAtlas.Toml

/-! ## Escapes -/

theorem hexValue_hexDigitOf :
    ∀ n < 16, Text.hexValue (hexDigitOf n) = n ∧ isHexDigit (hexDigitOf n) = true := by
  decide

theorem toNat_lt_of_needsEscape {c : Char} (h : needsEscape c = true) : c.toNat < 128 := by
  simp only [needsEscape, isPrintable, Bool.and_eq_true, Bool.not_eq_true', Bool.or_eq_false_iff,
    Bool.and_eq_false_iff, decide_eq_false_iff_not] at h
  rcases h.1.2 with hlow | hdelete
  · have hlt : c.toNat < 32 := Nat.lt_of_not_le hlow
    omega
  · have hc : c = '\x7f' := by simpa using hdelete
    rw [hc]
    decide

/-- Two hexadecimal digits behind two zeros stand for the character. -/
theorem charOfCode?_hexDigits {c : Char} (h : c.toNat < 128) :
    charOfCode? ['0', '0', hexDigitOf (c.toNat / 16), hexDigitOf (c.toNat % 16)] = some c := by
  obtain ⟨hhigh, hhigh'⟩ := hexValue_hexDigitOf (c.toNat / 16) (by omega)
  obtain ⟨hlow, hlow'⟩ := hexValue_hexDigitOf (c.toNat % 16) (by omega)
  have hcode : Text.hexNumber ['0', '0', hexDigitOf (c.toNat / 16), hexDigitOf (c.toNat % 16)] =
      c.toNat := by
    have hzero : Text.hexValue '0' = 0 := rfl
    simp only [Text.hexNumber, List.foldl_cons, List.foldl_nil, hhigh, hlow, hzero]
    omega
  have hdigits : ['0', '0', hexDigitOf (c.toNat / 16), hexDigitOf (c.toNat % 16)].all isHexDigit =
      true := by
    simp [hhigh', hlow', show isHexDigit '0' = true from rfl]
  simp only [charOfCode?, hcode, hdigits, true_and]
  rw [if_pos (Or.inl (by omega)), Char.ofNat_toNat]

theorem isPrintable_of_not_needsEscape {c : Char} (h : ¬needsEscape c = true) (hc : c ≠ '\n') :
    isPrintable c = true := by
  simpa [needsEscape, hc] using h

theorem basicBody_plain {c : Char} (hquote : c ≠ '"') (hslash : c ≠ '\\') (h : isPrintable c = true)
    (rest : List Char) : basicBody (c :: rest) = pushFront c (basicBody rest) := by
  rw [basicBody.eq_def]
  split <;> simp_all

theorem basicBody_escapeChar {c : Char} (hc : c ≠ '"') (rest : List Char) :
    basicBody (escapeChar false c ++ rest) = pushFront c (basicBody rest) := by
  unfold escapeChar
  split
  case h_7 hb ht hn hf hr hs =>
    split
    case isTrue h => simp [basicBody, charOfCode?_hexDigits (toNat_lt_of_needsEscape h)]
    case isFalse h => exact basicBody_plain hc hs (isPrintable_of_not_needsEscape h hn) rest
  all_goals simp [basicBody, escaped?]

theorem basicBody_escapeText (cs rest : List Char) (run : Nat) :
    basicBody (escapeText false run cs ++ '"' :: rest) = some (cs, rest) := by
  induction cs generalizing run with
  | nil => simp [escapeText, basicBody]
  | cons c cs ih =>
    by_cases hc : c = '"'
    · subst hc
      simp [escapeText, basicBody, escaped?, ih, pushFront]
    · simp [escapeText, hc, basicBody_escapeChar, ih, pushFront]

/-! ## Three double quotes -/

theorem longBasicBody_plain {c : Char} (hquote : c ≠ '"') (hslash : c ≠ '\\')
    (h : isPrintable c = true ∨ c = '\n') (rest : List Char) :
    longBasicBody false (c :: rest) = pushFront c (longBasicBody false rest) := by
  have hreturn : c ≠ '\r' := by
    rintro rfl
    revert h
    decide
  rw [longBasicBody.eq_def]
  split <;> simp_all

theorem longBasicBody_escapeChar {c : Char} (hc : c ≠ '"') (rest : List Char) :
    longBasicBody false (escapeChar true c ++ rest) = pushFront c (longBasicBody false rest) := by
  unfold escapeChar
  split
  case h_3 => exact longBasicBody_plain (by decide) (by decide) (.inr rfl) rest
  case h_7 hb ht hn hf hr hs =>
    split
    case isTrue h => simp [longBasicBody, charOfCode?_hexDigits (toNat_lt_of_needsEscape h)]
    case isFalse h =>
      exact longBasicBody_plain hc hs (.inl (isPrintable_of_not_needsEscape h hn)) rest
  all_goals simp [longBasicBody, escaped?, skipBlanks, isBlank, afterNewline?]

/-- A quote counts as a part of the text unless two more stand behind it. -/
theorem longBasicBody_quote {rest : List Char} (h : ∀ more, rest ≠ '"' :: '"' :: more) :
    longBasicBody false ('"' :: rest) = pushFront '"' (longBasicBody false rest) := by
  rw [longBasicBody.eq_def]
  split
  case h_9 heq =>
    obtain ⟨rfl, rfl⟩ := List.cons.inj heq
    simp [isPrintable]
  all_goals simp_all

/-- Of three to five quotes in a row, the last three end the text. -/
theorem longBasicBody_end {rest : List Char} (h : rest.head? ≠ some '"') :
    ∀ k ≤ 2, longBasicBody false (List.replicate (k + 3) '"' ++ rest) =
      some (List.replicate k '"', rest) := by
  intro k hk
  have hrest : ∀ more, rest ≠ '"' :: more := fun more heq => h (by simp [heq])
  match k, hk with
  | 0, _ => simp [List.replicate, longBasicBody, hrest]
  | 1, _ => simp [List.replicate, longBasicBody]
  | 2, _ => simp [List.replicate, longBasicBody]

/-- What is written of one character does not start with a quote, nor with a
line break unless it is one. -/
theorem escapeChar_head (isLong : Bool) {c : Char} (hc : c ≠ '"') :
    ∃ first more, escapeChar isLong c = first :: more ∧ first ≠ '"' ∧ first ≠ '\r' ∧
      (first = '\n' → c = '\n') := by
  unfold escapeChar
  split
  case h_3 => cases isLong <;> exact ⟨_, _, rfl, by decide⟩
  case h_7 hr _ =>
    split
    · exact ⟨_, _, rfl, by decide, by decide, nofun⟩
    · exact ⟨_, _, rfl, hc, hr, id⟩
  all_goals exact ⟨_, _, rfl, by decide⟩

/-- Behind a quote no two more are written, unless the text ends with one of them. -/
theorem escapeText_ne_quotes {c : Char} {cs rest : List Char} {run : Nat}
    (h : c = '"' → run = 1 → cs ≠ []) (more : List Char) (hrun : run ≠ 0) :
    escapeText true run (c :: cs) ++ rest ≠ '"' :: '"' :: more := by
  by_cases hc : c = '"'
  · subst hc
    by_cases hlow : run < 2
    · have hone : run = 1 := by omega
      subst hone
      cases cs with
      | nil => exact absurd rfl (h rfl rfl)
      | cons d cs =>
        by_cases hd : d = '"'
        · simp [escapeText, hd]
        · obtain ⟨first, others, hwritten, hfirst, -⟩ := escapeChar_head true hd
          simp [escapeText, hd, hwritten, hfirst]
    · simp [escapeText, hlow]
  · obtain ⟨first, others, hwritten, hfirst, -⟩ := escapeChar_head true hc
    simp [escapeText, hc, hwritten, hfirst]

theorem longBasicBody_escapeText (cs : List Char) {rest : List Char} (hrest : rest.head? ≠ some '"')
    (run : Nat) :
    longBasicBody false (escapeText true run cs ++ '"' :: '"' :: '"' :: rest) =
      some (cs, rest) := by
  induction cs generalizing run with
  | nil => exact longBasicBody_end hrest 0 (by decide)
  | cons c cs ih =>
    by_cases hc : c = '"'
    · subst hc
      by_cases hrun : run < 2
      · simp only [escapeText, hrun, decide_true, Bool.and_self, if_true, List.cons_append]
        cases cs with
        | nil => exact longBasicBody_end hrest 1 (by decide)
        | cons d cs =>
          by_cases hlast : d = '"' ∧ run = 0 ∧ cs = []
          · obtain ⟨rfl, rfl, rfl⟩ := hlast
            exact longBasicBody_end hrest 2 (by decide)
          · have hmore : d = '"' → run + 1 = 1 → cs ≠ [] := by grind
            rw [longBasicBody_quote fun more => escapeText_ne_quotes hmore more (by simp), ih]
            rfl
      · simp [escapeText, hrun, longBasicBody, skipBlanks, isBlank, afterNewline?, escaped?, ih,
          pushFront]
    · simp [escapeText, hc, longBasicBody_escapeChar, ih, pushFront]

/-! ## Single quotes -/

theorem literalBody_append {cs : List Char} (h : fitsLiteral cs = true) (rest : List Char) :
    literalBody (cs ++ '\'' :: rest) = some (cs, rest) := by
  induction cs with
  | nil => simp [literalBody]
  | cons c cs ih =>
    simp only [fitsLiteral, List.all_cons, Bool.and_eq_true, decide_eq_true_eq] at h
    simp [literalBody, h.1.1, h.1.2, ih h.2, pushFront]

theorem longLiteralBody_plain {c : Char} (hquote : c ≠ '\'') (h : needsEscape c = false)
    (rest : List Char) : longLiteralBody (c :: rest) = pushFront c (longLiteralBody rest) := by
  have hreturn : c ≠ '\r' := by
    rintro rfl
    revert h
    decide
  have hkept : (isPrintable c || c = '\n') = true := by
    simpa [needsEscape, Decidable.or_iff_not_imp_left] using h
  rw [longLiteralBody.eq_def]
  split
  case h_6 heq =>
    obtain ⟨rfl, rfl⟩ := List.cons.inj heq
    rw [if_pos hkept]
  all_goals simp_all

theorem longLiteralBody_quote {rest : List Char} (h : ∀ more, rest ≠ '\'' :: '\'' :: more) :
    longLiteralBody ('\'' :: rest) = pushFront '\'' (longLiteralBody rest) := by
  rw [longLiteralBody.eq_def]
  split
  case h_6 heq =>
    obtain ⟨rfl, rfl⟩ := List.cons.inj heq
    simp [isPrintable]
  all_goals simp_all

theorem longLiteralBody_end {rest : List Char} (h : rest.head? ≠ some '\'') :
    ∀ k ≤ 2, longLiteralBody (List.replicate (k + 3) '\'' ++ rest) =
      some (List.replicate k '\'', rest) := by
  intro k hk
  have hrest : ∀ more, rest ≠ '\'' :: more := fun more heq => h (by simp [heq])
  match k, hk with
  | 0, _ => simp [List.replicate, longLiteralBody, hrest]
  | 1, _ => simp [List.replicate, longLiteralBody]
  | 2, _ => simp [List.replicate, longLiteralBody]

theorem longLiteralBody_append {cs rest : List Char} {run : Nat}
    (h : cs.all (fun c => !needsEscape c) = true) (htriple : hasTriple '\'' run cs = false)
    (hrest : rest.head? ≠ some '\'') :
    longLiteralBody (cs ++ '\'' :: '\'' :: '\'' :: rest) = some (cs, rest) := by
  induction cs generalizing run with
  | nil => exact longLiteralBody_end hrest 0 (by decide)
  | cons c cs ih =>
    simp only [List.all_cons, Bool.and_eq_true, Bool.not_eq_true'] at h
    by_cases hc : c = '\''
    · subst hc
      simp only [hasTriple, if_true, Bool.or_eq_false_iff] at htriple
      cases cs with
      | nil => exact longLiteralBody_end hrest 1 (by decide)
      | cons d cs =>
        by_cases hlast : d = '\'' ∧ cs = []
        · obtain ⟨rfl, rfl⟩ := hlast
          exact longLiteralBody_end hrest 2 (by decide)
        · have hmore : ∀ more, d :: cs ++ '\'' :: '\'' :: '\'' :: rest ≠ '\'' :: '\'' :: more := by
            intro more heq
            cases cs with
            | nil => simp_all
            | cons e cs => simp_all [hasTriple]
          rw [List.cons_append, longLiteralBody_quote hmore, ih h.2 htriple.2]
          rfl
    · have htriple : hasTriple '\'' 0 cs = false := by simpa [hasTriple, hc] using htriple
      rw [List.cons_append, longLiteralBody_plain hc h.1, ih h.2 htriple]
      rfl

/-! ## Strings and keys -/

/-- What may stand behind a string: no quote. -/
def Unquoted (rest : List Char) : Prop := rest.head? ≠ some '"' ∧ rest.head? ≠ some '\''

theorem quoted_of_ne {rest : List Char} (h : ∀ more, rest ≠ '"' :: '"' :: more) :
    quoted ('"' :: rest) = basicBody rest := by
  rw [quoted.eq_def]
  split <;> simp_all

theorem quoted_writeBasic (cs : List Char) {rest : List Char} (h : Unquoted rest) :
    quoted (writeBasic cs ++ rest) = some (cs, rest) := by
  have hbody :
      quoted (writeBasic cs ++ rest) = basicBody (escapeText false 0 cs ++ '"' :: rest) := by
    simp only [writeBasic, List.cons_append, List.append_assoc, List.nil_append]
    refine quoted_of_ne fun more heq => ?_
    cases cs with
    | nil => exact h.1 (by simp_all [escapeText])
    | cons c cs =>
      by_cases hc : c = '"'
      · simp_all [escapeText]
      · obtain ⟨first, others, hwritten, hfirst, -⟩ := escapeChar_head false hc
        simp_all [escapeText]
  rw [hbody, basicBody_escapeText]

theorem quoted_writeLiteral {cs rest : List Char} (hcs : fitsLiteral cs = true)
    (h : Unquoted rest) : quoted (writeLiteral cs ++ rest) = some (cs, rest) := by
  have hbody : quoted (writeLiteral cs ++ rest) = literalBody (cs ++ '\'' :: rest) := by
    simp only [writeLiteral, List.cons_append, List.append_assoc, List.nil_append]
    rw [quoted.eq_def]
    split
    case h_3 more heq =>
      have := h.2
      cases cs <;> simp_all [fitsLiteral]
    all_goals simp_all
  rw [hbody, literalBody_append hcs]

/-- The line break that opens a text between three quotes is the one that does
not count. -/
theorem skipNewline_openingBreak {cs body : List Char}
    (h : '\n' ∉ cs → body.head? ≠ some '\n' ∧ body.head? ≠ some '\r') :
    skipNewline (openingBreak cs ++ body) = body := by
  unfold openingBreak
  split
  · simp [skipNewline, afterNewline?]
  · rename_i hcs
    obtain ⟨hbreak, hreturn⟩ := h (by simpa using hcs)
    match body with
    | [] => rfl
    | c :: rest =>
      have hnone : afterNewline? (c :: rest) = none := by
        rw [afterNewline?.eq_def]
        split <;> simp_all
      simp [skipNewline, hnone]

theorem escapeText_head (isLong : Bool) {c : Char} (hc : c ≠ '\n') (cs : List Char) (run : Nat) :
    ∃ first more, escapeText isLong run (c :: cs) = first :: more ∧ first ≠ '\n' ∧
      first ≠ '\r' := by
  unfold escapeText
  split_ifs with hquote
  · exact ⟨_, _, rfl, by decide⟩
  · exact ⟨_, _, rfl, by decide⟩
  · obtain ⟨first, others, hwritten, -, hreturn, hbreak⟩ := escapeChar_head isLong hquote
    exact ⟨first, _, by rw [hwritten]; rfl, fun h => hc (hbreak h), hreturn⟩

theorem quoted_writeLongBasic (cs : List Char) {rest : List Char} (h : Unquoted rest) :
    quoted (writeLongBasic cs ++ rest) = some (cs, rest) := by
  have hopen :
      skipNewline (openingBreak cs ++ (escapeText true 0 cs ++ '"' :: '"' :: '"' :: rest)) =
      escapeText true 0 cs ++ '"' :: '"' :: '"' :: rest := by
    refine skipNewline_openingBreak fun hcs => ?_
    cases cs with
    | nil => simp [escapeText]
    | cons c cs =>
      have hc : c ≠ '\n' := by
        rintro rfl
        simp at hcs
      obtain ⟨first, others, hwritten, hhead⟩ := escapeText_head true hc cs 0
      simpa [hwritten] using hhead
  simp only [writeLongBasic, List.cons_append, List.append_assoc, List.nil_append, quoted, hopen]
  exact longBasicBody_escapeText cs h.1 0

theorem quoted_writeLongLiteral {cs rest : List Char} (hcs : fitsLongLiteral cs = true)
    (h : Unquoted rest) : quoted (writeLongLiteral cs ++ rest) = some (cs, rest) := by
  simp only [fitsLongLiteral, Bool.and_eq_true, Bool.not_eq_true'] at hcs
  have hopen : skipNewline (openingBreak cs ++ (cs ++ '\'' :: '\'' :: '\'' :: rest)) =
      cs ++ '\'' :: '\'' :: '\'' :: rest := by
    refine skipNewline_openingBreak fun hbreak => ?_
    cases cs with
    | nil => simp
    | cons c cs =>
      have hc : c ≠ '\r' := by
        rintro rfl
        simp [needsEscape, isPrintable] at hcs
      have hc' : c ≠ '\n' := by
        rintro rfl
        simp at hbreak
      simp [hc, hc']
  simp only [writeLongLiteral, List.cons_append, List.append_assoc, List.nil_append, quoted, hopen]
  exact longLiteralBody_append hcs.1 hcs.2 h.2

theorem quoted_writeString (cs : List Char) {rest : List Char} (h : Unquoted rest) :
    quoted (writeString cs ++ rest) = some (cs, rest) := by
  unfold writeString
  split_ifs with hbasic hliteral hlong hlongLiteral
  · exact quoted_writeBasic cs h
  · exact quoted_writeLiteral hliteral h
  · exact quoted_writeLongBasic cs h
  · exact quoted_writeLongLiteral hlongLiteral h
  · exact quoted_writeLongBasic cs h
  · exact quoted_writeBasic cs h

theorem writeString_head (cs : List Char) :
    ∃ first more, writeString cs = first :: more ∧ (first = '"' ∨ first = '\'') := by
  unfold writeString
  split_ifs
  · exact ⟨_, _, rfl, .inl rfl⟩
  · exact ⟨_, _, rfl, .inr rfl⟩
  · exact ⟨_, _, rfl, .inl rfl⟩
  · exact ⟨_, _, rfl, .inr rfl⟩
  · exact ⟨_, _, rfl, .inl rfl⟩
  · exact ⟨_, _, rfl, .inl rfl⟩

/-- Whether a part of a key may start with a character. -/
def StartsKey (c : Char) : Prop := isBareKeyChar c = true ∨ c = '"' ∨ c = '\''

theorem ne_of_isBareKeyChar {c d : Char} (h : isBareKeyChar c = true)
    (hd : isBareKeyChar d = false) : c ≠ d := by
  rintro rfl
  rw [h] at hd
  cases hd

theorem StartsKey.ne {c d : Char} (h : StartsKey c)
    (hd : isBareKeyChar d = false ∧ d ≠ '"' ∧ d ≠ '\'') : c ≠ d := by
  rcases h with h | rfl | rfl
  · exact ne_of_isBareKeyChar h hd.1
  · exact hd.2.1.symm
  · exact hd.2.2.symm

theorem StartsKey.not_blank {c : Char} (h : StartsKey c) : isBlank c = false := by
  simp [isBlank, h.ne (d := ' ') (by decide), h.ne (d := '\t') (by decide)]

theorem writeKey_head (cs : List Char) :
    ∃ first more, writeKey cs = first :: more ∧ StartsKey first := by
  unfold writeKey
  split_ifs with hbare
  · obtain ⟨hne, hall⟩ := hbare
    cases cs with
    | nil => exact absurd rfl hne
    | cons c cs => exact ⟨c, cs, rfl, .inl (by simp_all)⟩
  · exact ⟨_, _, rfl, .inr (.inl rfl)⟩
  · exact ⟨_, _, rfl, .inr (.inr rfl)⟩
  · exact ⟨_, _, rfl, .inr (.inl rfl)⟩

/-- What may stand behind a key: nothing that would make its last part longer,
and no further part. -/
structure EndsKey (rest : List Char) : Prop where
  notBare : ∀ c, rest.head? = some c → isBareKeyChar c = false
  notDot : (skipBlanks rest).head? ≠ some '.'

theorem keyPart_bare {cs rest : List Char} (hne : cs ≠ []) (hcs : cs.all isBareKeyChar = true)
    (hrest : ∀ c, rest.head? = some c → isBareKeyChar c = false) :
    keyPart (cs ++ rest) = some (String.ofList cs, rest) := by
  have hall : ∀ c ∈ cs, isBareKeyChar c = true := by simpa using hcs
  have htake : (cs ++ rest).takeWhile isBareKeyChar = cs := by
    rw [List.takeWhile_append_of_pos hall]
    cases rest with
    | nil => simp
    | cons c rest => simp [hrest c rfl]
  have hdrop : (cs ++ rest).dropWhile isBareKeyChar = rest := by
    rw [List.dropWhile_append_of_pos hall]
    cases rest with
    | nil => rfl
    | cons c rest => simp [hrest c rfl]
  obtain ⟨c, more, rfl⟩ := List.exists_cons_of_ne_nil hne
  have hc : isBareKeyChar c = true := hall c (by simp)
  rw [keyPart.eq_def]
  split
  · rename_i heq
    exact absurd (List.cons.inj heq).1 (ne_of_isBareKeyChar hc (by decide))
  · rename_i heq
    exact absurd (List.cons.inj heq).1 (ne_of_isBareKeyChar hc (by decide))
  · rw [htake, hdrop]

theorem keyPart_writeKey (cs : List Char) {rest : List Char}
    (hrest : ∀ c, rest.head? = some c → isBareKeyChar c = false) :
    keyPart (writeKey cs ++ rest) = some (String.ofList cs, rest) := by
  unfold writeKey
  split_ifs with hbare hbasic hliteral
  · exact keyPart_bare hbare.1 hbare.2 hrest
  · simp [writeBasic, keyPart, basicBody_escapeText]
  · simp [writeLiteral, keyPart, literalBody_append hliteral]
  · simp [writeBasic, keyPart, basicBody_escapeText]

theorem keyParts_writePath {path : List String} (hne : path ≠ []) {parts : Nat}
    (hlength : path.length ≤ parts) {rest : List Char} (hrest : EndsKey rest) :
    keyParts parts (writePath path ++ rest) = some (path, skipBlanks rest) := by
  induction path generalizing parts with
  | nil => exact absurd rfl hne
  | cons part path ih =>
    obtain ⟨parts, rfl⟩ : ∃ n, parts = n + 1 := ⟨parts - 1, by simp at hlength; omega⟩
    obtain ⟨first, more, hwritten, hfirst⟩ := writeKey_head part.toList
    have hskip : ∀ rest,
        skipBlanks (writeKey part.toList ++ rest) = writeKey part.toList ++ rest := by
      intro rest
      simp [skipBlanks, hwritten, hfirst.not_blank]
    cases path with
    | nil =>
      have hdot := hrest.notDot
      simp only [keyParts, writePath, hskip, keyPart_writeKey _ hrest.notBare, String.ofList_toList,
        Option.bind_eq_bind, Option.bind_some]
      split
      · rename_i heq
        rw [heq] at hdot
        exact absurd rfl hdot
      · rfl
    | cons next path =>
      have hdot : ∀ c, ('.' :: (writePath (next :: path) ++ rest)).head? = some c →
          isBareKeyChar c = false := by
        intro c hc
        obtain rfl := Option.some.inj hc
        rfl
      have hothers := ih (by simp) (Nat.le_of_succ_le_succ hlength)
      have hblank : skipBlanks ('.' :: (writePath (next :: path) ++ rest)) =
          '.' :: (writePath (next :: path) ++ rest) := rfl
      simp only [keyParts, writePath, hskip, List.append_assoc, List.cons_append,
        keyPart_writeKey _ hdot, hblank, String.ofList_toList, Option.bind_eq_bind,
        Option.bind_some, hothers]

end CodeAtlas.Toml
