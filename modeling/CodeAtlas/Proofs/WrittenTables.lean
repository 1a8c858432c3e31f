import CodeAtlas.Proofs.WrittenValue
import Mathlib.Data.List.Forall2

/-! # Tables read back as they were written

A written text is a list of pieces, and each of them stands for some lines
whatever lines follow. Putting these lines together is seen from the table that
is open: a change of it is a change of the document at one place. -/
namespace CodeAtlas.Toml

/-! ## Lines -/

/-- A piece of a text stands for lines, whatever lines the text behind it
stands for. -/
def Spells (cs : List Char) (ls : List Line) : Prop :=
  ∀ rest ms, (∀ left, rest.length < left → lines left rest = some ms) →
    ∀ left, (cs ++ rest).length < left → lines left (cs ++ rest) = some (ls ++ ms)

theorem Spells.nil : Spells [] [] := fun _ _ h => h

theorem Spells.append {cs ds : List Char} {ls ms : List Line} (h : Spells cs ls)
    (h' : Spells ds ms) : Spells (cs ++ ds) (ls ++ ms) := by
  intro rest ns hrest left hleft
  rw [List.append_assoc] at hleft ⊢
  rw [List.append_assoc]
  exact h _ _ (h' rest ns hrest) left hleft

/-- An empty line. -/
theorem spells_newline : Spells ['\n'] [] := by
  intro rest ms hrest left hleft
  obtain ⟨left, rfl⟩ : ∃ k, left = k + 1 := ⟨left - 1, by omega⟩
  have hshort : rest.length < left := by simpa using hleft
  simpa [lines, skipBlanks, isBlank] using hrest left hshort

/-- A line that is neither empty nor a comment. -/
theorem Spells.of_line {cs more : List Char} {first : Char} {l : Line} (hhead : cs = first :: more)
    (hfirst : first = '[' ∨ StartsKey first) (h : ∀ rest, line (cs ++ rest) = some (l, rest)) :
    Spells cs [l] := by
  intro rest ms hrest left hleft
  obtain ⟨left, rfl⟩ : ∃ k, left = k + 1 := ⟨left - 1, by omega⟩
  have hne : ∀ d, isBareKeyChar d = false ∧ d ≠ '"' ∧ d ≠ '\'' ∧ d ≠ '[' → first ≠ d := by
    intro d hd
    rcases hfirst with rfl | hfirst
    · exact hd.2.2.2.symm
    · exact hfirst.ne ⟨hd.1, hd.2.1, hd.2.2.1⟩
  have hblank : isBlank first = false := by
    simp [isBlank, hne ' ' (by decide), hne '\t' (by decide)]
  have hline := h rest
  subst hhead
  have hshort : rest.length < left := by
    simp only [List.length_append, List.length_cons] at hleft
    omega
  simp only [List.cons_append] at hline ⊢
  simp [lines, skipBlanks, hblank, hne '#' (by decide), hne '\n' (by decide), hne '\r' (by decide),
    hline, hrest left hshort]

theorem endLine?_newline (rest : List Char) : endLine? ('\n' :: rest) = some rest := by
  simp [endLine?, skipBlanks, isBlank, skipComment, afterNewline?]

theorem endsKey_bracket (more : List Char) : EndsKey (']' :: more) :=
  ⟨by simp [isBareKeyChar, isDigit], by simp [skipBlanks, isBlank]⟩

theorem endsKey_equals (more : List Char) : EndsKey (' ' :: '=' :: more) :=
  ⟨by simp [isBareKeyChar, isDigit], by simp [skipBlanks, isBlank]⟩

theorem assignment_assignLine (name : String) {written : List Char} {v : Value}
    (h : Writes written v) (rest : List Char) :
    assignment (value maxDepth) (assignLine name written ++ rest) =
      some (([name], v), '\n' :: rest) := by
  have htext : assignLine name written ++ rest = writePath [name] ++ ' ' :: '=' :: ' ' ::
      (written ++ '\n' :: rest) := by
    simp [assignLine, writePath]
  have hkey : key (assignLine name written ++ rest) =
      some ([name], '=' :: ' ' :: (written ++ '\n' :: rest)) := by
    rw [htext, key, keyParts_writePath (by simp) (by simp [maxDepth]) (endsKey_equals _)]
    simp [skipBlanks, isBlank]
  simp [assignment, hkey, expect, h rest]

theorem spells_assignLine (name : String) {written : List Char} {v : Value} (h : Writes written v) :
    Spells (assignLine name written) [.assign [name] v] := by
  obtain ⟨first, more, hwritten, hfirst⟩ := writeKey_head name.toList
  have hhead :
      assignLine name written = first :: (more ++ ' ' :: '=' :: ' ' :: (written ++ ['\n'])) := by
    simp [assignLine, hwritten]
  refine .of_line hhead (.inr hfirst) fun rest => ?_
  have hassign := assignment_assignLine name h rest
  have hopen : first ≠ '[' := hfirst.ne (by decide)
  rw [hhead, List.cons_append] at hassign ⊢
  generalize more ++ ' ' :: '=' :: ' ' :: (written ++ ['\n']) ++ rest = tail at hassign ⊢
  simp [line, hopen, hassign, endLine?_newline]

theorem writePath_head {path : List String} (hne : path ≠ []) :
    ∃ first more, writePath path = first :: more ∧ StartsKey first := by
  match path with
  | [] => exact absurd rfl hne
  | [part] => exact writeKey_head part.toList
  | part :: next :: path =>
    obtain ⟨first, more, hwritten, hfirst⟩ := writeKey_head part.toList
    exact ⟨first, more ++ '.' :: writePath (next :: path), by simp [writePath, hwritten], hfirst⟩

section Header
variable {path : List String} (hne : path ≠ []) (hlength : path.length ≤ maxDepth)
include hne hlength

theorem spells_header : Spells ('[' :: writePath path ++ [']', '\n']) [.header path] := by
  obtain ⟨first, more, hwritten, hfirst⟩ := writePath_head hne
  refine .of_line rfl (.inl rfl) fun rest => ?_
  have hkey : key (writePath path ++ ']' :: '\n' :: rest) = some (path, ']' :: '\n' :: rest) := by
    rw [key, keyParts_writePath hne hlength (endsKey_bracket _)]
    simp [skipBlanks, isBlank]
  have hopen : first ≠ '[' := hfirst.ne (by decide)
  simp only [hwritten, List.cons_append, List.append_assoc, List.nil_append] at hkey ⊢
  simp [line, hopen, hkey, expect, endLine?_newline]

theorem spells_element :
    Spells ('[' :: '[' :: writePath path ++ [']', ']', '\n']) [.element path] := by
  refine .of_line rfl (.inl rfl) fun rest => ?_
  have hkey : key (writePath path ++ ']' :: ']' :: '\n' :: rest) =
      some (path, ']' :: ']' :: '\n' :: rest) := by
    rw [key, keyParts_writePath hne hlength (endsKey_bracket _)]
    simp [skipBlanks, isBlank]
  simp only [List.cons_append, List.append_assoc, List.nil_append]
  simp [line, hkey, expect, endLine?_newline]

end Header

/-! ## Pieces -/

/-- The lines that assign entries, one after the other. -/
def assigns (es : Entries) : List Line := es.map fun e => .assign [e.1] e.2

/-- The lines of a text each assign an entry. -/
abbrev Assigning (css : List (List Char)) (es : Entries) : Prop :=
  List.Forall₂ (fun cs e => Spells cs [.assign [e.1] e.2]) css es

theorem Assigning.spells {css : List (List Char)} {es : Entries} (h : Assigning css es) :
    Spells css.flatten (assigns es) := by
  induction h with
  | nil => exact .nil
  | cons hfirst _ ih => exact hfirst.append ih

section Tables
variable {path : List String} {css : List (List Char)} {es : Entries} (hne : path ≠ [])
  (hlength : path.length ≤ maxDepth) (h : Assigning css es)
include hne hlength h

theorem spells_tableLines : Spells (tableLines path css) (.header path :: assigns es) :=
  (spells_header hne hlength).append h.spells

theorem spells_elementLines : Spells (elementLines path css) (.element path :: assigns es) :=
  (spells_element hne hlength).append h.spells

end Tables

theorem spells_joinChars {tables : List (List Char)} {blocks : List (List Line)}
    (h : List.Forall₂ Spells tables blocks) :
    Spells (Text.joinChars ['\n'] tables) blocks.flatten := by
  induction h with
  | nil => exact .nil
  | @cons table block tables blocks hfirst hrest ih =>
    cases hrest with
    | nil => simpa [Text.joinChars] using hfirst
    | cons _ _ => simpa [Text.joinChars] using (hfirst.append spells_newline).append ih

theorem parse_writeTables {tables : List (List Char)} {blocks : List (List Line)}
    (h : List.Forall₂ Spells tables blocks) {more : List Char}
    (hhead : Text.joinChars ['\n'] tables = '[' :: more) :
    parse (writeTables tables) = Document.build blocks.flatten := by
  have hlines :=
    spells_joinChars h [] [] (fun left hleft => by cases left <;> simp_all [lines, skipBlanks])
  simp only [List.append_nil] at hlines
  have hmark : skipMark (Text.joinChars ['\n'] tables) = Text.joinChars ['\n'] tables := by
    simp [hhead, skipMark]
  simp [parse, writeTables, hmark, hlines]

/-! ## The table that is open -/

namespace Entries

theorem update_append (isDotted : Bool) (change : TableOrigin → Entries → Option Entries)
    (front back : List String) (origin : TableOrigin) (es : Entries) :
    es.update isDotted change (front ++ back) origin =
      es.update isDotted (update isDotted change back) front origin := by
  induction front generalizing origin es with
  | nil => rfl
  | cons key front ih => simp only [List.cons_append, update, ih]

theorem lookup_append_of_none {es : Entries} {key : String} (h : es.lookup key = none) (v : Value) :
    (es ++ [(key, v)]).lookup key = some v := by
  simp [List.lookup_append, h]

theorem replace_append_of_none {es : Entries} {key : String} (h : es.lookup key = none)
    (v w : Value) : replace (es ++ [(key, v)]) key w = es ++ [(key, w)] := by
  have hkeep : es.map (fun e => if e.1 = key then (key, w) else e) = es := by
    refine (List.map_congr_left fun e he => ?_).trans (List.map_id es)
    have hne : key ≠ e.1 := by simpa using List.lookup_eq_none_iff.1 h e he
    rw [if_neg hne.symm, id]
  simp [replace, hkeep]

theorem lookup_eq_none_of_nodup {es rest : Entries} {e : String × Value}
    (h : ((es ++ e :: rest).map (·.1)).Nodup) : es.lookup e.1 = none := by
  refine List.lookup_eq_none_iff.2 fun x hx => ?_
  rw [List.map_append, List.map_cons, List.nodup_append] at h
  have hne : x.1 ≠ e.1 := h.2.2 x.1 (List.mem_map_of_mem hx) e.1 (by simp)
  simpa using hne.symm

theorem assign_singleton {es : Entries} {key : String} (h : es.lookup key = none) (v : Value) :
    es.assign [key] v .header = some (es ++ [(key, v)]) := by
  simp [assign, update, put, h, add]

end Entries

/-- The table at a place is open: changes of it are changes of the whole, in
which `around` puts it. -/
def Focus (place : List String) (around : Entries → Entries) : Prop :=
  ∀ change es, (around es).update false change place .header = (change .header es).map around

namespace Focus

theorem update_eq {place : List String} {around : Entries → Entries} (h : Focus place around)
    (change : TableOrigin → Entries → Option Entries) (es : Entries) :
    (around es).update false change place .header = (change .header es).map around := h change es

theorem all : Focus [] id := by
  intro change es
  simp [Entries.update]

variable {place : List String} {around : Entries → Entries} {es : Entries} {key : String}

/-- A table at the end of one that is open. -/
theorem table (h : Focus place around) (hkey : es.lookup key = none) :
    Focus (place ++ [key]) fun inner => around (es ++ [(key, .table .header inner)]) := by
  intro change inner
  rw [Entries.update_append, h]
  cases hchange : change .header inner <;>
    simp [Entries.update, Entries.lookup_append_of_none hkey, Entries.replace_append_of_none hkey,
      hchange]

/-- The last table of an array at the end of a table that is open. -/
theorem element (h : Focus place around) (hkey : es.lookup key = none) (vs : List Value) :
    Focus (place ++ [key]) fun inner =>
      around (es ++ [(key, .array true (vs ++ [.table .header inner]))]) := by
  intro change inner
  rw [Entries.update_append, h]
  cases hchange : change .header inner <;>
    simp [Entries.update, Entries.lookup_append_of_none hkey, Entries.replace_append_of_none hkey,
      hchange]

theorem run_assigns (h : Focus place around) (es : Entries) {es' : Entries}
    (hdistinct : ((es ++ es').map (·.1)).Nodup) :
    (assigns es').foldlM Document.add ⟨around es, place⟩ = some ⟨around (es ++ es'), place⟩ := by
  induction es' generalizing es with
  | nil => simp [assigns]
  | cons e es' ih =>
    have hadd :
        Document.add ⟨around es, place⟩ (.assign [e.1] e.2) = some ⟨around (es ++ [e]), place⟩ := by
      simp [Document.add, h.update_eq,
        Entries.assign_singleton (Entries.lookup_eq_none_of_nodup hdistinct)]
    have hrest := ih (es ++ [e]) (by simpa using hdistinct)
    simp only [assigns] at hrest
    simp [assigns, hadd, hrest]

section Block
variable (h : Focus place around) (hkey : es.lookup key = none) {es' : Entries}
  (hdistinct : (es'.map (·.1)).Nodup)
include h hkey hdistinct

/-- A table that is opened below one, and its entries. -/
theorem run_table (before : List String) :
    (Line.header (place ++ [key]) :: assigns es').foldlM Document.add ⟨around es, before⟩ =
      some ⟨around (es ++ [(key, .table .header es')]), place ++ [key]⟩ := by
  have hadd : Document.add ⟨around es, before⟩ (.header (place ++ [key])) =
      some ⟨around (es ++ [(key, .table .header [])]), place ++ [key]⟩ := by
    simp [Document.add, Document.openAt, h.update_eq, Entries.openTable, hkey, Entries.add]
  have hrest := (h.table hkey).run_assigns [] hdistinct
  simpa [hadd] using hrest

/-- The first table of an array below one that is open, and its entries. -/
theorem run_first (before : List String) :
    (Line.element (place ++ [key]) :: assigns es').foldlM Document.add ⟨around es, before⟩ =
      some ⟨around (es ++ [(key, .array true [.table .header es'])]), place ++ [key]⟩ := by
  have hadd : Document.add ⟨around es, before⟩ (.element (place ++ [key])) =
      some ⟨around (es ++ [(key, .array true [.table .header []])]), place ++ [key]⟩ := by
    simp [Document.add, Document.openAt, h.update_eq, Entries.openElement, hkey, Entries.add]
  have hrest := (h.element hkey []).run_assigns [] hdistinct
  simpa [hadd] using hrest

/-- A further table of an array, and its entries. -/
theorem run_next (vs : List Value) (before : List String) :
    (Line.element (place ++ [key]) :: assigns es').foldlM Document.add
      ⟨around (es ++ [(key, .array true vs)]), before⟩ =
      some ⟨around (es ++ [(key, .array true (vs ++ [.table .header es']))]), place ++ [key]⟩ := by
  have hadd :
      Document.add ⟨around (es ++ [(key, .array true vs)]), before⟩ (.element (place ++ [key])) =
      some ⟨around (es ++ [(key, .array true (vs ++ [.table .header []]))]), place ++ [key]⟩ := by
    simp [Document.add, Document.openAt, h.update_eq, Entries.openElement,
      Entries.lookup_append_of_none hkey, Entries.replace_append_of_none hkey]
  have hrest := (h.element hkey vs).run_assigns [] hdistinct
  simpa [hadd] using hrest

end Block

/-- All tables of an array, from its first one on. -/
theorem run_elements (h : Focus place around) (hkey : es.lookup key = none) (vs : List Value)
    {tables : List Entries} (hdistinct : ∀ t ∈ tables, (t.map (·.1)).Nodup) :
    (tables.flatMap fun t => Line.element (place ++ [key]) :: assigns t).foldlM Document.add
        ⟨around (es ++ [(key, .array true vs)]), place ++ [key]⟩ =
      some ⟨around (es ++ [(key, .array true (vs ++ tables.map (.table .header)))]),
        place ++ [key]⟩ := by
  induction tables generalizing vs with
  | nil => simp
  | cons t tables ih =>
    have hfirst := h.run_next hkey (hdistinct t (by simp)) vs (place ++ [key])
    have hrest := ih (vs ++ [.table .header t]) fun t' ht' => hdistinct t' (by simp [ht'])
    rw [List.flatMap_cons, List.foldlM_append, hfirst]
    simpa using hrest

end Focus

end CodeAtlas.Toml
