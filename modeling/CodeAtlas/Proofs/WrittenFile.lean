import CodeAtlas.Files.Disk
import CodeAtlas.Proofs.PathOrder

/-! # Files read back as they were written

The bytes of a text are taken apart character by character. A path leads to the
same place before and after a file is written there: the only entry that
changes is the one at the place, and the way to it does not go through it. -/
namespace CodeAtlas

namespace Utf8

/-! ## Bytes of a text -/

theorem loop_eq (bytes : ByteArray) (i : Nat) (r : List UInt8) :
    ByteArray.toList.loop bytes i r = r.reverse ++ bytes.data.toList.drop i := by
  fun_induction ByteArray.toList.loop bytes i r with
  | case1 i r h ih =>
    have hi : i < bytes.data.toList.length := h
    have hget : bytes.get! i = bytes.data.toList[i] := by
      show bytes.data[i]! = _
      rw [getElem!_pos bytes.data i h, Array.getElem_toList]
    rw [ih, List.drop_eq_getElem_cons hi, hget]
    simp
  | case2 i r h =>
    have hi : bytes.data.toList.length ≤ i := Nat.le_of_not_lt h
    simp [List.drop_eq_nil_of_le hi]

theorem toList_eq (bytes : ByteArray) : bytes.toList = bytes.data.toList := by
  rw [ByteArray.toList, loop_eq]
  rfl

section Pieces
variable {a b c d : UInt8} (rest : List UInt8)

theorem pieces_one (ha : width a = 1) :
    pieces (a :: rest) = some (Char.ofNat a.toNat) :: pieces rest := by
  rw [pieces.eq_def]
  simp only [ha]

theorem pieces_two (ha : width a = 2) (hb : isSecond a b = true) :
    pieces (a :: b :: rest) = some (Char.ofNat (a.toNat % 32 * 64 + tailBits b)) ::
      pieces rest := by
  rw [pieces.eq_def]
  simp only [ha, hb, if_true]

theorem pieces_three (ha : width a = 3) (hb : isSecond a b = true) (hc : isContinuation c = true) :
    pieces (a :: b :: c :: rest) =
      some (Char.ofNat (a.toNat % 16 * 4096 + tailBits b * 64 + tailBits c)) :: pieces rest := by
  rw [pieces.eq_def]
  simp only [ha, hb, hc, if_true]

theorem pieces_four (ha : width a = 4) (hb : isSecond a b = true) (hc : isContinuation c = true)
    (hd : isContinuation d = true) : pieces (a :: b :: c :: d :: rest) =
      some (Char.ofNat (a.toNat % 8 * 262144 + tailBits b * 4096 + tailBits c * 64 + tailBits d)) ::
        pieces rest := by
  rw [pieces.eq_def]
  simp only [ha, hb, hc, hd, if_true]

end Pieces

section Bytes
variable {n m : Nat}

theorem toNat_ofNat (h : n < 256) : (UInt8.ofNat n).toNat = n := UInt8.toNat_ofNat_of_lt' h

theorem width_ofNat (h : n < 256) : width (UInt8.ofNat n) =
    if n < 0x80 then 1 else if n < 0xC2 then 0 else if n < 0xE0 then 2 else if n < 0xF0 then 3
    else if n < 0xF5 then 4 else 0 := by
  simp only [width, UInt8.lt_iff_toNat_lt, toNat_ofNat h]
  rfl

theorem isContinuation_ofNat (h : n < 64) : isContinuation (UInt8.ofNat (n + 0x80)) = true := by
  simp only [isContinuation, UInt8.le_iff_toNat_le, toNat_ofNat (show n + 0x80 < 256 by omega),
    Bool.and_eq_true, decide_eq_true_eq]
  exact ⟨Nat.le_add_left _ _, Nat.add_le_add_right (Nat.le_of_lt_succ h) _⟩

theorem tailBits_ofNat (h : n < 64) : tailBits (UInt8.ofNat (n + 0x80)) = n := by
  rw [tailBits, toNat_ofNat (by omega)]
  omega

/-- The second byte has to be larger, or smaller, than some behind four of the
first bytes. -/
theorem isSecond_ofNat (hn : n < 256) (hm : m < 64)
    (h : (n = 0xE0 → 0x20 ≤ m) ∧ (n = 0xED → m < 0x20) ∧
    (n = 0xF0 → 0x10 ≤ m) ∧ (n = 0xF4 → m < 0x10)) :
    isSecond (UInt8.ofNat n) (UInt8.ofNat (m + 0x80)) = true := by
  simp only [isSecond, isContinuation, ← UInt8.toNat_inj, UInt8.le_iff_toNat_le, toNat_ofNat hn,
    toNat_ofNat (show m + 0x80 < 256 by omega), UInt8.reduceToNat]
  split_ifs <;> simp only [Bool.and_eq_true, decide_eq_true_eq] <;> omega

end Bytes

theorem pieces_utf8EncodeChar (c : Char) (rest : List UInt8) :
    pieces (String.utf8EncodeChar c ++ rest) = some c :: pieces rest := by
  have hvalid : c.val.toNat < 0xD800 ∨ 0xDFFF < c.val.toNat ∧ c.val.toNat < 0x110000 := c.valid
  have hchar : Char.ofNat c.val.toNat = c := Char.ofNat_toNat c
  rw [String.utf8EncodeChar.eq_def c]
  generalize c.val.toNat = v at *
  dsimp only
  split_ifs with h1 h2 h3
  · have ha : width (UInt8.ofNat v) = 1 := by rw [width_ofNat (by omega), if_pos (by omega)]
    rw [List.cons_append, List.nil_append, pieces_one _ ha, toNat_ofNat (by omega), hchar]
  · have ha : width (UInt8.ofNat (v / 64 % 32 + 0xC0)) = 2 := by
      rw [width_ofNat (by omega)]
      split_ifs <;> omega
    have hb :=
      isSecond_ofNat (n := v / 64 % 32 + 0xC0) (m := v % 64) (by omega) (by omega) (by omega)
    have hv : (v / 64 % 32 + 0xC0) % 32 * 64 + v % 64 = v := by omega
    simp only [List.cons_append, List.nil_append]
    rw [pieces_two _ ha hb, toNat_ofNat (by omega), tailBits_ofNat (by omega), hv, hchar]
  · have ha : width (UInt8.ofNat (v / 4096 % 16 + 0xE0)) = 3 := by
      rw [width_ofNat (by omega)]
      split_ifs <;> omega
    have hb :=
      isSecond_ofNat (n := v / 4096 % 16 + 0xE0) (m := v / 64 % 64) (by omega) (by omega) (by omega)
    have hc := isContinuation_ofNat (n := v % 64) (by omega)
    have hv : (v / 4096 % 16 + 0xE0) % 16 * 4096 + v / 64 % 64 * 64 + v % 64 = v := by omega
    simp only [List.cons_append, List.nil_append]
    rw [pieces_three _ ha hb hc, toNat_ofNat (by omega), tailBits_ofNat (by omega),
      tailBits_ofNat (by omega), hv, hchar]
  · have ha : width (UInt8.ofNat (v / 262144 % 8 + 0xF0)) = 4 := by
      rw [width_ofNat (by omega)]
      split_ifs <;> omega
    have hb :=
      isSecond_ofNat (n := v / 262144 % 8 + 0xF0) (m := v / 4096 % 64)
        (by omega) (by omega) (by omega)
    have hc := isContinuation_ofNat (n := v / 64 % 64) (by omega)
    have hd := isContinuation_ofNat (n := v % 64) (by omega)
    have hv : (v / 262144 % 8 + 0xF0) % 8 * 262144 + v / 4096 % 64 * 4096 + v / 64 % 64 * 64 +
        v % 64 = v := by omega
    simp only [List.cons_append, List.nil_append]
    rw [pieces_four _ ha hb hc hd, toNat_ofNat (by omega), tailBits_ofNat (by omega),
      tailBits_ofNat (by omega), tailBits_ofNat (by omega), hv, hchar]

theorem pieces_flatMap (cs : List Char) :
    pieces (cs.flatMap String.utf8EncodeChar) = cs.map some := by
  induction cs with
  | nil => simp [pieces]
  | cons c cs ih => rw [List.flatMap_cons, pieces_utf8EncodeChar, ih, List.map_cons]

/-- The bytes of a text are decoded to the text. -/
theorem decode?_toUTF8 (s : String) : decode? s.toUTF8.toList = some s := by
  have hmap : ∀ cs : List Char, (cs.map some).mapM (fun c => c) = some cs := by
    intro cs
    induction cs with
    | nil => rfl
    | cons c cs ih => simp [ih]
  rw [decode?, toList_eq, Text.bytes_eq, pieces_flatMap, hmap, Option.map_some,
    String.ofList_toList]

end Utf8

/-! ## The way to a place -/

namespace Disk

/-- Whether a step of a path names an entry. -/
def Names (step : String) : Prop := ¬(step = "" ∨ step = ".") ∧ step ≠ ".."

/-- How a path leads to a place. -/
inductive Way (d : Disk) (onLink : List String → List String → Except FileError (List String)) :
    List String → List String → List String → Prop where
  | arrive (here : List String) : Way d onLink here [] here
  | stay {here rest place : List String} {step : String} (hstep : step = "" ∨ step = ".")
      (h : Way d onLink here rest place) : Way d onLink here (step :: rest) place
  | up {here rest place : List String} (h : Way d onLink here.dropLast rest place) :
      Way d onLink here (".." :: rest) place
  | enter {here rest place : List String} {step : String} (hstep : Names step)
      (hentry : d.entryAt (here ++ [step]) = some .directory)
      (h : Way d onLink (here ++ [step]) rest place) :
      Way d onLink here (step :: rest) place
  | missing {here : List String} {step : String} (hstep : Names step)
      (hentry : d.entryAt (here ++ [step]) = none) :
      Way d onLink here [step] (here ++ [step])
  | file {here : List String} {step : String} {content : List UInt8} (hstep : Names step)
      (hentry : d.entryAt (here ++ [step]) = some (.file content)) :
        Way d onLink here [step] (here ++ [step])
  | link {here rest place : List String} {step target : String} (hstep : Names step)
      (hentry : d.entryAt (here ++ [step]) = some (.link target))
      (h : onLink (if Text.startsWith target "/" then [] else here)
        (Text.split '/' target ++ rest) = .ok place) :
      Way d onLink here (step :: rest) place

section Way
variable {d : Disk} {onLink : List String → List String → Except FileError (List String)}
  {here steps place : List String}

theorem way_of_go (h : d.go onLink here steps = .ok place) : Way d onLink here steps place := by
  induction steps generalizing here with
  | nil =>
    obtain rfl := Except.ok.inj h
    exact .arrive here
  | cons step rest ih =>
    rw [go] at h
    split at h
    · rename_i hstay
      exact .stay hstay (ih h)
    · rename_i hstay
      split at h
      · rename_i hup
        exact hup ▸ .up (ih h)
      · rename_i hup
        split at h
        · rename_i hentry
          split at h
          · rename_i hrest
            subst hrest
            obtain rfl := Except.ok.inj h
            exact .missing ⟨hstay, hup⟩ hentry
          · cases h
        · rename_i hentry
          exact .enter ⟨hstay, hup⟩ hentry (ih h)
        · rename_i hentry
          split at h
          · rename_i hrest
            subst hrest
            obtain rfl := Except.ok.inj h
            exact .file ⟨hstay, hup⟩ hentry
          · cases h
        · rename_i target hentry
          refine .link ⟨hstay, hup⟩ hentry ?_
          split at h
          · rename_i habsolute
            rwa [if_pos habsolute]
          · rename_i hrelative
            rwa [if_neg hrelative]

theorem Way.go_eq (h : Way d onLink here steps place) : d.go onLink here steps = .ok place := by
  induction h with
  | arrive here => rfl
  | stay hstep _ ih => rw [go, if_pos hstep, ih]
  | up _ ih => rw [go, if_neg (by decide), if_pos rfl, ih]
  | enter hstep hentry _ ih => simp only [go, hstep.1, hstep.2, if_false, hentry, ih]
  | missing hstep hentry => simp only [go, hstep.1, hstep.2, if_false, hentry, if_true]
  | file hstep hentry => simp only [go, hstep.1, hstep.2, if_false, hentry, if_true]
  | link hstep hentry h =>
    simp only [go, hstep.1, hstep.2, if_false, hentry]
    split
    · rename_i habsolute
      rwa [if_pos habsolute] at h
    · rename_i hrelative
      rwa [if_neg hrelative] at h

/-- A place at which there is a link was not reached by a step, so it is the
start or above it. -/
def Passes (d : Disk) (here place : List String) : Prop :=
  place <+: here ∨ ∀ target, d.entryAt place ≠ some (.link target)

theorem Way.passes (h : Way d onLink here steps place)
    (hlink : ∀ here steps place, onLink here steps = .ok place → d.Passes here place) :
    d.Passes here place := by
  induction h with
  | arrive here => exact .inl (List.prefix_refl here)
  | stay _ _ ih => exact ih
  | up _ ih => exact ih.imp_left fun habove => habove.trans (List.dropLast_prefix _)
  | enter _ hentry _ ih =>
    rcases ih with habove | hother
    · rcases List.prefix_concat_iff.1 habove with rfl | habove
      · exact .inr fun target => by simp [hentry]
      · exact .inl habove
    · exact .inr hother
  | missing _ hentry => exact .inr fun target => by simp [hentry]
  | file _ hentry => exact .inr fun target => by simp [hentry]
  | @link here rest place step target _ _ h =>
    rcases hlink _ _ _ h with habove | hother
    · split at habove
      · obtain rfl := List.prefix_nil.1 habove
        exact .inr fun target => by simp [entryAt]
      · exact .inl habove
    · exact .inr hother

theorem passes_follow (links : Nat) (h : d.follow links here steps = .ok place) :
    d.Passes here place := by
  induction links generalizing here steps place with
  | zero => exact (way_of_go h).passes (fun _ _ _ hlink => nomatch hlink)
  | succ links ih => exact (way_of_go h).passes fun _ _ _ hlink => ih hlink

/-! ## A file at the place -/

theorem key_append_ne {front back : List String} (hfront : front ≠ []) (hback : back ≠ []) :
    key (front ++ back) ≠ key front := by
  intro heq
  rw [key, Text.join_slash_append hfront hback, key] at heq
  have hlength := congrArg String.length heq
  have hslash : "/".length = 1 := rfl
  simp only [String.length_append] at hlength
  omega

theorem entryAt_congr {steps' : List String} (hne : steps ≠ []) (hne' : steps' ≠ [])
    (hkey : key steps = key steps') : d.entryAt steps = d.entryAt steps' := by
  simp [entryAt, hne, hne', hkey]

theorem entryAt_put_self {e : Entry} (hne : place ≠ []) :
    (d.put place e).entryAt place = some e := by
  simp [entryAt, put, hne]

theorem entryAt_put_of_ne {e : Entry} (hkey : key steps ≠ key place) :
    (d.put place e).entryAt steps = d.entryAt steps := by
  simp [entryAt, put, hkey]

/-- The way to a place that is no directory stays the same when a file is put
there. -/
theorem Way.put {onLink' : List String → List String → Except FileError (List String)}
    {content : List UInt8}
    (h : Way d onLink here steps place) (hplace : d.entryAt place ≠ some .directory)
    (hlink : ∀ here steps, onLink here steps = .ok place → onLink' here steps = .ok place ∧
      d.Passes here place) : Way (d.put place (.file content)) onLink' here steps place := by
  have hne : place ≠ [] := by
    intro hnil
    rw [hnil] at hplace
    exact hplace rfl
  induction h with
  | arrive here => exact .arrive here
  | stay hstep _ ih => exact .stay hstep (ih hplace hlink hne)
  | up _ ih => exact .up (ih hplace hlink hne)
  | @enter here rest place step hstep hentry _ ih =>
    have hkey : key (here ++ [step]) ≠ key place := by
      intro heq
      rw [entryAt_congr (by simp) hne heq] at hentry
      exact hplace hentry
    exact .enter hstep (by rw [entryAt_put_of_ne hkey, hentry]) (ih hplace hlink hne)
  | missing hstep _ => exact .file hstep (entryAt_put_self hne)
  | file hstep _ => exact .file hstep (entryAt_put_self hne)
  | @link here rest place step target hstep hentry h =>
    obtain ⟨hfollow, hpasses⟩ := hlink _ _ h
    -- If the link stood at the place, the place would be above it, and have a shorter
    -- key.
    have hkey : key (here ++ [step]) ≠ key place := by
      intro heq
      rw [entryAt_congr (by simp) hne heq] at hentry
      rcases hpasses with habove | hother
      · split at habove
        · exact hne (List.prefix_nil.1 habove)
        · obtain ⟨more, rfl⟩ := habove
          rw [List.append_assoc] at heq
          exact key_append_ne hne (by simp) heq
      · exact hother target hentry
    exact .link hstep (by rw [entryAt_put_of_ne hkey, hentry]) hfollow

theorem follow_put {content : List UInt8} (hplace : d.entryAt place ≠ some .directory) (links : Nat)
    (h : d.follow links here steps = .ok place) :
    (d.put place (.file content)).follow links here steps = .ok place := by
  induction links generalizing here steps with
  | zero => exact ((way_of_go h).put hplace fun _ _ hlink => nomatch hlink).go_eq
  | succ links ih =>
    exact ((way_of_go h).put hplace fun _ _ hlink => ⟨ih hlink, passes_follow links hlink⟩).go_eq

end Way

/-- A file can be written at a path: it does not end in a slash, and leads to a
place that is no directory. -/
structure TakesFile (d : Disk) (path : String) (place : List String) : Prop where
  noSlash : Text.endsWith path "/" = false
  located : d.locate path = .ok place
  noDirectory : d.entryAt place ≠ some .directory

section TakesFile
variable {d d' : Disk} {path : String} {place : List String}

theorem TakesFile.writeText_eq (h : d.TakesFile path place) (text : String) :
    d.writeText path text = .ok (d.put place (.file text.toUTF8.toList)) := by
  simp only [writeText, h.noSlash, h.located, Bool.false_eq_true, if_false, bind, Except.bind]
  split
  · rename_i hentry
    exact absurd hentry h.noDirectory
  · rfl

theorem takesFile_of_writeText {text : String} (h : d.writeText path text = .ok d') :
    ∃ place, d.TakesFile path place := by
  by_cases hslash : Text.endsWith path "/" = true
  · simp only [writeText, hslash, if_true, bind, Except.bind] at h
    split at h
    · cases h
    · split at h <;> cases h
  · simp only [writeText, hslash, Bool.false_eq_true, if_false, bind, Except.bind] at h
    split at h
    · cases h
    · rename_i place hlocate
      split at h
      · cases h
      · rename_i hentry
        exact ⟨place, by simpa using hslash, hlocate, hentry⟩

/-- What was written is read. -/
theorem TakesFile.readText_eq (h : d.TakesFile path place) (text : String) :
    (d.put place (.file text.toUTF8.toList)).readText path = .ok text := by
  have hne : place ≠ [] := by
    intro hnil
    exact h.noDirectory (by rw [hnil]; rfl)
  have hlocate : (d.put place (.file text.toUTF8.toList)).locate path = .ok place := by
    have hlocated := h.located
    simp only [locate] at hlocated ⊢
    split at hlocated
    · cases hlocated
    · rename_i hpath
      rw [if_neg hpath]
      exact follow_put h.noDirectory maxLinks hlocated
  simp only [readText, read, stat, hlocate, entryAt_put_self hne, Utf8.decode?_toUTF8, bind,
    Except.bind]

end TakesFile

end Disk

end CodeAtlas
