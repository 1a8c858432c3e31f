import CodeAtlas.Text.CharSet
import CodeAtlas.Text.Letter

/-!
Taking texts apart and putting them together.

Everything works on the characters of a text, so that the laws are those of
lists. The main ones: joining the pieces of a split gives the text back, and
splitting a join of pieces without the separator gives the pieces back.
-/
namespace CodeAtlas.Text

/-- The pieces between separators; a text without one is a single piece. -/
def split (sep : Char) (s : String) : List String :=
  (cutWhere (· == sep) s.toList).map String.ofList

/-- The characters of pieces with a separator between them. -/
def joinChars (sep : List Char) : List (List Char) → List Char
  | [] => []
  | [p] => p
  | p :: q :: rest => p ++ sep ++ joinChars sep (q :: rest)

def join (sep : String) (pieces : List String) : String :=
  String.ofList (joinChars sep.toList (pieces.map String.toList))

theorem cutWhere_ne_nil {α : Type} (p : α → Bool) (l : List α) : cutWhere p l ≠ [] := by
  cases l with
  | nil => simp [cutWhere]
  | cons x rest =>
    simp only [cutWhere]
    split
    · simp
    · split <;> simp

theorem split_ne_nil (sep : Char) (s : String) : split sep s ≠ [] := by
  simp [split, cutWhere_ne_nil]

theorem joinChars_cutWhere (sep : Char) (l : List Char) :
    joinChars [sep] (cutWhere (· == sep) l) = l := by
  induction l with
  | nil => rfl
  | cons x rest ih =>
    simp only [cutWhere]
    split
    · rename_i h
      exact absurd h (cutWhere_ne_nil _ _)
    · rename_i piece pieces h
      rw [h] at ih
      split
      · rename_i hx
        simp only [beq_iff_eq] at hx
        simp [joinChars, ih, hx]
      · cases pieces with
        | nil => simpa [joinChars] using ih
        | cons q more => simpa [joinChars] using ih

theorem join_split (sep : Char) (s : String) : join (String.ofList [sep]) (split sep s) = s := by
  simp only [join, split, List.map_map, String.toList_ofList]
  have : (String.toList ∘ String.ofList) = (id : List Char → List Char) := by
    funext l; simp
  rw [this, List.map_id, joinChars_cutWhere, String.ofList_toList]

theorem cutWhere_append {α : Type} (p : α → Bool) (piece rest : List α)
    (h : ∀ x ∈ piece, p x = false) (x : α) (hx : p x = true) :
    cutWhere p (piece ++ x :: rest) = piece :: cutWhere p rest := by
  induction piece with
  | nil =>
    simp only [List.nil_append, cutWhere]
    split
    · rename_i hn
      exact absurd hn (cutWhere_ne_nil _ _)
    · simp [*]
  | cons c more ih =>
    have hc : p c = false := h c (by simp)
    simp only [List.cons_append, cutWhere, ih fun y hy => h y (by simp [hy]), hc]
    simp

theorem cutWhere_of_none {α : Type} (p : α → Bool) (piece : List α) (h : ∀ x ∈ piece, p x = false) :
    cutWhere p piece = [piece] := by
  induction piece with
  | nil => rfl
  | cons c more ih =>
    have hc : p c = false := h c (by simp)
    simp [cutWhere, ih fun y hy => h y (by simp [hy]), hc]

/-- Splitting a join of pieces without the separator gives the pieces back. -/
theorem split_join (sep : Char) (pieces : List String) (hne : pieces ≠ [])
    (h : ∀ p ∈ pieces, sep ∉ p.toList) :
    split sep (join (String.ofList [sep]) pieces) = pieces := by
  simp only [split, join, String.toList_ofList]
  induction pieces with
  | nil => exact absurd rfl hne
  | cons p rest ih =>
    have hp : ∀ c ∈ p.toList, (c == sep) = false := fun c hc => by
      have := h p (by simp)
      grind
    cases rest with
    | nil => simp [joinChars, cutWhere_of_none _ _ hp]
    | cons q more =>
      have ih := ih (by simp) fun x hx => h x (by simp [hx])
      simp only [List.map_cons, joinChars, List.append_assoc, List.singleton_append] at ih ⊢
      rw [cutWhere_append _ _ _ hp sep (by simp)]
      simpa using ih

def startsWith (s lead : String) : Bool := lead.toList.isPrefixOf s.toList

def endsWith (s tail : String) : Bool := tail.toList.isSuffixOf s.toList

/-- Whether a list of characters occurs in another without a gap. -/
def occursIn (needle : List Char) : List Char → Bool
  | [] => needle.isEmpty
  | c :: rest => needle.isPrefixOf (c :: rest) || occursIn needle rest

def contains (s part : String) : Bool := occursIn part.toList s.toList

def trim (s : String) : String :=
  String.ofList (((s.toList.dropWhile isBlank).reverse.dropWhile isBlank).reverse)

def words (s : String) : List String :=
  ((cutWhere isBlank s.toList).filter (!·.isEmpty)).map String.ofList

/-- A text with every run of blanks between words replaced by one space, and
none at the ends. -/
def collapseBlanks (s : String) : String := join " " (words s)

/-- A line without the carriage return that ends it. -/
def dropReturn (line : List Char) : List Char :=
  if line.getLast? = some '\r' then line.dropLast else line

/-- The lines of a text. A line break ends a line, so a text that ends with one
has no empty last line. A carriage return before a line break is part of it. -/
def lines (s : String) : List String :=
  let pieces := cutWhere (· == '\n') s.toList
  let whole := pieces.dropLast.map dropReturn
  let rest := match pieces.getLast? with
    | some [] => []
    | some last => [last]
    | none => []
  (whole ++ rest).map String.ofList

def replaceChar (old new : Char) (s : String) : String :=
  String.ofList (s.toList.map fun c => if c = old then new else c)

/-- What stands behind the last separator. -/
def afterLast (sep : Char) (s : String) : String := (split sep s).getLastD s

/-- What stands before the last separator, if there is one. -/
def beforeLast? (sep : Char) (s : String) : Option String :=
  match split sep s with
  | [] | [_] => none
  | pieces => some (join (String.ofList [sep]) pieces.dropLast)

end CodeAtlas.Text
