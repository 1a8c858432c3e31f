/-!
Sets of characters and case maps, written down as short texts.

A set is a list of hexadecimal codes and ranges of codes (`41-5A 61-7A AA`). A
case map is a list of runs, each a code or range, `/2` if only every other code
of the range counts, and how far to move up (`>`) or down (`<`); codes that
become several characters are listed apart (`DF=53.53`).
-/
namespace CodeAtlas.Text

/-- The value of a hexadecimal digit; other characters count as zero. -/
def hexValue (c : Char) : Nat :=
  if '0' ≤ c ∧ c ≤ '9' then c.toNat - '0'.toNat
  else if 'A' ≤ c ∧ c ≤ 'F' then c.toNat - 'A'.toNat + 10
  else if 'a' ≤ c ∧ c ≤ 'f' then c.toNat - 'a'.toNat + 10
  else 0

def hexNumber (digits : List Char) : Nat := digits.foldl (fun n c => 16 * n + hexValue c) 0

/-- Cut a list at every element that satisfies `p`, which is dropped. There is
one piece more than there are cuts. -/
def cutWhere {α : Type} (p : α → Bool) : List α → List (List α)
  | [] => [[]]
  | x :: rest =>
    match cutWhere p rest with
    | [] => [[x]]
    | piece :: pieces => if p x then [] :: piece :: pieces else (x :: piece) :: pieces

/-- The words of a table, which spaces and line breaks divide. -/
def tableWords (text : String) : List (List Char) :=
  (cutWhere (fun c => c == ' ' || c == '\n') text.toList).filter (!·.isEmpty)

/-- A set of characters as ranges of codes in ascending order. -/
structure CharSet where
  ranges : Array (Nat × Nat)

namespace CharSet

def ofText (text : String) : CharSet :=
  { ranges := ((tableWords text).map fun word =>
      match cutWhere (· == '-') word with
      | [a, b] => (hexNumber a, hexNumber b)
      | _ => (hexNumber word, hexNumber word)).toArray }

/-- Look for `code` among the ranges from `lo` up to and without `hi`, halving
each time. -/
def search (ranges : Array (Nat × Nat)) (code : Nat) : (fuel lo hi : Nat) → Bool
  | 0, _, _ => false
  | fuel + 1, lo, hi =>
    if hi ≤ lo then false
    else
      let mid := (lo + hi) / 2
      match ranges[mid]? with
      | none => false
      | some (first, last) =>
        if code < first then search ranges code fuel lo mid
        else if last < code then search ranges code fuel (mid + 1) hi
        else true

def contains (s : CharSet) (c : Char) : Bool :=
  search s.ranges c.toNat (s.ranges.size.log2 + 2) 0 s.ranges.size

end CharSet

/-- A stretch of characters that change case in the same way. -/
structure CaseRun where
  first : Nat
  last : Nat
  step : Nat
  offset : Int

structure CaseMap where
  runs : List CaseRun
  /-- Characters that become several. -/
  several : List (Nat × List Char)

namespace CaseMap

def readRun (word : List Char) : CaseRun :=
  let range := word.takeWhile fun c => c != '<' && c != '>'
  let move := word.drop range.length
  let amount : Int := hexNumber (move.drop 1)
  let codes := range.takeWhile (· != '/')
  let (first, last) := match cutWhere (· == '-') codes with
    | [a, b] => (hexNumber a, hexNumber b)
    | _ => (hexNumber codes, hexNumber codes)
  { first, last, step := if codes.length < range.length then 2 else 1
    offset := if move.head? == some '<' then -amount else amount }

/-- Read a map from its two texts. -/
def ofTexts (runs several : String) : CaseMap :=
  { runs := (tableWords runs).map readRun
    several := (tableWords several).map fun word =>
      let code := word.takeWhile (· != '=')
      (hexNumber code,
        (cutWhere (· == '.') (word.drop (code.length + 1))).map fun w =>
          Char.ofNat (hexNumber w)) }

def apply (m : CaseMap) (c : Char) : List Char :=
  match m.several.lookup c.toNat with
  | some cs => cs
  | none =>
    match m.runs.find? fun r =>
        r.first ≤ c.toNat && c.toNat ≤ r.last && (c.toNat - r.first) % r.step == 0 with
    | some r => [Char.ofNat (Int.toNat (c.toNat + r.offset))]
    | none => [c]

end CaseMap

end CodeAtlas.Text
