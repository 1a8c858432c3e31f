import CodeAtlas.Toml.Datetime
import CodeAtlas.Toml.Document
import CodeAtlas.Toml.Quoted

/-!
Reading TOML texts.

A text is a list of lines that assign values or open tables. Values are nested
at most `maxDepth` levels, and no key has more parts than that.
-/
namespace CodeAtlas.Toml

/-- The greatest depth of nested values, and the greatest number of parts of a key. -/
def maxDepth : Nat := 79

/-- Whether a character may stand in a key without quotes. -/
def isBareKeyChar (c : Char) : Bool :=
  ('a' ≤ c && c ≤ 'z') || ('A' ≤ c && c ≤ 'Z') || isDigit c || c = '_' || c = '-'

def keyPart : Reader String
  | '"' :: rest => (basicBody rest).map fun (text, rest) => (String.ofList text, rest)
  | '\'' :: rest => (literalBody rest).map fun (text, rest) => (String.ofList text, rest)
  | cs =>
    match cs.takeWhile isBareKeyChar with
    | [] => none
    | bare => some (String.ofList bare, cs.dropWhile isBareKeyChar)

/-- Read the parts of a key, with dots between them and blanks around them. -/
def keyParts : Nat → Reader (List String)
  | 0, _ => none
  | parts + 1, cs => do
    let (part, rest) ← keyPart (skipBlanks cs)
    match skipBlanks rest with
    | '.' :: rest =>
      let (others, rest) ← keyParts parts rest
      some (part :: others, rest)
    | rest => some ([part], rest)

def key : Reader (List String) := keyParts maxDepth

/-- Read a value that has no other values in it. -/
def scalar (cs : List Char) : Option (Value × List Char) :=
  match cs with
  | 't' :: 'r' :: 'u' :: 'e' :: rest => some (.boolean true, rest)
  | 'f' :: 'a' :: 'l' :: 's' :: 'e' :: rest => some (.boolean false, rest)
  | '"' :: _ | '\'' :: _ => (quoted cs).map fun (text, rest) => (.string (String.ofList text), rest)
  | cs =>
    match datetime cs, float cs, integer cs with
    | some (text, rest), _, _ => some (.datetime text, rest)
    | none, some (text, rest), _ => some (.float text, rest)
    | none, none, some (number, rest) => some (.integer number, rest)
    | none, none, none => none

/-- Read the elements of an array and the bracket behind them. There are no
more elements than characters. -/
def elements (element : Reader Value) : Nat → Reader (List Value)
  | 0, _ => none
  | left + 1, cs =>
    match skipGap false cs with
    | ']' :: rest => some ([], rest)
    | cs => do
      let (v, rest) ← element cs
      match skipGap false rest with
      | ',' :: rest =>
        let (others, rest) ← elements element left rest
        some (v :: others, rest)
      | ']' :: rest => some ([v], rest)
      | _ => none

def assignment (element : Reader Value) (cs : List Char) :
    Option ((List String × Value) × List Char) := do
  let (path, rest) ← key cs
  let (v, rest) ← element (skipBlanks (← expect '=' rest))
  some ((path, v), rest)

/-- Read assignments and the brace behind them. There are no more of them than
characters. -/
def assignments (element : Reader Value) : Nat → Reader (List (List String × Value))
  | 0, _ => none
  | left + 1, cs => do
    let (first, rest) ← assignment element cs
    match skipBlanks rest with
    | ',' :: rest =>
      let (others, rest) ← assignments element left rest
      some (first :: others, rest)
    | '\x7d' :: rest => some ([first], rest)
    | _ => none

def inlineTable (element : Reader Value) (cs : List Char) : Option (Value × List Char) :=
  match skipBlanks cs with
  | '\x7d' :: rest => some (.table .inline [], rest)
  | cs => do
    let (pairs, rest) ← assignments element cs.length cs
    let entries ← pairs.foldlM (fun es (path, v) => Entries.assign path v .inline es) []
    some (.table .inline entries, rest)

/-- Read a value with at most so many levels of values in it. -/
def value : Nat → Reader Value
  | 0, cs => match cs with
    | '[' :: _ | '\x7b' :: _ => none
    | cs => scalar cs
  | levels + 1, cs => match cs with
    | '[' :: rest =>
      (elements (value levels) (rest.length + 1) rest).map fun (vs, rest) => (.array false vs, rest)
    | '\x7b' :: rest => inlineTable (value levels) rest
    | cs => scalar cs

def line : Reader Line
  | '[' :: '[' :: cs => do
    let (path, rest) ← key cs
    let rest ← endLine? (← expect ']' (← expect ']' rest))
    some (.element path, rest)
  | '[' :: cs => do
    let (path, rest) ← key cs
    let rest ← endLine? (← expect ']' rest)
    some (.header path, rest)
  | cs => do
    let ((path, v), rest) ← assignment (value maxDepth) cs
    some (.assign path v, ← endLine? rest)

/-- Read all lines. There are no more of them than characters. -/
def lines : Nat → List Char → Option (List Line)
  | 0, _ => none
  | left + 1, cs =>
    match skipBlanks cs with
    | [] => some []
    | '#' :: rest => do lines left (← endLine? ('#' :: rest))
    | '\n' :: rest => lines left rest
    | '\r' :: '\n' :: rest => lines left rest
    | cs => do
      let (first, rest) ← line cs
      some (first :: (← lines left rest))

/-- A text without the mark that may stand in front of it. -/
def skipMark : List Char → List Char
  | '\ufeff' :: rest => rest
  | cs => cs

/-- The entries that a text assigns, or `none` if it is not TOML. -/
def parse (text : String) : Option Entries := do
  let cs := skipMark text.toList
  Document.build (← lines (cs.length + 1) cs)

end CodeAtlas.Toml
