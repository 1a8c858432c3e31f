import CodeAtlas.Text.Split
import CodeAtlas.Toml.Reader

/-!
Writing TOML texts.

A string takes the plainest form that fits: double quotes, single quotes, three
double quotes, three single quotes, and only then double quotes with escapes.
An array of several elements has one element to a line.
-/
namespace CodeAtlas.Toml

/-- Whether a character can only be written with an escape. -/
def needsEscape (c : Char) : Bool := !isPrintable c && c ≠ '\n'

/-- Whether a quote occurs three times in a row, when it has just occurred so
often. -/
def hasTriple (quote : Char) : Nat → List Char → Bool
  | _, [] => false
  | run, c :: rest =>
    if c = quote then 2 ≤ run || hasTriple quote (run + 1) rest else hasTriple quote 0 rest

def hexDigitOf (n : Nat) : Char := Char.ofNat (if n < 10 then 48 + n else 55 + n)

/-- A character between double quotes, the quotes themselves apart. -/
def escapeChar (isLong : Bool) (c : Char) : List Char :=
  match c with
  | '\x08' => ['\\', 'b']
  | '\t' => ['\\', 't']
  | '\n' => if isLong then ['\n'] else ['\\', 'n']
  | '\x0c' => ['\\', 'f']
  | '\r' => ['\\', 'r']
  | '\\' => ['\\', '\\']
  | c =>
    if needsEscape c then
      ['\\', 'u', '0', '0', hexDigitOf (c.toNat / 16), hexDigitOf (c.toNat % 16)]
    else [c]

/-- A text between double quotes. Between three of them only the third quote in
a row is escaped. -/
def escapeText (isLong : Bool) : Nat → List Char → List Char
  | _, [] => []
  | run, c :: rest =>
    if c = '"' then
      if isLong && run < 2 then '"' :: escapeText isLong (run + 1) rest
      else '\\' :: '"' :: escapeText isLong 0 rest
    else escapeChar isLong c ++ escapeText isLong 0 rest

def writeBasic (cs : List Char) : List Char := '"' :: escapeText false 0 cs ++ ['"']

def writeLiteral (cs : List Char) : List Char := '\'' :: cs ++ ['\'']

/-- The line break behind three quotes. -/
def openingBreak (cs : List Char) : List Char := if cs.contains '\n' then ['\n'] else []

def writeLongBasic (cs : List Char) : List Char :=
  ['"', '"', '"'] ++ openingBreak cs ++ escapeText true 0 cs ++ ['"', '"', '"']

def writeLongLiteral (cs : List Char) : List Char :=
  ['\'', '\'', '\''] ++ openingBreak cs ++ cs ++ ['\'', '\'', '\'']

def fitsBasic (cs : List Char) : Bool := cs.all fun c => isPrintable c && c ≠ '\\' && c ≠ '"'

def fitsLiteral (cs : List Char) : Bool := cs.all fun c => isPrintable c && c ≠ '\''

def fitsLongBasic (cs : List Char) : Bool :=
  (cs.all fun c => !needsEscape c && c ≠ '\\') && !hasTriple '"' 0 cs

def fitsLongLiteral (cs : List Char) : Bool :=
  (cs.all fun c => !needsEscape c) && !hasTriple '\'' 0 cs

def writeString (cs : List Char) : List Char :=
  if fitsBasic cs then writeBasic cs
  else if fitsLiteral cs then writeLiteral cs
  else if fitsLongBasic cs then writeLongBasic cs
  else if fitsLongLiteral cs then writeLongLiteral cs
  else if cs.contains '\n' then writeLongBasic cs
  else writeBasic cs

def writeKey (cs : List Char) : List Char :=
  if cs ≠ [] ∧ cs.all isBareKeyChar then cs
  else if fitsBasic cs then writeBasic cs
  else if fitsLiteral cs then writeLiteral cs
  else writeBasic cs

def ofText (s : String) : List Char := writeString s.toList

def ofBool (b : Bool) : List Char := if b then ['t', 'r', 'u', 'e'] else ['f', 'a', 'l', 's', 'e']

def ofNat (n : Nat) : List Char := Nat.toDigits 10 n

/-- An array of elements that are written already. -/
def ofElements : List (List Char) → List Char
  | [] => ['[', ']']
  | [x] => '[' :: x ++ [']']
  | xs => ['[', '\n'] ++ xs.flatMap (fun x => [' ', ' ', ' ', ' '] ++ x ++ [',', '\n']) ++ [']']

def ofTexts (l : List String) : List Char := ofElements (l.map ofText)

def assignLine (key : String) (written : List Char) : List Char :=
  writeKey key.toList ++ [' ', '=', ' '] ++ written ++ ['\n']

def writePath : List String → List Char
  | [] => []
  | [part] => writeKey part.toList
  | part :: rest => writeKey part.toList ++ '.' :: writePath rest

/-- A table: its header and the lines below it. -/
def tableLines (path : List String) (lines : List (List Char)) : List Char :=
  '[' :: writePath path ++ [']', '\n'] ++ lines.flatten

def elementLines (path : List String) (lines : List (List Char)) : List Char :=
  '[' :: '[' :: writePath path ++ [']', ']', '\n'] ++ lines.flatten

/-- Tables one after the other, with an empty line between them. -/
def writeTables (tables : List (List Char)) : String := String.ofList (Text.joinChars ['\n'] tables)

end CodeAtlas.Toml
