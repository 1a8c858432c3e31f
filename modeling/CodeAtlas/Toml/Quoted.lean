import CodeAtlas.Text.CharSet
import CodeAtlas.Toml.Gap

/-!
Reading TOML strings.

There are four forms: between double quotes with escapes, between single quotes
without any, and both of them between three quotes, where the string may have
line breaks.
-/
namespace CodeAtlas.Toml

def isHexDigit (c : Char) : Bool :=
  ('0' ≤ c && c ≤ '9') || ('a' ≤ c && c ≤ 'f') || ('A' ≤ c && c ≤ 'F')

/-- The character that one letter behind a backslash stands for. -/
def escaped? : Char → Option Char
  | 'b' => some '\x08'
  | 't' => some '\t'
  | 'n' => some '\n'
  | 'f' => some '\x0c'
  | 'r' => some '\r'
  | '"' => some '"'
  | '\\' => some '\\'
  | _ => none

def charOfCode? (digits : List Char) : Option Char :=
  let code := Text.hexNumber digits
  if digits.all isHexDigit ∧ code.isValidChar then some (Char.ofNat code) else none

def pushFront (c : Char) (r : Option (List Char × List Char)) : Option (List Char × List Char) :=
  r.map fun (text, rest) => (c :: text, rest)

/-- Read up to the double quote that ends a string on one line. -/
def basicBody : Reader (List Char)
  | [] => none
  | '"' :: rest => some ([], rest)
  | '\\' :: 'u' :: a :: b :: c :: d :: rest => do
    let code ← charOfCode? [a, b, c, d]
    pushFront code (basicBody rest)
  | '\\' :: 'U' :: a :: b :: c :: d :: e :: f :: g :: h :: rest => do
    let code ← charOfCode? [a, b, c, d, e, f, g, h]
    pushFront code (basicBody rest)
  | '\\' :: letter :: rest => do
    let c ← escaped? letter
    pushFront c (basicBody rest)
  | c :: rest => if isPrintable c && c ≠ '\\' then pushFront c (basicBody rest) else none

/-- Read up to the three double quotes that end a string. A backslash at
the end of a line skips all blanks and line breaks behind it. Up to two quotes
may stand directly before the end. -/
def longBasicBody (skipping : Bool) : Reader (List Char)
  | [] => none
  | '"' :: '"' :: '"' :: '"' :: '"' :: rest => some (['"', '"'], rest)
  | '"' :: '"' :: '"' :: '"' :: rest => some (['"'], rest)
  | '"' :: '"' :: '"' :: rest => some ([], rest)
  | '\\' :: 'u' :: a :: b :: c :: d :: rest => do
    let code ← charOfCode? [a, b, c, d]
    pushFront code (longBasicBody false rest)
  | '\\' :: 'U' :: a :: b :: c :: d :: e :: f :: g :: h :: rest => do
    let code ← charOfCode? [a, b, c, d, e, f, g, h]
    pushFront code (longBasicBody false rest)
  | '\\' :: letter :: rest =>
    if (afterNewline? (skipBlanks (letter :: rest))).isSome then longBasicBody true (letter :: rest)
    else do
      let c ← escaped? letter
      pushFront c (longBasicBody false rest)
  | '\r' :: '\n' :: rest =>
    if skipping then longBasicBody true rest else pushFront '\n' (longBasicBody false rest)
  | c :: rest =>
    if skipping && (isBlank c || c = '\n') then longBasicBody true rest
    else if (isPrintable c || c = '\n') && c ≠ '\\' then pushFront c (longBasicBody false rest)
    else none

/-- Read up to the single quote that ends a string on one line. -/
def literalBody : Reader (List Char)
  | [] => none
  | '\'' :: rest => some ([], rest)
  | c :: rest => if isPrintable c then pushFront c (literalBody rest) else none

/-- Read up to the three single quotes that end a string. Up to two quotes may
stand directly before the end. -/
def longLiteralBody : Reader (List Char)
  | [] => none
  | '\'' :: '\'' :: '\'' :: '\'' :: '\'' :: rest => some (['\'', '\''], rest)
  | '\'' :: '\'' :: '\'' :: '\'' :: rest => some (['\''], rest)
  | '\'' :: '\'' :: '\'' :: rest => some ([], rest)
  | '\r' :: '\n' :: rest => pushFront '\n' (longLiteralBody rest)
  | c :: rest => if isPrintable c || c = '\n' then pushFront c (longLiteralBody rest) else none

/-- Read a string in any of its forms. A line break directly behind three
quotes does not count. -/
def quoted : Reader (List Char)
  | '"' :: '"' :: '"' :: rest => longBasicBody false (skipNewline rest)
  | '"' :: rest => basicBody rest
  | '\'' :: '\'' :: '\'' :: rest => longLiteralBody (skipNewline rest)
  | '\'' :: rest => literalBody rest
  | _ => none

end CodeAtlas.Toml
