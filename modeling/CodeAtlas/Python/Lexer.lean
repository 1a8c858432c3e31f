import CodeAtlas.Grammar.Parser
import CodeAtlas.Python.Identifier
import CodeAtlas.Python.Token

/-!
Reading Python's tokens.

What is read depends on what the parser can use at that point. The
line structure and the inside of strings are tried first: a line break is a
`newline` only where a statement may end, an `indent` only where a body may
start, and white space everywhere else. A `dedent` is also read where none can
be used (outside brackets), so that a text that leaves its block in the middle
of a statement is refused.
-/
namespace CodeAtlas.Python

open CodeAtlas.Grammar (Mark Span Lexeme Lexer)

structure Quote where
  mark : Char
  triple : Bool
  raw : Bool
  bytes : Bool
  format : Bool
  deriving DecidableEq, Repr

/-- A place in a text, with the open blocks and strings around it. -/
structure Cursor where
  mark : Mark
  rest : List Char
  /-- Columns of the open blocks, innermost first. -/
  indents : List Nat
  /-- Open strings, innermost first. -/
  quotes : List Quote
  /-- Whether the string opened or closed last is an open format string. -/
  inFormat : Bool

def Cursor.ofText (text : List Char) : Cursor :=
  { mark := ⟨0, 0⟩, rest := text, indents := [0], quotes := [], inFormat := false }

/-- A position behind one more character. -/
def after (m : Mark) (c : Char) : Mark :=
  ⟨m.offset + 1, if c = '\n' then m.line + 1 else m.line⟩

def Cursor.skip (c : Cursor) (n : Nat) : Cursor :=
  { c with mark := (c.rest.take n).foldl after c.mark, rest := c.rest.drop n }

/-- A token that covers the next `n` characters. -/
def Cursor.token (c : Cursor) (t : Token) (n : Nat) : Lexeme Token Cursor :=
  let next := c.skip n
  { token := t, span := ⟨c.mark, next.mark⟩, cursor := next }

/-! ## Inside strings -/

/-- What can be read of an open string: some characters of it, its end, or
neither. -/
inductive StringScan where
  | text (length : Nat)
  | close (length : Nat)
  | nothing
  deriving DecidableEq, Repr

/-- How many characters a backslash in a raw string takes with it: a quote or
backslash, and a line break. -/
def rawEscapeLength (q : Quote) (rest : List Char) : Nat :=
  let lineBreak : List Char → Nat
    | '\r' :: '\n' :: _ => 2
    | '\r' :: _ => 1
    | '\n' :: _ => 1
    | _ => 0
  match rest with
  | c :: more => if c = q.mark || c = '\\' then 1 + lineBreak more else lineBreak rest
  | [] => 0

/-- Read on inside a string. `passed` counts the characters gone over, `skip`
those that are taken unseen, and `content` says whether any of them counts as
content. -/
def scanString (q : Quote) : (content : Bool) → (skip passed : Nat) → List Char → StringScan
  | _, _, _, [] => .nothing
  | content, skip + 1, passed, _ :: rest => scanString q content skip (passed + 1) rest
  | content, 0, passed, c :: rest =>
    let soFar : StringScan := if content then .text passed else .nothing
    if c = '\x00' then .nothing
    else if q.format && (c = '{' || c = '}') then soFar
    else if c = '\\' then
      if q.raw then scanString q content (rawEscapeLength q rest) (passed + 1) rest
      else if q.bytes &&
          (rest.head? = some 'N' || rest.head? = some 'u' || rest.head? = some 'U') then
        scanString q true 2 (passed + 1) rest
      else soFar
    else if c = q.mark then
      if q.triple then
        if rest.head? ≠ some q.mark then .text (passed + 1)
        else if rest.tail.head? ≠ some q.mark then .text (passed + 2)
        else if content then .text passed
        else .close (passed + 3)
      else if content then .text passed
      else .close (passed + 1)
    else if c = '\n' && content && !q.triple then .nothing
    else scanString q true 0 (passed + 1) rest

/-! ## Line structure -/

/-- The white space gone over since the last token. -/
structure Blank where
  /-- A line break, or the end of the text, was among it. -/
  brokeLine : Bool := false
  /-- Columns since then. A tab counts for eight. -/
  column : Nat := 0
  /-- The column of the first comment on a line of its own. -/
  comment : Option Nat := none

/-- Go over white space, continued lines and, if `comments`, comments on lines
of their own. `none` if a comment stands behind a token, or a backslash
continues no line: then there is nothing to say about line structure. -/
def scanBlank (comments : Bool) : (inComment : Bool) → (skip : Nat) → Blank → Mark → List Char →
    Option (Blank × Mark × List Char)
  | _, _, b, m, [] => some ({ b with brokeLine := true, column := 0 }, m, [])
  | inComment, skip + 1, b, m, c :: rest => scanBlank comments inComment skip b (after m c) rest
  | true, 0, b, m, c :: rest =>
    if c = '\n' || c = '\x00' then
      scanBlank comments false 0 { b with column := 0 } (after m c) rest
    else scanBlank comments true 0 b (after m c) rest
  | false, 0, b, m, c :: rest =>
    let next := after m c
    if c = '\n' then scanBlank comments false 0 { b with brokeLine := true, column := 0 } next rest
    else if c = ' ' then scanBlank comments false 0 { b with column := b.column + 1 } next rest
    else if c = '\r' || c = '\x0c' then scanBlank comments false 0 { b with column := 0 } next rest
    else if c = '\t' then scanBlank comments false 0 { b with column := b.column + 8 } next rest
    else if c = '#' && comments then
      if b.brokeLine then
        scanBlank comments true 0 { b with comment := b.comment.or (some b.column) } next rest
      else none
    else if c = '\\' then
      match rest with
      | [] | ['\r'] => scanBlank comments false rest.length b next rest
      | '\n' :: _ => scanBlank comments false 1 b next rest
      | '\r' :: '\n' :: _ => scanBlank comments false 2 b next rest
      | _ => none
    else some (b, m, c :: rest)

/-- Whether a letter can stand before the quotes of a string. -/
def isStringLetter (c : Char) : Bool := "fFrRbBuU".contains c

/-- The opening of a string at the start of `text`, with its length. -/
def readQuote (text : List Char) : Option (Quote × Nat) :=
  let letters := text.takeWhile isStringLetter
  let has := fun (c d : Char) => letters.contains c || letters.contains d
  match text.drop letters.length with
  | c :: more =>
    if c = '`' || c = '\'' || c = '"' then
      let triple := c ≠ '`' && more.take 2 = [c, c]
      some ({ mark := c, triple, raw := has 'r' 'R', bytes := has 'b' 'B', format := has 'f' 'F' },
        letters.length + if triple then 3 else 1)
    else none
  | [] => none

/-- The next token of line structure or the opening of a string. -/
def readLayout (c : Cursor) (expects : Token → Bool) : Option (Lexeme Token Cursor) := do
  let comments := expects .indent || expects .dedent || expects .newline || expects (.word "except")
  let (blank, mark, rest) ← scanBlank comments false 0 {} c.mark c.rest
  let here := fun (t : Token) (next : Cursor) =>
    some { token := t, span := ⟨c.mark, c.mark⟩, cursor := next }
  let column := c.indents.headD 0
  let inBrackets := expects (.mark "\x7d") || expects (.mark ")") || expects (.mark "]")
  let quoteAhead := rest.head? = some '"' || rest.head? = some '\'' || rest.head? = some '`'
  if blank.brokeLine && expects .indent && column < blank.column then
    here .indent { c with indents := blank.column % 256 :: c.indents }
  else if blank.brokeLine
      && (expects .dedent ||
        !(expects .newline || (expects .stringStart && quoteAhead) || inBrackets))
      && blank.column < column && !c.inFormat && blank.comment.all (· < column) then
    here .dedent { c with indents := c.indents.tail }
  else if blank.brokeLine && expects .newline then
    here .newline c
  else if blank.comment.isNone && expects .stringStart then do
    let (quote, length) ← readQuote rest
    let opened := { c with mark, rest }.token .stringStart length
    some { opened with cursor :=
      { opened.cursor with quotes := quote :: c.quotes, inFormat := quote.format } }
  else none

/-! ## All other tokens -/

def isSpace (c : Char) : Bool :=
  c = ' ' || (9 ≤ c.toNat && c.toNat ≤ 13) || c.toNat = 0xFEFF || c.toNat = 0x2060 ||
    c.toNat = 0x200B

/-- Digits in groups, each group but the last followed by an underscore; the
last may be too. The length; `inGroup` says whether an underscore can come
first. -/
def groupedDigits (text : List Char) (inGroup : Bool := false) : Nat :=
  match text with
  | c :: rest =>
    if c.isDigit then 1 + groupedDigits rest true
    else if c = '_' && inGroup then 1 + groupedDigits rest false
    else 0
  | [] => 0

/-- Digits in groups, each of which may follow an underscore. The length. -/
def prefixedDigits (isDigit : Char → Bool) : List Char → Nat
  | c :: rest =>
    if isDigit c then 1 + prefixedDigits isDigit rest
    else if c = '_' && (rest.head?.map isDigit).getD false then 1 + prefixedDigits isDigit rest
    else 0
  | [] => 0

/-- The length of one of `letters` at the start of a text. -/
def letterLength (letters : String) (text : List Char) : Nat :=
  match text with
  | c :: _ => if letters.contains c then 1 else 0
  | [] => 0

def exponentLength : List Char → Nat
  | e :: rest =>
    if e = 'e' || e = 'E' then
      let sign := letterLength "+-" rest
      let digits := groupedDigits (rest.drop sign)
      if digits = 0 then 0 else 1 + sign + digits
    else 0
  | [] => 0

def isHexDigit (c : Char) : Bool := c.isDigit || ('a' ≤ c && c ≤ 'f') || ('A' ≤ c && c ≤ 'F')

/-- The length of an integer, 0 if there is none. -/
def integerLength (text : List Char) : Nat :=
  let based := match text with
    | '0' :: x :: rest =>
      let digits :=
        if x = 'x' || x = 'X' then prefixedDigits isHexDigit rest
        else if x = 'o' || x = 'O' then prefixedDigits (fun c => '0' ≤ c && c ≤ '7') rest
        else if x = 'b' || x = 'B' then prefixedDigits (fun c => c = '0' || c = '1') rest
        else 0
      if digits = 0 then 0 else 2 + digits + letterLength "Ll" (rest.drop digits)
    | _ => 0
  if based ≠ 0 then based
  else
    let digits := groupedDigits text
    if digits = 0 then 0 else digits + letterLength "LljJ" (text.drop digits)

/-- The length of a number with a point or an exponent, 0 if there is none. -/
def floatLength (text : List Char) : Nat :=
  let whole := groupedDigits text
  let rest := text.drop whole
  let body :=
    match rest with
    | '.' :: more =>
      let fraction := groupedDigits more
      if whole = 0 && fraction = 0 then 0
      else whole + 1 + fraction + exponentLength (more.drop fraction)
    | _ =>
      let exponent := exponentLength rest
      if whole = 0 || exponent = 0 then 0 else whole + exponent
  if body = 0 then 0 else body + letterLength "jJ" (text.drop body)

/-- The length of a backslash with what it escapes, 0 if it escapes nothing. -/
def escapeLength : List Char → Nat
  | '\\' :: rest =>
    let hex := fun (n : Nat) (digits : List Char) =>
      if (digits.take n).length = n && (digits.take n).all isHexDigit then n + 2 else 0
    match rest with
    | 'u' :: more => hex 4 more
    | 'U' :: more => hex 8 more
    | 'x' :: more => hex 2 more
    | '\r' :: '\n' :: _ => 3
    | '\n' :: _ => 2
    | 'N' :: '{' :: more =>
      let name := more.takeWhile (· ≠ '}')
      if name.isEmpty || name.length = more.length then 0 else name.length + 4
    | c :: _ =>
      if "'\"abfrntv\\".contains c then 2
      else if (rest.take 3).length = 3 && (rest.take 3).all Char.isDigit then 4
      else 0
    | [] => 0
  | _ => 0

/-- The longest mark at the start of a text that can be used. -/
def readMark (text : List Char) (expects : Token → Bool) : Option (Token × Nat) :=
  [3, 2, 1].findSome? fun n =>
    let spelling := text.take n
    let t := Token.mark (String.ofList spelling)
    if spelling.length = n && expects t then some (t, n) else none

/-- The token at the start of a text without white space, with its length. -/
def readPlain (text : List Char) (expects : Token → Bool) : Option (Token × Nat) :=
  match text with
  | [] => if expects .finish then some (.finish, 0) else none
  | '#' :: rest => some (.comment, 1 + (rest.takeWhile (· ≠ '\n')).length)
  | '\\' :: '\n' :: _ => some (.continuation, 2)
  | '\\' :: '\r' :: '\n' :: _ => some (.continuation, 3)
  | '\\' :: '\x00' :: _ => some (.continuation, 2)
  | c :: rest =>
    if isIdentifierStart c then
      let name := c :: rest.takeWhile isIdentifierPart
      let spelling := String.ofList name
      if spelling = "except" && (rest.drop 5).head? = some '*' && expects (.mark "except*") then
        some (.mark "except*", 7)
      else if expects (.word spelling) then some (.word spelling, name.length)
      else if expects .identifier then some (.identifier, name.length)
      else none
    else
      let float := if expects .float then floatLength text else 0
      let integer := if expects .integer then integerLength text else 0
      let conversion := c = '!' && (rest.head?.map Char.isLower).getD false && expects .conversion
      let mark := readMark text expects
      if conversion then some (.conversion, 2)
      else if integer < float then
        match mark with
        | some (t, n) => if float < n then some (t, n) else some (.float, float)
        | none => some (.float, float)
      else if integer ≠ 0 then some (.integer, integer)
      else mark

/-- The next token that is neither line structure nor the inside of a string,
except for what a backslash or a format specification holds. -/
def readToken (c : Cursor) (expects : Token → Bool) : Option (Lexeme Token Cursor) :=
  let atOnce : Option (Token × Nat) :=
    if expects .escape && escapeLength c.rest ≠ 0 then some (.escape, escapeLength c.rest)
    else if expects .backslash && c.rest.head? = some '\\' && c.rest.tail.head? ≠ some '\x00' then
      some (.backslash, 1)
    else none
  match atOnce with
  | some (t, n) => some (c.token t n)
  | none =>
    let line := c.skip (c.rest.takeWhile (· = '\n')).length
    let format := if expects .formatText then
      (line.rest.takeWhile fun x => x ≠ '{' && x ≠ '}' && x ≠ '\n').length else 0
    if format ≠ 0 then some (line.token .formatText format)
    else
      let start := c.skip (c.rest.takeWhile isSpace).length
      (readPlain start.rest expects).map fun (t, n) => start.token t n

def readNext (c : Cursor) (expects : Token → Bool) : Option (Lexeme Token Cursor) :=
  match c.quotes with
  | q :: outer =>
    if expects .doubledBrace && q.format &&
        (c.rest.head? = some '{' || c.rest.head? = some '}') then
      if c.rest.tail.head? = c.rest.head? then some (c.token .doubledBrace 2)
      else readToken c expects
    else if expects .stringText then
      match scanString q false 0 0 c.rest with
      | .text n => some (c.token .stringText n)
      | .close n =>
        let closed := c.token .stringEnd n
        some { closed with cursor := { closed.cursor with quotes := outer, inFormat := false } }
      | .nothing => readToken c expects
    else (readLayout c expects).or (readToken c expects)
  | [] => (readLayout c expects).or (readToken c expects)

def lexer : Lexer Token Cursor where
  next := readNext
  mark c := c.mark
  kind := Token.kind
  extra := Token.isExtra
  same c d :=
    c.mark = d.mark && c.indents = d.indents && c.quotes = d.quotes && c.inFormat = d.inFormat

end CodeAtlas.Python
