/-!
Patterns for paths.

`?` is one byte, `*` any run of bytes, `[a-z]` a set, `{a,b}` a choice, and
`**` between slashes any number of directories. A pattern is read into tokens;
matching goes through the tokens and keeps track of all places of the path that
the tokens so far can end at.
-/
namespace CodeAtlas

inductive GlobError where
  | unclosedClass
  | invalidRange (first last : Char)
  | unopenedAlternates
  | unclosedAlternates
  | danglingEscape
  deriving DecidableEq, Repr, Inhabited

def GlobError.message : GlobError → String
  | .unclosedClass => "unclosed character class; missing ']'"
  | .invalidRange first last => s!"invalid range; '{first}' > '{last}'"
  | .unopenedAlternates =>
    "unopened alternate group; missing '\x7b' (maybe escape '\x7d' with '[\x7d]'?)"
  | .unclosedAlternates =>
    "unclosed alternate group; missing '\x7d' (maybe escape '\x7b' with '[\x7b]'?)"
  | .danglingEscape => "dangling '\\'"

namespace Glob

structure ClassSpec where
  negated : Bool
  ranges : List (Char × Char)
  deriving DecidableEq, Repr, Inhabited

/-- The parts a pattern is read into first. -/
inductive Lexeme where
  | char (c : Char)
  | escaped (c : Char)
  | question
  | star
  | openGroup
  | closeGroup
  | comma
  | set (spec : ClassSpec)
  /-- The place where the pattern is wrong; nothing follows it. -/
  | fault (e : GlobError)
  deriving DecidableEq, Repr, Inhabited

inductive LexState where
  | outside
  | escape
  | classStart
  /-- Behind the bracket and a mark of negation; `negated` if there is one. -/
  | classFirst (negated : Bool)
  /-- In a set. The ranges are in reverse order; `open_` if a dash waits for
  the end of its range. -/
  | classMore (negated : Bool) (ranges : List (Char × Char)) (open_ : Bool)
  deriving Repr, Inhabited

/-- The part that one character outside of sets makes; a bracket and a
backslash only start one. -/
def Lexeme.ofChar (c : Char) : Lexeme :=
  match c with
  | '?' => .question
  | '*' => .star
  | '\x7b' => .openGroup
  | '\x7d' => .closeGroup
  | ',' => .comma
  | c => .char c

def lex : LexState → List Char → List Lexeme
  | .outside, [] => []
  | .escape, [] => [.fault .danglingEscape]
  | _, [] => [.fault .unclosedClass]
  | .outside, c :: rest =>
    if c = '\\' then lex .escape rest
    else if c = '[' then lex .classStart rest
    else .ofChar c :: lex .outside rest
  | .escape, c :: rest => .escaped c :: lex .outside rest
  | .classStart, c :: rest =>
    if c = '!' ∨ c = '^' then lex (.classFirst true) rest
    else lex (.classMore false [(c, c)] false) rest
  | .classFirst negated, c :: rest => lex (.classMore negated [(c, c)] false) rest
  | .classMore negated ranges open_, c :: rest =>
    if c = ']' then
      .set ⟨negated, if open_ then ('-', '-') :: ranges else ranges⟩ :: lex .outside rest
    else if open_ then
      match ranges with
      | (first, _) :: more =>
        if c < first then [.fault (.invalidRange first c)]
        else lex (.classMore negated ((first, c) :: more) false) rest
      | [] => lex (.classMore negated [(c, c)] false) rest
    else if c = '-' then lex (.classMore negated ranges true) rest
    else lex (.classMore negated ((c, c) :: ranges) false) rest

inductive Token where
  | literal (c : Char)
  | any
  | anyRun
  /-- Any number of directories in front of what follows. -/
  | dirsBefore
  /-- Everything below what comes before. -/
  | dirsAfter
  /-- A slash, or any number of directories between slashes. -/
  | dirsBetween
  | set (spec : ClassSpec)
  | alternates (branches : List (List Token))
  deriving Repr, Inhabited

/-- Where reading tokens has got to. All lists are in reverse order. -/
structure Reading where
  current : List Token
  /-- For every open group, the inner ones first: its finished branches, and
  the tokens in front of it. -/
  groups : List (List (List Token) × List Token)
  deriving Inhabited

namespace Reading

def push (r : Reading) (t : Token) : Reading := { r with current := t :: r.current }

def openGroup (r : Reading) : Reading := { current := [], groups := ([], r.current) :: r.groups }

/-- A comma starts a new branch in a group, and is a comma elsewhere. -/
def comma (r : Reading) : Reading :=
  match r.groups with
  | [] => r.push (.literal ',')
  | (done, before) :: outer =>
    { current := [], groups := (r.current.reverse :: done, before) :: outer }

def closeGroup (r : Reading) : Except GlobError Reading :=
  match r.groups with
  | [] => .error .unopenedAlternates
  | (done, before) :: outer =>
    .ok { current := .alternates (r.current.reverse :: done).reverse :: before, groups := outer }

def isOpen (r : Reading) : Bool := !r.groups.isEmpty

/-- Put directories in the place of the last token, unless that stands for
directories already. -/
def pushDirs (r : Reading) (t : Token) : Reading :=
  match r.current with
  | .dirsBefore :: _ | .dirsAfter :: _ => r
  | _ :: before => { r with current := t :: before }
  | [] => r.push t

end Reading

def canBeDirs (r : Reading) (previous : Option Char) : Bool :=
  previous = some '/' || (r.isOpen && (previous = some ',' || previous = some '\x7b'))

/-- Read tokens from parts, of which `previous` is the last character before. -/
def readTokens : Reading → Option Char → List Lexeme → Except GlobError (List Token)
  | r, _, [] => if r.isOpen then .error .unclosedAlternates else .ok r.current.reverse
  | _, _, .fault e :: _ => .error e
  | r, _, .char c :: rest => readTokens (r.push (.literal c)) (some c) rest
  | r, _, .escaped c :: rest => readTokens (r.push (.literal c)) (some c) rest
  | r, _, .question :: rest => readTokens (r.push .any) (some '?') rest
  | r, _, .set spec :: rest => readTokens (r.push (.set spec)) (some ']') rest
  | r, _, .openGroup :: rest => readTokens r.openGroup (some '\x7b') rest
  | r, _, .comma :: rest => readTokens r.comma (some ',') rest
  | r, _, .closeGroup :: rest => do readTokens (← r.closeGroup) (some '\x7d') rest
  | r, previous, .star :: .star :: .char '/' :: rest =>
    if r.current.isEmpty then readTokens (r.push .dirsBefore) (some '/') rest
    else if canBeDirs r previous then readTokens (r.pushDirs .dirsBetween) (some '/') rest
    else readTokens (((r.push .anyRun).push .anyRun).push (.literal '/')) (some '/') rest
  | r, previous, .star :: .star :: rest =>
    if r.current.isEmpty then
      if rest.isEmpty then readTokens (r.push .dirsBefore) (some '*') rest
      else readTokens ((r.push .anyRun).push .anyRun) (some '*') rest
    else
      let ends :=
        rest.isEmpty || (r.isOpen && (rest.head? = some .comma || rest.head? = some .closeGroup))
      if canBeDirs r previous && ends then readTokens (r.pushDirs .dirsAfter) (some '*') rest
      else readTokens ((r.push .anyRun).push .anyRun) (some '*') rest
  | r, _, .star :: rest => readTokens (r.push .anyRun) (some '*') rest

end Glob

structure Glob where
  tokens : List Glob.Token
  deriving Repr, Inhabited

namespace Glob

def parse (pattern : String) : Except GlobError Glob :=
  (readTokens ⟨[], []⟩ none (lex .outside pattern.toList)).map (⟨·⟩)

/-! ## Matching

Places of a path are marked in a list that has one element more than the path
has bytes. -/

/-- The places one byte behind the marked ones, if that byte satisfies `ok`. -/
def one (ok : UInt8 → Bool) (text : List UInt8) (marks : List Bool) : List Bool :=
  false :: List.zipWith (fun b m => m && ok b) text marks

/-- All places that a run of bytes that satisfy `ok` leads to; `here` if it
leads to the first. -/
def runFrom (ok : UInt8 → Bool) (here : Bool) : List UInt8 → List Bool → List Bool
  | b :: text, m :: marks => (here || m) :: runFrom ok ((here || m) && ok b) text marks
  | [], m :: _ => [here || m]
  | _, [] => []

def run (ok : UInt8 → Bool) (text : List UInt8) (marks : List Bool) : List Bool :=
  runFrom ok false text marks

def slash : UInt8 := 47

def isSlash (b : UInt8) : Bool := b == slash

def either (a b : List Bool) : List Bool := List.zipWith (· || ·) a b

def throughSlash (text : List UInt8) (marks : List Bool) : List Bool :=
  one isSlash text (run (fun _ => true) text marks)

def bytesOf (c : Char) : List UInt8 := (String.ofList [c]).toUTF8.toList

/-- Whether a byte is in a range. A range between characters of several bytes
is between the last byte of the one and the first byte of the other, and has
the other bytes in it too. -/
def inRange (b : UInt8) (range : Char × Char) : Bool :=
  let first := bytesOf range.1
  let last := bytesOf range.2
  if range.1 = range.2 then first.contains b
  else
    first.dropLast.contains b || (first.getLastD 0 ≤ b && b ≤ last.headD 0) ||
      (last.drop 1).contains b

def ClassSpec.contains (spec : ClassSpec) (b : UInt8) : Bool :=
  spec.ranges.any (inRange b) != spec.negated

mutual

/-- Whether a token says nothing about the path. -/
def Token.isVoid : Token → Bool
  | .alternates branches => allVoid branches
  | _ => false

def voidTokens : List Token → Bool
  | [] => true
  | t :: rest => t.isVoid && voidTokens rest

def allVoid : List (List Token) → Bool
  | [] => true
  | b :: rest => voidTokens b && allVoid rest

end

/-- What `?` and `*` match: not a slash if `strict`. -/
def wild (strict : Bool) (b : UInt8) : Bool := !(strict && isSlash b)

mutual

def Token.step (strict : Bool) (text : List UInt8) (marks : List Bool) : Token → List Bool
  | .literal c => (bytesOf c).foldl (fun marks b => one (· == b) text marks) marks
  | .any => one (wild strict) text marks
  | .anyRun => run (wild strict) text marks
  | .dirsBefore => either marks (throughSlash text marks)
  | .dirsAfter => run (fun _ => true) text (one isSlash text marks)
  | .dirsBetween =>
    let slashed := one isSlash text marks
    either slashed (throughSlash text slashed)
  | .set spec => one spec.contains text marks
  | .alternates branches =>
    if allVoid branches then marks else branchSteps strict text marks branches

def steps (strict : Bool) (text : List UInt8) (marks : List Bool) : List Token → List Bool
  | [] => marks
  | t :: rest => steps strict text (t.step strict text marks) rest

/-- The places that any branch leads to; a branch that says nothing does not
count. -/
def branchSteps (strict : Bool) (text : List UInt8) (marks : List Bool) :
    List (List Token) → List Bool
  | [] => marks.map fun _ => false
  | b :: rest =>
    let others := branchSteps strict text marks rest
    if voidTokens b then others else either (steps strict text marks b) others

end

def matchesBytes (strict : Bool) (tokens : List Token) (text : List UInt8) : Bool :=
  match tokens with
  | [.dirsBefore] => true
  | tokens => (steps strict text (true :: text.map fun _ => false) tokens).getLastD false

/-- Whether the pattern matches a whole path, where `?` and `*` may match
slashes. -/
def isMatch (g : Glob) (path : String) : Bool := matchesBytes false g.tokens path.toUTF8.toList

end Glob

end CodeAtlas
