import CodeAtlas.Text.CharSet
import CodeAtlas.Toml.Gap
import CodeAtlas.Toml.Value

/-!
Reading TOML numbers.

Integers have 64 bits with a sign. Of a float only its text is kept, but one
that is too large for a double is refused.
-/
namespace CodeAtlas.Toml

def isDigit (c : Char) : Bool := '0' ≤ c && c ≤ '9'

/-- Read digits as far as they go; there may be single underscores between
them, which are dropped. -/
def moreDigits (ok : Char → Bool) : List Char → List Char × List Char
  | [] => ([], [])
  | '_' :: c :: rest =>
    if ok c then
      let (digits, rest) := moreDigits ok rest
      (c :: digits, rest)
    else ([], '_' :: c :: rest)
  | c :: rest =>
    if ok c then
      let (digits, rest) := moreDigits ok rest
      (c :: digits, rest)
    else ([], c :: rest)

def someDigits (ok : Char → Bool) : Reader (List Char)
  | [] => none
  | c :: rest =>
    if ok c then
      let (digits, rest) := moreDigits ok rest
      some (c :: digits, rest)
    else none

/-- Read a decimal number without a sign: a zero, or digits that do not start
with one. -/
def decimalDigits : Reader (List Char)
  | '0' :: rest => some (['0'], rest)
  | cs => someDigits isDigit cs

/-- Read a sign: whether it is a minus. -/
def takeSign : List Char → Bool × List Char
  | '-' :: rest => (true, rest)
  | '+' :: rest => (false, rest)
  | cs => (false, cs)

def numberOf (base : Nat) (digits : List Char) : Nat :=
  digits.foldl (fun n c => base * n + Text.hexValue c) 0

def maxInteger : Nat := Nat.pow 2 63 - 1

/-- Read the digits of an integer in a base. -/
def basedInteger (base : Nat) (ok : Char → Bool) (cs : List Char) : Option (Int × List Char) := do
  let (digits, rest) ← someDigits ok cs
  let number := numberOf base digits
  if number ≤ maxInteger then some (number, rest) else none

def integer : Reader Int
  | '0' :: 'x' :: rest =>
    basedInteger 16 (fun c => isDigit c || ('a' ≤ c && c ≤ 'f') || ('A' ≤ c && c ≤ 'F')) rest
  | '0' :: 'o' :: rest => basedInteger 8 (fun c => '0' ≤ c && c ≤ '7') rest
  | '0' :: 'b' :: rest => basedInteger 2 (fun c => c = '0' || c = '1') rest
  | cs => do
    let (isNegative, cs) := takeSign cs
    let (digits, rest) ← decimalDigits cs
    let number := numberOf 10 digits
    if isNegative then
      if number ≤ maxInteger + 1 then some (-number, rest) else none
    else if number ≤ maxInteger then some (number, rest)
    else none

def exponent : Reader Int
  | c :: rest =>
    if c = 'e' || c = 'E' then do
      let (isNegative, cs) := takeSign rest
      let (digits, rest) ← someDigits isDigit cs
      let number : Int := numberOf 10 digits
      some (if isNegative then -number else number, rest)
    else none
  | [] => none

/-- Read what makes a number a float: an exponent, or digits behind a point and
maybe an exponent. -/
def fraction : Reader (List Char × Int)
  | '.' :: rest => do
    let (digits, rest) ← someDigits isDigit rest
    match exponent rest with
    | some (power, rest) => some ((digits, power), rest)
    | none => some ((digits, 0), rest)
  | cs => (exponent cs).map fun (power, rest) => (([], power), rest)

/-- Whether a decimal number, given by its digits and a power of ten, is beyond
all doubles. A number is if it is not less than the middle between the greatest
double and the next power of two. -/
def isBeyondDoubles (digits : List Char) (power : Int) : Bool :=
  let number := numberOf 10 digits
  if number = 0 then false
  else if digits.length + power < 300 then false
  else if (toString number).length + power > 310 then true
  else
    let limit := Nat.pow 2 1024 - Nat.pow 2 970
    if 0 ≤ power then limit ≤ number * Nat.pow 10 power.toNat
    else limit * Nat.pow 10 (-power).toNat ≤ number

/-- The part of a text that stands before a rest of it. -/
def textBefore (cs rest : List Char) : String := String.ofList (cs.take (cs.length - rest.length))

def float : Reader String := fun cs =>
  let (isNegative, body) := takeSign cs
  match body with
  | 'i' :: 'n' :: 'f' :: rest => some (textBefore cs rest, rest)
  | 'n' :: 'a' :: 'n' :: rest => some (textBefore cs rest, rest)
  | _ => do
    let (whole, rest) ← decimalDigits body
    let ((behind, power), rest) ← fraction rest
    if !isNegative && isBeyondDoubles (whole ++ behind) (power - behind.length) then none
    else some (textBefore cs rest, rest)

end CodeAtlas.Toml
