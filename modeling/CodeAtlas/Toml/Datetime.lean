import CodeAtlas.Toml.Number

/-!
Reading TOML dates and times.

Their canonical form has a `T` between date and time, at most nine digits
behind the point of a second and none of them a zero at the end, and a `Z` or
hours and minutes for the zone.
-/
namespace CodeAtlas.Toml

/-- Read a number of exactly two digits that is at most so large. -/
def twoDigits (most : Nat) : Reader Nat
  | a :: b :: rest =>
    if isDigit a && isDigit b && numberOf 10 [a, b] ≤ most then some (numberOf 10 [a, b], rest)
    else none
  | _ => none

/-- A number with two digits at least. -/
def padded (n : Nat) : String := if n < 10 then "0" ++ toString n else toString n

def isLeapYear (year : Nat) : Bool := year % 4 = 0 && (year % 100 ≠ 0 || year % 400 = 0)

def daysIn (year month : Nat) : Nat :=
  if month = 2 then if isLeapYear year then 29 else 28
  else if month = 4 || month = 6 || month = 9 || month = 11 then 30
  else 31

def expect (c : Char) : List Char → Option (List Char)
  | d :: rest => if d = c then some rest else none
  | [] => none

def date : Reader String
  | a :: b :: c :: d :: rest => do
    if [a, b, c, d].all isDigit then
      let (month, rest) ← twoDigits 12 (← expect '-' rest)
      let (day, rest) ← twoDigits (daysIn (numberOf 10 [a, b, c, d]) month) (← expect '-' rest)
      if month = 0 || day = 0 then none
      else some (String.ofList [a, b, c, d] ++ "-" ++ padded month ++ "-" ++ padded day, rest)
    else none
  | _ => none

/-- Read the digits behind the point of a second. -/
def secondFraction : List Char → Option (String × List Char)
  | '.' :: rest =>
    let digits := rest.takeWhile isDigit
    let kept := ((digits.take 9).reverse.dropWhile (· = '0')).reverse
    if digits = [] then none
    else some (if kept = [] then "" else "." ++ String.ofList kept, rest.dropWhile isDigit)
  | rest => some ("", rest)

def timeOfDay : Reader String := fun cs => do
  let (hour, rest) ← twoDigits 23 cs
  let (minute, rest) ← twoDigits 59 (← expect ':' rest)
  let (second, rest) ← twoDigits 60 (← expect ':' rest)
  let (fraction, rest) ← secondFraction rest
  some (padded hour ++ ":" ++ padded minute ++ ":" ++ padded second ++ fraction, rest)

def zone : Reader String
  | c :: rest =>
    if c = 'Z' || c = 'z' then some ("Z", rest)
    else if c = '+' || c = '-' then do
      let (hour, rest) ← twoDigits 23 rest
      let (minute, rest) ← twoDigits 59 (← expect ':' rest)
      let sign := if c = '-' && (hour ≠ 0 || minute ≠ 0) then "-" else "+"
      some (sign ++ padded hour ++ ":" ++ padded minute, rest)
    else some ("", c :: rest)
  | [] => some ("", [])

/-- Read the time behind a date, with a zone if there is one. -/
def timeBehindDate : Reader String
  | c :: rest =>
    if c = 'T' || c = 't' || c = ' ' then do
      let (time, rest) ← timeOfDay rest
      let (zone, rest) ← zone rest
      some ("T" ++ time ++ zone, rest)
    else none
  | [] => none

def datetime : Reader String := fun cs =>
  match date cs with
  | some (day, rest) =>
    match timeBehindDate rest with
    | some (time, rest) => some (day ++ time, rest)
    | none => some (day, rest)
  | none => timeOfDay cs

end CodeAtlas.Toml
