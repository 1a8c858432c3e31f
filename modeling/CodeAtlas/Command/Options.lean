import CodeAtlas.Text.Split

/-!
Reading options and operands from the words of a command line.

A long option is a word behind two dashes, a short one a letter behind a single
dash. Short ones can share a word. A value follows in the next word, behind an
equals sign or directly behind the letter. Every option is given once at most.
-/
namespace CodeAtlas.Command

inductive OptionKind where
  | switch
  | text
  /-- A path, which is not empty. -/
  | path
  /-- Nothing: the option asks for the version, and all behind it is left
  unread. -/
  | version
  deriving DecidableEq, Repr, Inhabited

structure OptionSpec where
  long : String
  short : Option Char := none
  kind : OptionKind
  deriving DecidableEq, Repr, Inhabited

/-- What may stand on a command line up to the name of a command, or behind one. -/
structure Level where
  options : List OptionSpec
  /-- The names of paths that stand there without an option. -/
  operands : List String := []
  commands : List String := []
  deriving DecidableEq, Repr, Inhabited

inductive Refusal where
  | usage
  | version
  deriving DecidableEq, Repr, Inhabited

/-- The values given for options and operands, by their names. -/
abbrev Given := List (String × String)

namespace Given

def value? (g : Given) (name : String) : Option String := g.lookup name

def has (g : Given) (name : String) : Bool := (g.value? name).isSome

/-- Give a value for a name that has none. -/
def add (g : Given) (name : String) (kind : OptionKind) (value : String) : Except Refusal Given :=
  if g.has name || (kind = .path && value = "") then .error .usage else .ok ((name, value) :: g)

end Given

namespace Level

/-- Read the letters behind a dash. The last of them may be an option that
still needs a value. -/
def letters (l : Level) (g : Given) : List Char → Except Refusal (Given × Option OptionSpec)
  | [] => .ok (g, none)
  | c :: rest =>
    match l.options.find? (·.short = some c) with
    | none => .error .usage
    | some o =>
      match o.kind, rest with
      | .version, _ => .error .version
      | .switch, rest => do l.letters (← g.add o.long .switch "") rest
      | _, [] => .ok (g, some o)
      | kind, '=' :: value => do return (← g.add o.long kind (String.ofList value), none)
      | kind, value => do return (← g.add o.long kind (String.ofList value), none)

/-- Read a word behind two dashes. It may be an option that still needs a
value. -/
def longOption (l : Level) (g : Given) (word : List Char) :
    Except Refusal (Given × Option OptionSpec) :=
  match l.options.find? (·.long.toList = word.takeWhile (· ≠ '=')) with
  | none => .error .usage
  | some o =>
    match o.kind, word.dropWhile (· ≠ '=') with
    | .version, [] => .error .version
    | .switch, [] => do return (← g.add o.long .switch "", none)
    | .version, _ | .switch, _ => .error .usage
    | _, [] => .ok (g, some o)
    | kind, _ :: value => do return (← g.add o.long kind (String.ofList value), none)

/-- Whether a word starts with a dash and is not only a dash. -/
def isOption (word : String) : Bool := Text.startsWith word "-" && word ≠ "-"

def operand (l : Level) (g : Given) (word : String) : Except Refusal Given :=
  match l.operands.find? (!g.has ·) with
  | some name => g.add name .path word
  | none => .error .usage

def option (l : Level) (g : Given) (word : String) : Except Refusal (Given × Option OptionSpec) :=
  match word.toList with
  | '-' :: '-' :: long => l.longOption g long
  | '-' :: short => l.letters g short
  | _ => .error .usage

/-- Read words up to the name of a command, which is left with the words behind
it. Behind two dashes there are only operands. -/
def read (l : Level) (g : Given) : List String → Except Refusal (Given × List String)
  | [] => .ok (g, [])
  | word :: rest =>
    if l.commands.contains word then .ok (g, word :: rest)
    else if word = "--" then do return (← rest.foldlM l.operand g, [])
    else if isOption word then
      match l.option g word, rest with
      | .error refusal, _ => .error refusal
      | .ok (g, none), rest => l.read g rest
      | .ok (_, some _), [] => .error .usage
      | .ok (g, some o), value :: rest =>
        if isOption value then .error .usage
        else
          match g.add o.long o.kind value with
          | .error refusal => .error refusal
          | .ok g => l.read g rest
    else
      match l.operand g word with
      | .error refusal => .error refusal
      | .ok g => l.read g rest

end Level

end CodeAtlas.Command
