import CodeAtlas.Command.Options
import CodeAtlas.Engine.Run

/-!
The commands and their options.
-/
namespace CodeAtlas.Command

inductive Task where
  /-- Write a report, to a file or to the output. -/
  | analyze (request : Request) (output : Option String) (isCompact : Bool)
  | stats (request : Request)
  | init (directory : Option String)
  deriving DecidableEq, Repr, Inhabited

structure Invocation where
  isVerbose : Bool := false
  config : Option String := none
  task : Task
  deriving DecidableEq, Repr, Inhabited

/-- The options that may stand before and behind the name of a command. -/
def sharedOptions : List OptionSpec := [⟨"config", some 'c', .path⟩, ⟨"verbose", some 'v', .switch⟩]

/-- The options that select files. -/
def patternOptions : List OptionSpec := [⟨"include", none, .text⟩, ⟨"exclude", none, .text⟩]

def topLevel : Level where
  options := sharedOptions ++ [⟨"version", some 'V', .version⟩]
  commands := ["analyze", "stats", "init"]

def analyzeLevel : Level where
  options :=
    sharedOptions ++ patternOptions ++ [⟨"output", some 'o', .path⟩, ⟨"compact", none, .switch⟩]
  operands := ["root"]

def statsLevel : Level where
  options := sharedOptions ++ patternOptions
  operands := ["root"]

def initLevel : Level where
  options := sharedOptions ++ [⟨"path", some 'p', .path⟩]

def readCommand (l : Level) (words : List String) : Except Refusal Given := do
  let (g, _) ← l.read [] words
  if l.operands.all g.has then return g else .error .usage

def Given.request (g : Given) : Request :=
  ⟨(g.value? "root").getD "", g.value? "include", g.value? "exclude"⟩

/-- The task of a command with what is given for it. -/
def readTask (name : String) (words : List String) : Except Refusal (Given × Task) := do
  match name with
  | "analyze" =>
    let g ← readCommand analyzeLevel words
    return (g, .analyze g.request (g.value? "output") (g.has "compact"))
  | "stats" =>
    let g ← readCommand statsLevel words
    return (g, .stats g.request)
  | "init" =>
    let g ← readCommand initLevel words
    return (g, .init (g.value? "path"))
  | _ => .error .usage

/-- Read a command line. Of two paths of settings the one behind the name of
the command counts. -/
def Invocation.ofWords (words : List String) : Except Refusal Invocation := do
  match ← topLevel.read [] words with
  | (_, []) => .error .usage
  | (before, name :: rest) =>
    let (behind, task) ← readTask name rest
    return {
      isVerbose := before.has "verbose" || behind.has "verbose"
      config := behind.value? "config" <|> before.value? "config"
      task }

def versionText : String := "codecard 0.1.0"

end CodeAtlas.Command
