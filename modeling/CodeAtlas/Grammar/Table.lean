import CodeAtlas.Grammar.Item
import CodeAtlas.Grammar.Automaton

/-!
The LR(1) automaton of a grammar.

A state is a set of items, each with the tokens that may follow its rule there.
Where reading on and finishing a rule are both possible, precedence
decides; where it is silent, the way the finished rules group decides; where
that is silent too, both are kept and the parser follows both.
-/
namespace CodeAtlas.Grammar

/-- Items with their follow tokens, by ascending item number. -/
abbrev Entries := List (Nat × TokenSet)

namespace Entries

def insert (item : Nat) (follow : TokenSet) : Entries → Entries
  | [] => [(item, follow)]
  | e :: rest =>
    if item < e.1 then (item, follow) :: e :: rest
    else if item = e.1 then (item, follow ||| e.2) :: rest
    else e :: insert item follow rest

/-- Place `x` among `ys`, with `xs` behind it; `rest` joins what comes behind `x`. -/
def place (x : Nat × TokenSet) (rest : Entries → Entries) (xs : Entries) : Entries → Entries
  | [] => x :: xs
  | y :: ys =>
    if x.1 < y.1 then x :: rest (y :: ys)
    else if y.1 < x.1 then y :: place x rest xs ys
    else (x.1, x.2 ||| y.2) :: rest ys

/-- All items of both, with the follow tokens of both. -/
def union : Entries → Entries → Entries
  | [], ys => ys
  | x :: xs, ys => place x (union xs) xs ys

end Entries

/-- A numbered grammar with what the item sets are computed from. -/
structure Analysis (τ : Type) where
  grammar : Numbered τ
  /-- By rule: the tokens it can start with. -/
  starts : Array TokenSet
  /-- By rule: the items that open where it is expected. -/
  openings : Array (List Numbered.Opening)

def Numbered.analysis {τ : Type} (g : Numbered τ) : Analysis τ :=
  let starts := g.starts
  { grammar := g, starts, openings := ((List.range g.rules.size).map (g.openings starts)).toArray }

namespace Analysis
variable {τ : Type} (a : Analysis τ)

def item (i : Nat) : Item := a.grammar.items.getD i default

/-- All items of the state whose entries after the last symbol are `kernel`. -/
def closure (kernel : Entries) : Entries :=
  kernel.foldl (fun all (i, follow) =>
    let item := a.item i
    match item.next.bind a.grammar.rule? with
    | none => all
    | some rule =>
      let after := match item.second with
        | none => follow
        | some s => a.grammar.startsOf a.starts s
      all.union ((a.openings.getD rule []).map fun o =>
        (o.item, if o.inherits then o.follow ||| after else o.follow))) kernel

/-- The finished items that a token lets reduce: those of the highest
precedence, in order, with that precedence and how they group, and all of them. -/
structure Finished where
  items : List Item
  prec : Int
  assocs : List (Option Assoc)
  all : List Item

def Finished.add (f : Finished) (item : Item) : Finished :=
  let all := item :: f.all
  if f.items.isEmpty || f.prec < item.prec then
    { items := [item], prec := item.prec, assocs := [item.assoc], all }
  else if item.prec = f.prec then
    { f with items := f.items ++ [item], assocs := item.assoc :: f.assocs, all }
  else { f with all }

def finishedEntries (all : Entries) : Entries :=
  all.filter fun (i, _) => (a.item i).next.isNone

/-- What `token` lets reduce, of finished entries. -/
def finished (entries : Entries) (token : Nat) : Finished :=
  entries.foldl (fun f (i, follow) => if follow.testBit token then f.add (a.item i) else f)
    ⟨[], 0, [], []⟩

/-- The items under way that read on with `token`. -/
def readingOn (all : Entries) (token : Nat) : List Item :=
  all.filterMap fun (i, _) =>
    let item := a.item i
    match item.next with
    | some s =>
      if 0 < item.dot && (a.grammar.startsOf a.starts s).testBit token then some item else none
    | none => none

/-- Whether an item belongs to a rule made for a repetition. -/
def auxiliary (item : Item) : Bool :=
  match a.grammar.rules[item.lhs]? with
  | some r => r.auxiliary
  | none => false

/-- Whether to reduce and whether to read on when both are possible. -/
def settle (all : Entries) (token : Nat) (f : Finished) : Bool × Bool :=
  let shifts := a.readingOn all token
  let rivals := (shifts ++ f.all).filter (·.lhs != a.grammar.entryRule)
  let oneRepetition := match rivals with
    | [] => false
    | r :: _ => a.auxiliary r && rivals.all (·.lhs = r.lhs)
  let above := shifts.any fun i => f.prec < i.prec
  let below := shifts.any fun i => i.prec < f.prec
  if oneRepetition then (true, false)
  else if above && !below then (false, true)
  else if below && !above then (true, false)
  else if above && below then (true, true)
  else if f.assocs.all (· = some .left) then (true, false)
  else if f.assocs.all (· = some .right) then (false, true)
  else (true, true)

/-- The actions on `token` in a state with items `all`, of which `done` are
finished, when reading it leads to `next`. -/
def actionsOn (all done : Entries) (token : Nat) (next : Option Nat) : List (Action Nat) :=
  let f := a.finished done token
  let reduces := f.items.map fun item =>
    if item.lhs = a.grammar.entryRule then .accept else .reduce item.alternative
  match next with
  | none => reduces
  | some state =>
    if reduces.isEmpty then [.shift state]
    else
      let (reduce, shift) := a.settle all token f
      (if reduce then reduces else []) ++ (if shift then [.shift state] else [])

/-- By symbol: the kernel of the state after reading it. -/
def successors (all : Entries) : Array Entries :=
  all.foldl (fun buckets (i, follow) =>
    let item := a.item i
    match item.next with
    | none => buckets
    | some s => buckets.modify s (Entries.insert item.advanced follow))
    (Array.replicate (a.grammar.tokens.size + a.grammar.rules.size) [])

/-- The kernel of the start state: the entry, followed by the end of the text. -/
def startKernel : Entries :=
  match a.grammar.places[a.grammar.alternatives.size - 1]? with
  | some places => [(places.getD 0 0, 1)]
  | none => []

end Analysis

/-- A state of the table: actions by token and next states by rule. -/
structure Row where
  actions : Array (List (Action Nat))
  gotos : Array (Option Nat)
  deriving Inhabited

/-- A table under construction: finished rows, and the kernels of all states
known so far. -/
structure Draft where
  rows : Array Row
  kernels : Array Entries
  numbers : Std.HashMap Entries Nat

/-- The number of a state, new or known; none for the empty kernel. -/
def Draft.number (d : Draft) (kernel : Entries) : Draft × Option Nat :=
  if kernel.isEmpty then (d, none)
  else match d.numbers[kernel]? with
    | some n => (d, some n)
    | none =>
      ({ d with
          kernels := d.kernels.push kernel
          numbers := d.numbers.insert kernel d.kernels.size },
        some d.kernels.size)

def Draft.grow {τ : Type} (d : Draft) (a : Analysis τ) (kernel : Entries) : Draft :=
  let all := a.closure kernel
  let (d, targets) := (a.successors all).foldl
    (fun (d, targets) kernel => let (d, n) := d.number kernel; (d, targets.push n))
    (d, (#[] : Array (Option Nat)))
  let tokens := a.grammar.tokens.size
  let done := a.finishedEntries all
  let actions :=
    ((List.range tokens).map fun t => a.actionsOn all done t (targets.getD t none)).toArray
  { d with rows := d.rows.push { actions, gotos := targets.extract tokens targets.size } }

/-- Finish all rows, at most `fuel` of them. -/
def Draft.complete {τ : Type} (a : Analysis τ) : Nat → Draft → Draft
  | 0, d => d
  | fuel + 1, d =>
    match d.kernels[d.rows.size]? with
    | none => d
    | some kernel => (d.grow a kernel).complete a fuel

structure Table (τ : Type) [BEq τ] [Hashable τ] where
  grammar : Numbered τ
  numbers : Std.HashMap τ Nat
  rows : Array Row

def stateLimit : Nat := 65536

namespace Table
variable {τ : Type} [DecidableEq τ] [Hashable τ]

def ofRules (g : RuleBook τ) : Table τ :=
  let numbered := g.number
  let a := numbered.analysis
  let draft := (Draft.number ⟨#[], #[], ∅⟩ a.startKernel).1.complete a stateLimit
  { grammar := numbered, rows := draft.rows
    numbers := numbered.tokens.zipIdx.foldl (fun m (t, i) => m.insert t i) ∅ }

def automaton (t : Table τ) : Automaton Nat τ where
  start := 0
  actions state token :=
    match t.rows[state]?, t.numbers[token]? with
    | some row, some n => row.actions.getD n []
    | _, _ => []
  goto state rule :=
    match t.rows[state]? with
    | some row => row.gotos.getD rule none
    | none => none

end Table

end CodeAtlas.Grammar
