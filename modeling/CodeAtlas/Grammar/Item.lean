import CodeAtlas.Grammar.Rule
import Std.Data.HashMap

/-!
Numbered grammars and their items.

Symbols are numbered: the tokens first, then the rules in the order of the
grammar. An item is a place in a production. Two places count as the same item
when nothing that is still to be read, or that the finished node depends on,
tells them apart; this keeps the automaton small.
-/
namespace CodeAtlas.Grammar

/-- A set of tokens, one bit each. -/
abbrev TokenSet := Nat

structure RuleInfo where
  name : String
  /-- Made for a repetition. -/
  auxiliary : Bool
  /-- The kind of its node; `none` when it only groups. -/
  kind : Option String

structure Alternative where
  lhs : Nat
  body : Production Nat
  deriving Inhabited

/-- Everything that distinguishes one place in a production from another. -/
structure Place where
  lhs : Nat
  dot : Nat
  weight : Int
  length : Nat
  prec : Option Int
  assoc : Option Assoc
  passed : List (Option String × Option String)
  ahead : List (Step Nat)
  deriving DecidableEq, Hashable

def Alternative.place (a : Alternative) (dot : Nat) : Place :=
  let passed := a.body.steps.take dot
  let last := passed.getLast?
  { lhs := a.lhs, dot, weight := a.body.weight, length := a.body.steps.length
    prec := last.bind (·.prec), assoc := last.bind (·.assoc)
    passed := passed.map fun s => (s.kind, s.field), ahead := a.body.steps.drop dot }

/-- An item: a place, its number being its index. -/
structure Item where
  /-- An alternative with this place. -/
  alternative : Nat
  dot : Nat
  lhs : Nat
  /-- Precedence and grouping that hold once the steps before the place are read. -/
  prec : Int
  assoc : Option Assoc
  /-- The symbol to read next, and the one after it. -/
  next : Option Nat
  second : Option Nat
  /-- The item after reading `next`. -/
  advanced : Nat
  deriving Inhabited

structure Numbered (τ : Type) where
  tokens : Array τ
  rules : Array RuleInfo
  alternatives : Array Alternative
  items : Array Item
  /-- The item numbers of an alternative, by position. -/
  places : Array (Array Nat)

namespace Numbered
variable {τ : Type}

/-- The rule a symbol stands for, if it is not a token. -/
def rule? (g : Numbered τ) (symbol : Nat) : Option Nat :=
  if g.tokens.size ≤ symbol then some (symbol - g.tokens.size) else none

/-- The number of the rule `start → module`, which is in no grammar text. -/
def entryRule (g : Numbered τ) : Nat := g.rules.size

end Numbered

/-- Apply `f` until nothing changes, at most `n` times. -/
def stabilize {α : Type} [BEq α] (f : α → α) : Nat → α → α
  | 0, x => x
  | n + 1, x => let y := f x; if y == x then x else stabilize f n y

/-- The numbers of all places, shared by places that are the same item, and a
representative for each number. Places further left come first, then places of
earlier rules. -/
def numberPlaces (alternatives : Array Alternative) : Array (Array Nat) × Array (Nat × Nat) :=
  let longest := alternatives.foldl (fun n a => max n a.body.steps.length) 0
  let start : Array (Array Nat) × Array (Nat × Nat) × Std.HashMap Place Nat :=
    (Array.replicate alternatives.size #[], #[], ∅)
  let (places, items, _) := (List.range (longest + 1)).foldl (fun state dot =>
    (List.range alternatives.size).foldl (fun (places, items, known) index =>
      match alternatives[index]? with
      | none => (places, items, known)
      | some a =>
        if a.body.steps.length < dot then (places, items, known)
        else
          let place := a.place dot
          match known[place]? with
          | some item => (places.modify index (·.push item), items, known)
          | none =>
            (places.modify index (·.push items.size), items.push (index, dot),
              known.insert place items.size)) state) start
  (places, items)

def Alternative.item (a : Alternative) (index dot : Nat) (places : Array (Array Nat)) : Item :=
  let place := a.place dot
  { alternative := index, dot, lhs := a.lhs, prec := place.prec.getD 0, assoc := place.assoc
    next := place.ahead.head?.map (·.symbol), second := (place.ahead.drop 1).head?.map (·.symbol)
    advanced := (places.getD index #[]).getD (dot + 1) 0 }

namespace RuleBook
variable {τ : Type} [DecidableEq τ] [Hashable τ]

/-- The tokens of flat rules in order of first use, `finish` before all others. -/
def tokenNumbers (g : RuleBook τ) (flat : List (FlatRule τ)) : Array τ × Std.HashMap τ Nat :=
  let add := fun (order, known) (t : τ) =>
    if known.contains t then (order, known) else (order.push t, known.insert t order.size)
  let used := flat.flatMap fun r => r.alternatives.flatMap fun p => p.steps.filterMap fun s =>
    match s.symbol with
    | .token t => some t
    | .rule _ => none
  (g.extras ++ used).foldl add (#[g.finish], (∅ : Std.HashMap τ Nat).insert g.finish 0)

/-- The grammar with everything numbered. The last alternative is the entry:
the start rule and nothing else. -/
def number (g : RuleBook τ) : Numbered τ :=
  let flat := g.flatten
  let (tokens, tokenIds) := g.tokenNumbers flat
  let ruleIds : Std.HashMap String Nat :=
    (flat.zipIdx).foldl (fun m (r, i) => m.insert r.name i) ∅
  let code : Symbol τ → Nat
    | .token t => tokenIds.getD t 0
    | .rule name => tokens.size + ruleIds.getD name 0
  let numbered : List Alternative := flat.zipIdx.flatMap fun (r, i) => r.alternatives.map fun p =>
    { lhs := i
      body := { steps := p.steps.map fun s => { s with symbol := code s.symbol }
                weight := p.weight } }
  let entry : Alternative :=
    { lhs := flat.length, body := { steps := [{ symbol := tokens.size }] } }
  let alternatives := (numbered ++ [entry]).toArray
  let (places, reps) := numberPlaces alternatives
  { tokens, alternatives, places
    rules :=
      (flat.map fun r =>
        { name := r.name, auxiliary := r.auxiliary, kind := g.nodeKind r : RuleInfo }).toArray
    items := reps.map fun (index, dot) => (alternatives.getD index default).item index dot places }

end RuleBook

namespace Numbered
variable {τ : Type}

/-- The tokens a symbol can start with, given those of the rules. No rule but
the start derives the empty text, so the first step decides. -/
def startsOf (g : Numbered τ) (starts : Array TokenSet) (symbol : Nat) : TokenSet :=
  match g.rule? symbol with
  | none => 1 <<< symbol
  | some r => starts.getD r 0

/-- For each rule the tokens it can start with. -/
def starts (g : Numbered τ) : Array TokenSet :=
  stabilize (fun sets => g.alternatives.foldl (fun sets a =>
    match a.body.steps with
    | [] => sets
    | s :: _ => sets.modify a.lhs (· ||| g.startsOf sets s.symbol)) sets)
    (g.rules.size + 1) (Array.replicate g.rules.size 0)

/-- An item that opens wherever some rule is expected: the tokens that can
follow it there, and whether what follows the expected rule can follow it too. -/
structure Opening where
  item : Nat
  follow : TokenSet
  inherits : Bool

/-- Which rules open where `rule` is expected, each with its follow tokens and
whether it also inherits. -/
def openRules (g : Numbered τ) (starts : Array TokenSet) (rule : Nat) :
    Array (Option (TokenSet × Bool)) :=
  let pass := fun (known : Array (Option (TokenSet × Bool))) =>
    g.alternatives.foldl (fun known a =>
      match known.getD a.lhs none, a.body.steps with
      | some (follow, inherits), first :: rest =>
        match g.rule? first.symbol with
        | none => known
        | some r =>
          let (follow, inherits) := match rest with
            | [] => (follow, inherits)
            | second :: _ => (g.startsOf starts second.symbol, false)
          known.modify r fun
            | none => some (follow, inherits)
            | some (f, i) => some (f ||| follow, i || inherits)
      | _, _ => known) known
  stabilize pass (g.rules.size + 1) ((Array.replicate g.rules.size none).set! rule (some (0, true)))

/-- The openings where `rule` is expected, in item order. -/
def openings (g : Numbered τ) (starts : Array TokenSet) (rule : Nat) : List Opening :=
  let known := g.openRules starts rule
  (g.alternatives.toList.zip (g.places.toList)).filterMap fun (a, places) =>
    match known.getD a.lhs none, places[0]? with
    | some (follow, inherits), some item => some { item, follow, inherits }
    | _, _ => none

end Numbered

end CodeAtlas.Grammar
