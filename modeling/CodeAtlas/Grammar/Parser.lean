import CodeAtlas.Grammar.Item
import CodeAtlas.Grammar.Automaton
import CodeAtlas.Grammar.Tree

/-!
Reading a text with an automaton.

Where the automaton leaves a choice, the parser follows every branch. Each
branch asks the lexer for its own next token, saying which tokens it can use,
so that the same text may be cut differently in different branches. Branches
that have come to the same state at the same place go on as one, which
remembers all its pasts; when two pasts become the same, the heavier reading
stays.

Tokens that may stand anywhere (such as comments) are kept on the stack beside
the others. When a rule is finished, those behind its last step stay behind it,
so a node never ends with one.
-/
namespace CodeAtlas.Grammar

structure Lexeme (τ κ : Type) where
  token : τ
  span : Span
  cursor : κ

structure Lexer (τ κ : Type) where
  /-- The next token; the caller says which tokens it can use. -/
  next : κ → (τ → Bool) → Option (Lexeme τ κ)
  mark : κ → Mark
  kind : τ → Option String
  /-- Tokens that may stand between any two others. -/
  extra : τ → Bool
  /-- Whether two cursors of one text will read the same. -/
  same : κ → κ → Bool

/-- What is known of a finished part of the text, beside the parts it is made of. -/
structure PartInfo where
  /-- Order among the readings of one text: 0 for a token, else one more than
  the rule's number. -/
  rank : Nat
  weight : Int
  extra : Bool
  span : Span
  kind : Option String
  inner : Forest
  deriving Inhabited

inductive Part where
  | mk (info : PartInfo) (parts : List Part)
  deriving Inhabited

namespace Part

def info : Part → PartInfo
  | mk info _ => info

def parts : Part → List Part
  | mk _ parts => parts

def weight (p : Part) : Int := p.info.weight
def extra (p : Part) : Bool := p.info.extra

/-- The nodes of a part as seen from the node around it, which may name their
kind and field. -/
def placed (p : Part) (kind field : Option String) : Forest :=
  match kind.or p.info.kind with
  | some k => .tree (.node k field p.info.span p.info.inner.toList)
  | none => match field with
    | some name => p.info.inner.label name
    | none => p.info.inner

mutual

/-- Order of readings: by rule, then by the number of parts, then by the
parts in turn. -/
def order : Part → Part → Ordering
  | mk i ps, mk j qs =>
    (compare i.rank j.rank).then ((compare ps.length qs.length).then (orderAll ps qs))

def orderAll : List Part → List Part → Ordering
  | p :: ps, q :: qs => (order p q).then (orderAll ps qs)
  | _, _ => .eq

end

/-- Whether two parts are the same reading of the same text as far as can be
seen from outside. -/
def alike (p q : Part) : Bool :=
  p.info.rank = q.info.rank && p.parts.length = q.parts.length && p.info.span = q.info.span &&
    p.extra = q.extra

end Part

def totalWeight (ps : List Part) : Int := ps.foldl (fun w p => w + p.weight) 0

/-- Whether the parts `new` make a better rule than the parts `old`: they are
heavier, or as heavy and first in order. -/
def betterParts (old new : List Part) : Bool :=
  if totalWeight old < totalWeight new then true
  else if totalWeight new < totalWeight old then false
  else Part.orderAll new old = .lt

def assemble : List Part → List (Step Nat) → Forest
  | [], _ => .empty
  | [p], [s] => p.placed s.kind s.field
  | p :: parts, steps =>
    if p.extra then .join (p.placed none none) (assemble parts steps)
    else match steps with
      | [] => .join (p.placed none none) (assemble parts [])
      | s :: steps => .join (p.placed s.kind s.field) (assemble parts steps)

/-- The parts read so far, the last one first, each with the state after it. -/
abbrev Stack (σ : Type) := List (σ × Part)

section
variable {σ : Type} [DecidableEq σ]

def Stack.alike : Stack σ → Stack σ → Bool
  | [], [] => true
  | (s, p) :: xs, (t, q) :: ys => s = t && p.alike q && Stack.alike xs ys
  | _, _ => false

/-- Add a stack to others. Of two that are alike the heavier one stays, on a
tie the one that was there. -/
def Stack.addTo (s : Stack σ) : List (Stack σ) → List (Stack σ)
  | [] => [s]
  | t :: rest =>
    if Stack.alike t s then
      (if totalWeight (t.map (·.2)) < totalWeight (s.map (·.2)) then s else t) :: rest
    else t :: Stack.addTo s rest

/-- Take `n` parts off a stack, not counting those that may stand anywhere, and
put them before `taken`. -/
def Stack.take : Nat → Stack σ → List Part → Option (List Part × Stack σ)
  | 0, stack, taken => some (taken, stack)
  | _ + 1, [], _ => none
  | n + 1, (_, p) :: rest, taken => Stack.take (if p.extra then n + 1 else n) rest (p :: taken)

/-- Parts on their way to become one: they stand on `below`. -/
structure Slice (σ : Type) where
  parts : List Part
  /-- Parts that may stand anywhere, behind the last of `parts`. -/
  behind : List Part
  below : Stack σ

def Stack.slice (n : Nat) (s : Stack σ) : Option (Slice σ) :=
  (Stack.take n s []).map fun (parts, below) =>
    let reversed := parts.reverse
    { parts := (reversed.dropWhile (·.extra)).reverse
      behind := (reversed.takeWhile (·.extra)).reverse
      below }

/-- Add a slice to others. Of two on the same stack the better one stays. -/
def Slice.addTo (s : Slice σ) : List (Slice σ) → List (Slice σ)
  | [] => [s]
  | t :: rest =>
    if Stack.alike t.below s.below then (if betterParts t.parts s.parts then s else t) :: rest
    else t :: Slice.addTo s rest

/-- A branch: all ways of reading the text so far that lead to one state at one
place. -/
structure Branch (σ κ : Type) where
  state : σ
  piles : List (Stack σ)
  cursor : κ

variable {τ κ : Type} (a : Automaton σ τ) (g : Numbered τ) (lexer : Lexer τ κ)

def Branch.meets (b c : Branch σ κ) : Bool :=
  b.state = c.state && lexer.same b.cursor c.cursor

/-- Let a branch go on together with the first of the others that it meets;
`none` if there is none. -/
def Branch.joinInto (b : Branch σ κ) : List (Branch σ κ) → Option (List (Branch σ κ))
  | [] => none
  | c :: rest =>
    if c.meets lexer b then
      some ({ c with piles := b.piles.foldl (fun all s => s.addTo all) c.piles } :: rest)
    else (b.joinInto rest).map (c :: ·)

def Slice.finish (s : Slice σ) (b : Branch σ κ) (alt : Alternative) (kind : Option String) :
    Option (Stack σ) := do
  let top := match s.below with
    | [] => a.start
    | (state, _) :: _ => state
  let next ← a.goto top alt.lhs
  let here := lexer.mark b.cursor
  let info : PartInfo := {
    rank := alt.lhs + 1
    weight := totalWeight s.parts + alt.body.weight
    extra := false
    span :=
      ⟨(s.parts.head?.map (·.info.span.start)).getD here,
        (s.parts.getLast?.map (·.info.span.stop)).getD here⟩
    kind
    inner := assemble s.parts alt.body.steps }
  return s.behind.foldl (fun stack p => (next, p) :: stack) ((next, .mk info s.parts) :: s.below)

def addByState (cursor : κ) (s : Stack σ) : List (Branch σ κ) → List (Branch σ κ)
  | [] => match s with
    | [] => []
    | (state, _) :: _ => [{ state, piles := [s], cursor }]
  | b :: rest =>
    if s.head?.map (·.1) = some b.state then { b with piles := s.addTo b.piles } :: rest
    else b :: addByState cursor s rest

/-- Finish a rule: its parts become one, in every past of the branch. Pasts
that differ only inside the new part become one; different states become
different branches. -/
def Branch.reduce (b : Branch σ κ) (alternative : Nat) : List (Branch σ κ) :=
  match g.alternatives[alternative]? with
  | none => []
  | some alt =>
    let kind := (g.rules[alt.lhs]?).bind (·.kind)
    let slices :=
      (b.piles.filterMap (Stack.slice alt.body.steps.length)).foldl (fun all s => s.addTo all) []
    (slices.filterMap fun s => s.finish a lexer b alt kind).foldl
      (fun all s => addByState b.cursor s all) []

def Branch.shift (b : Branch σ κ) (l : Lexeme τ κ) (next : σ) (extra : Bool) : Branch σ κ :=
  let info : PartInfo := {
    rank := 0, weight := 0, extra, span := l.span, kind := lexer.kind l.token, inner := .empty }
  { state := next, piles := b.piles.map ((next, .mk info []) :: ·), cursor := l.cursor }

/-- The whole text as one part: what stands around the start rule's node goes
into it. -/
def Stack.whole (s : Stack σ) : Option Part :=
  let parts := s.reverse.map (·.2)
  let before := parts.takeWhile (·.extra)
  match parts.dropWhile (·.extra) with
  | [] => none
  | root :: after =>
    some (.mk
      { root.info with
        inner := .join (assemble before []) (.join root.info.inner (assemble after [])) }
      root.parts)

/-- A parse under way. It goes in rounds: in each, every branch is taken as far
as the others have come. -/
structure Parse (σ τ κ : Type) where
  current : Option (Branch σ κ × Lexeme τ κ) := none
  waiting : List (Branch σ κ)
  moved : List (Branch σ κ) := []
  /-- Whether the first branch of the round is still moving: it has to get
  further than `reached`. -/
  leading : Bool := true
  reached : Nat := 0
  result : Option Part := none

namespace Parse
variable (p : Parse σ τ κ)

def await (b : Branch σ κ) : Parse σ τ κ :=
  match b.joinInto lexer p.moved with
  | some moved => { p with moved }
  | none => match b.joinInto lexer p.waiting with
    | some waiting => { p with waiting }
    | none => { p with waiting := p.waiting ++ [b] }

/-- Finish rules of the current branch. Returns the place among the waiting
branches of the one to go on with. -/
def reduceAll (b : Branch σ κ) (alternatives : List Nat) : Parse σ τ κ × Option Nat :=
  alternatives.foldl (fun (p, last) alternative =>
    let before := p.waiting.length
    let p := (b.reduce a g lexer alternative).foldl (fun p b => p.await lexer b) p
    (p, if before < p.waiting.length then some before else last)) (p, none)

def advanceTo (b : Branch σ κ) : Parse σ τ κ :=
  let offset := (lexer.mark b.cursor).offset
  if p.reached < offset || (!p.leading && offset = p.reached) then
    { p with current := none, moved := p.moved ++ [b], leading := false, reached := offset }
  else { p with current := none, waiting := b :: p.waiting }

def drop : Parse σ τ κ := { p with current := none, leading := false }

def finishWith (whole : Part) : Parse σ τ κ :=
  match p.result with
  | none => { p with result := some whole }
  | some old => if betterParts [old] [whole] then { p with result := some whole } else p

def act (b : Branch σ κ) (l : Lexeme τ κ) : Parse σ τ κ :=
  let actions := a.actions b.state l.token
  if actions.any (fun | .accept => true | _ => false) then
    ((b.piles.filterMap Stack.whole).foldl (fun p w => p.finishWith w) p).drop
  else
    let (p, last) := p.reduceAll a g lexer b (actions.filterMap fun
      | .reduce alternative => some alternative
      | _ => none)
    match actions.findSome? (fun | .shift next => some next | _ => none), last with
    | some next, _ => p.advanceTo lexer (b.shift lexer l next false)
    | none, some n =>
      match p.waiting[n]? with
      | some c => { p with current := some (c, l), waiting := p.waiting.eraseIdx n }
      | none => p.drop
    | none, none =>
      if actions.isEmpty && lexer.extra l.token then
        p.advanceTo lexer (b.shift lexer l b.state true)
      else p.drop

/-- One step: an action of the current branch, a token for the next one, or a
new round. -/
def step : Parse σ τ κ :=
  match p.current with
  | some (b, l) => p.act a g lexer b l
  | none =>
    match p.waiting with
    | b :: rest =>
      match lexer.next b.cursor (a.expects b.state) with
      | some l => { p with current := some (b, l), waiting := rest }
      | none => { p with waiting := rest, leading := false }
    | [] =>
      let joined := p.moved.foldl (fun all b => (b.joinInto lexer all).getD (all ++ [b])) []
      { p with waiting := joined, moved := [], leading := true }

def done : Bool := p.current.isNone && p.waiting.isEmpty && p.moved.isEmpty

def run : Nat → Parse σ τ κ → Option Part
  | 0, p => p.result
  | fuel + 1, p => if p.done then p.result else run fuel (p.step a g lexer)

end Parse

/-- The tree of a text that starts at `cursor`; `none` if the grammar does not
derive it. -/
def parseTree (cursor : κ) (fuel : Nat) : Option Tree := do
  let whole ← Parse.run a g lexer fuel { waiting := [{ state := a.start, piles := [[]], cursor }] }
  let kind ← whole.info.kind
  return .node kind none whole.info.span whole.info.inner.toList

end

end CodeAtlas.Grammar
