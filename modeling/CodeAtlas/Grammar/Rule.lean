/-!
Grammar rules as data, and the flat productions they stand for.

A rule's right-hand side is a `Body`. `Body.productions` spreads its
alternatives out into sequences of steps; what a body says about precedence,
tree kinds and field names ends up on the single steps. Repetition is expressed
by an extra rule `r → r r | x`, shared by all repetitions of the same body.
-/
namespace CodeAtlas.Grammar

inductive Assoc where
  | left
  | right
  deriving DecidableEq, Hashable, Repr

/-- The right-hand side of a rule over tokens `τ`. -/
inductive Body (τ : Type) where
  | empty
  | token (t : τ)
  | rule (name : String)
  | seq (first second : Body τ)
  | alt (first second : Body τ)
  | many1 (body : Body τ)
  /-- Static precedence: it settles a conflict while the parse table is built. -/
  | prec (level : Int) (assoc : Option Assoc) (body : Body τ)
  /-- Weight of a finished reading: of two readings of the same text the
  heavier one is kept. -/
  | weight (level : Int) (body : Body τ)
  /-- The name under which a node finds this child. -/
  | field (name : String) (body : Body τ)
  /-- The kind under which this child stands in the tree. -/
  | named (kind : String) (body : Body τ)
  deriving DecidableEq, Repr

namespace Body
variable {τ : Type}

def sequence : List (Body τ) → Body τ
  | [] => .empty
  | [b] => b
  | b :: rest => .seq b (sequence rest)

def oneOf : List (Body τ) → Body τ
  | [] => .empty
  | [b] => b
  | b :: rest => .alt b (oneOf rest)

def opt (b : Body τ) : Body τ := .alt b .empty

def many (b : Body τ) : Body τ := opt (.many1 b)

/-- One or more, with a separator between two of them. -/
def sepBy1 (b sep : Body τ) : Body τ := .seq b (many (.seq sep b))

end Body

/-- A place in a production: the symbol, the precedence that holds once it is
read, and the kind and field its child takes in the tree. -/
structure Step (σ : Type) where
  symbol : σ
  prec : Option Int := none
  assoc : Option Assoc := none
  kind : Option String := none
  field : Option String := none
  deriving DecidableEq, Hashable, Repr

structure Production (σ : Type) where
  steps : List (Step σ)
  weight : Int := 0
  deriving DecidableEq, Hashable, Repr, Inhabited

/-- A symbol as the author of a grammar writes it. -/
inductive Symbol (τ : Type) where
  | token (t : τ)
  | rule (name : String)
  deriving DecidableEq, Repr

/-- The larger weight in absolute value; the first one on a tie. -/
def heavier (a b : Int) : Int :=
  if a.natAbs < b.natAbs then b else a

def Production.mapLast {σ : Type} (f : Step σ → Step σ) (p : Production σ) : Production σ :=
  match p.steps.reverse with
  | [] => p
  | last :: before => { p with steps := (f last :: before).reverse }

/-- What surrounds a body: the precedence, kind and field that its steps take over. -/
structure Surroundings where
  prec : Option Int := none
  assoc : Option Assoc := none
  kind : Option String := none
  field : Option String := none

/-- The alternatives of a body without repetitions. `last` says whether the
body ends its rule: only there does its last step keep the body's own
precedence, elsewhere that step already belongs to what follows. -/
def Body.productions {τ : Type} :
    Body τ → Surroundings → (last : Bool) → List (Production (Symbol τ))
  | .empty, _, _ => [{ steps := [] }]
  | .token t, s, _ => [{ steps := [⟨.token t, s.prec, s.assoc, s.kind, s.field⟩] }]
  | .rule name, s, _ => [{ steps := [⟨.rule name, s.prec, s.assoc, s.kind, s.field⟩] }]
  | .seq a b, s, last =>
    (a.productions s false).flatMap fun p =>
      (b.productions s last).map fun q =>
        { steps := p.steps ++ q.steps, weight := heavier p.weight q.weight }
  | .alt a b, s, last => a.productions s last ++ b.productions s last
  | .many1 b, s, last => b.productions s last
  | .prec level assoc b, s, last =>
    let inner := b.productions { s with prec := some level, assoc := assoc.or s.assoc } last
    if last then inner
    else inner.map fun p => p.mapLast fun step =>
      { step with prec := s.prec, assoc := if assoc.isSome then s.assoc else step.assoc }
  | .weight level b, s, last =>
    (b.productions s last).map fun p => { p with weight := heavier level p.weight }
  | .field name b, s, last => b.productions { s with field := some name } last
  | .named kind b, s, last => b.productions { s with kind := some kind } last

/-- Repetitions met so far: the repeated body and the name of its extra rule,
latest first. -/
abbrev Repeats (τ : Type) := List (Body τ × String)

/-- Replace each repetition by its extra rule, naming new ones after `owner`. -/
def Body.expand {τ : Type} [DecidableEq τ] (owner : String) :
    Body τ → Repeats τ → Body τ × Repeats τ
  | .empty, seen => (.empty, seen)
  | .token t, seen => (.token t, seen)
  | .rule name, seen => (.rule name, seen)
  | .seq a b, seen =>
    let (a, seen) := a.expand owner seen
    let (b, seen) := b.expand owner seen
    (.seq a b, seen)
  | .alt a b, seen =>
    let (a, seen) := a.expand owner seen
    let (b, seen) := b.expand owner seen
    (.alt a b, seen)
  | .many1 b, seen =>
    let (b, seen) := b.expand owner seen
    match seen.find? (·.1 = b) with
    | some (_, name) => (.rule name, seen)
    | none =>
      let name := s!"{owner} repeat {seen.length}"
      (.rule name, (b, name) :: seen)
  | .prec level assoc b, seen => let (b, seen) := b.expand owner seen; (.prec level assoc b, seen)
  | .weight level b, seen => let (b, seen) := b.expand owner seen; (.weight level b, seen)
  | .field name b, seen => let (b, seen) := b.expand owner seen; (.field name b, seen)
  | .named kind b, seen => let (b, seen) := b.expand owner seen; (.named kind b, seen)

/-- A grammar: its rules in order, the start rule first. -/
structure RuleBook (τ : Type) where
  rules : List (String × Body τ)
  /-- Rules that are replaced by their alternatives wherever they are used. -/
  inlined : List String
  /-- Rules, beside those whose name starts with an underscore, that leave no
  node of their own. -/
  grouping : List String
  /-- Tokens that may stand between any two others. -/
  extras : List τ
  finish : τ

structure FlatRule (τ : Type) where
  name : String
  /-- Made for a repetition. -/
  auxiliary : Bool
  alternatives : List (Production (Symbol τ))

/-- The steps of an inlined alternative, as they stand at the place of `step`. -/
def Step.inlineAt {τ : Type} (step : Step (Symbol τ)) (p : Production (Symbol τ)) :
    Production (Symbol τ) :=
  let placed : Production (Symbol τ) :=
    { p with steps := p.steps.map fun s : Step (Symbol τ) =>
        { s with kind := step.kind.or s.kind, field := step.field.or s.field } }
  placed.mapLast fun s => { s with prec := s.prec.or step.prec, assoc := s.assoc.or step.assoc }

/-- Replace every inlined rule among the steps, each by all its alternatives. -/
def inlineSteps {τ : Type} (table : List (String × List (Production (Symbol τ)))) :
    List (Step (Symbol τ)) → List (Production (Symbol τ))
  | [] => [{ steps := [] }]
  | step :: rest =>
    let rests := inlineSteps table rest
    let here := match step.symbol with
      | .rule name => match table.lookup name with
        | some alternatives => alternatives.map step.inlineAt
        | none => [{ steps := [step] }]
      | .token _ => [{ steps := [step] }]
    here.flatMap fun p => rests.map fun q =>
      { steps := p.steps ++ q.steps, weight := heavier p.weight q.weight }

namespace RuleBook
variable {τ : Type} [DecidableEq τ]

/-- The rules without repetitions, extra rules last. -/
def expanded (g : RuleBook τ) : List (String × Bool × Body τ) :=
  let (rules, repeats) := g.rules.foldl
    (fun (done, seen) (name, body) =>
      let (body, seen) := body.expand name seen
      ((name, false, body) :: done, seen)) ([], [])
  rules.reverse ++ repeats.reverse.map fun (body, name) =>
    (name, true, .alt (.seq (.rule name) (.rule name)) body)

/-- The flat rules: repetitions expanded, inlined rules gone. -/
def flatten (g : RuleBook τ) : List (FlatRule τ) :=
  let flat : List (String × Bool × List (Production (Symbol τ))) :=
    g.expanded.map fun (name, aux, body) =>
      (name, aux, (body.productions ({} : Surroundings) true).eraseDups)
  let inlined := flat.filterMap fun (name, _, ps) =>
    if g.inlined.contains name then some (name, ps) else none
  flat.filterMap fun (name, aux, ps) =>
    if g.inlined.contains name then none
    else some {
      name, auxiliary := aux
      alternatives := (ps.flatMap fun p =>
        (inlineSteps inlined p.steps).map fun q =>
          { q with weight := heavier p.weight q.weight }).eraseDups }

/-- The kind of node a rule leaves in the tree; `none` for a rule that only
groups. -/
def nodeKind (g : RuleBook τ) (r : FlatRule τ) : Option String :=
  if r.auxiliary || r.name.startsWith "_" || g.grouping.contains r.name then none else some r.name

end RuleBook

end CodeAtlas.Grammar
