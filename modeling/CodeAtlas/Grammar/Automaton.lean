/-!
Shift-reduce automata, seen from the outside: what a parser may do in a state,
and where it goes from there. A parser only uses this view, so it does not
matter whether the states are numbers of a table or item sets.
-/
namespace CodeAtlas.Grammar

inductive Action (σ : Type) where
  /-- Read the token and go on in the given state. -/
  | shift (next : σ)
  /-- Take the steps of this alternative off the stack and put its rule there. -/
  | reduce (alternative : Nat)
  /-- The whole text is read. -/
  | accept
  deriving DecidableEq, Repr

/-- An automaton with states `σ` over tokens `τ`. More than one action means
that all of them are tried. -/
structure Automaton (σ τ : Type) where
  start : σ
  /-- What may be done on a token; nothing for a token that cannot come next.
  Reductions stand before a shift. -/
  actions : σ → τ → List (Action σ)
  /-- Where to go once the rule of that number has been read. -/
  goto : σ → Nat → Option σ

def Automaton.expects {σ τ : Type} (a : Automaton σ τ) (state : σ) (t : τ) : Bool :=
  !(a.actions state t).isEmpty

end CodeAtlas.Grammar
