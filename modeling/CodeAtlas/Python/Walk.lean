import CodeAtlas.Python.Node

/-!
Listing the nodes of a syntax tree in source order.

Every analysis looks at nodes down to a fixed number of levels below its start,
so a listing is by recursion on the number of levels.
-/
namespace CodeAtlas.Python

/-- Nodes that are more levels than this below the start of a listing are left out. -/
def maxDepth : Nat := 500

namespace Node

/-- The first levels of a tree in source order, each node in front of its
children, together with what is known of the node's place. `inside s n c` is
what is known of the place of `c`, a child of `n`, if `s` is known of the place
of `n`. -/
def placed {σ : Type} (inside : σ → Node → Node → σ) : Nat → σ → Node → List (σ × Node)
  | 0, _, _ => []
  | levels + 1, s, n => (s, n) :: n.children.flatMap fun c => placed inside levels (inside s n c) c

/-- The first levels of a tree in source order; what is below a node that is
not `passable` is left out. -/
def listing (passable : Node → Bool) : Nat → Node → List Node
  | 0, _ => []
  | levels + 1, n => n :: if passable n then n.children.flatMap (listing passable levels) else []

/-- All nodes of a tree in source order, down to the greatest depth. -/
def nodes (n : Node) : List Node := n.listing (fun _ => true) (maxDepth + 1)

theorem map_snd_placed {σ : Type} (inside : σ → Node → Node → σ) (levels : Nat) (s : σ) (n : Node) :
    (placed inside levels s n).map (·.2) = listing (fun _ => true) levels n := by
  induction levels generalizing s n with
  | zero => rfl
  | succ levels ih => simp [placed, listing, List.map_flatMap, ih]

end Node

end CodeAtlas.Python
