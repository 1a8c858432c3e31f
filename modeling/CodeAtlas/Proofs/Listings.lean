import CodeAtlas.Proofs.ScopeRule
import Mathlib.Data.Set.Card

/-! # Listings by address

The analyses that look at single nodes go through listings, which are by
recursion on the number of levels. Seen from the addresses, a listing is the
nodes at all addresses of the first levels, in order, that can be reached:
every node on the way to them can be passed. Counting nodes in a listing is
counting addresses. -/
namespace CodeAtlas.Python.Node

variable {n x : Node} {a : List Nat} {passable : Node → Bool}

/-- Whether all nodes above an address can be passed. -/
def reaches (passable : Node → Bool) (n : Node) : List Nat → Bool
  | [] => true
  | i :: rest => passable n && n.children[i]?.any fun c => c.reaches passable rest

theorem reaches_iff (h : n.atAddress a = some x) : n.reaches passable a = true ↔
    ∀ b y, b <+: a → b ≠ a → n.atAddress b = some y → passable y = true := by
  induction a generalizing n with
  | nil =>
    refine ⟨fun _ b y hb hne _ => absurd (List.prefix_nil.mp hb) hne, fun _ => rfl⟩
  | cons i rest ih =>
    obtain ⟨c, hc, hx⟩ := Option.bind_eq_some_iff.mp h
    simp only [reaches, hc, Option.any_some, Bool.and_eq_true, ih hx]
    constructor
    · rintro ⟨hn, hrest⟩ b y hb hne hy
      rcases List.prefix_cons_iff.mp hb with rfl | ⟨front, rfl, hfront⟩
      · cases hy
        exact hn
      · rw [atAddress, hc] at hy
        exact hrest front y hfront (fun he => hne (by rw [he])) hy
    · intro hall
      refine ⟨hall [] n List.nil_prefix (List.cons_ne_nil i rest).symm rfl, fun b y hb hne hy => ?_⟩
      refine hall (i :: b) y (List.cons_prefix_cons.mpr ⟨rfl, hb⟩)
        (fun he => hne (List.cons.inj he).2) ?_
      rw [atAddress, hc]
      exact hy

/-- The addresses in the first levels of a tree that can be reached, in source
order. -/
def reachable (passable : Node → Bool) (levels : Nat) (n : Node) : List (List Nat) :=
  (n.addresses levels).filter (n.reaches passable)

/-- A listing, from the addresses. -/
theorem listing_eq (passable : Node → Bool) (levels : Nat) (n : Node) :
    n.listing passable levels = (n.reachable passable levels).filterMap n.atAddress := by
  unfold reachable
  induction levels generalizing n with
  | zero => rfl
  | succ levels ih =>
    have hroot : n.atAddress [] = some n := rfl
    rw [listing, addresses, List.filter_cons_of_pos rfl, List.filterMap_cons_some hroot,
      List.filter_flatMap, List.filterMap_flatMap, ← flatMap_zipIdx_fst n.children]
    congr 1
    by_cases hn : passable n = true
    · rw [if_pos hn]
      apply List.flatMap_congr
      intro c hc
      have hget := List.mem_zipIdx_iff_getElem?.mp hc
      rw [ih, List.filter_map, List.filterMap_map]
      have hreach : (n.reaches passable ∘ (c.2 :: ·)) = c.1.reaches passable := by
        funext a
        simp [reaches, hn, hget]
      rw [hreach]
      apply List.filterMap_congr
      intro a _
      simp [atAddress, hget]
    · -- no address below the node is reached
      rw [if_neg hn, eq_comm, List.flatMap_eq_nil_iff]
      intro c _
      rw [List.filter_eq_nil_iff.mpr, List.filterMap_nil]
      intro a ha
      obtain ⟨rest, _, rfl⟩ := List.mem_map.mp ha
      simp [reaches, hn]

theorem reachable_sorted (passable : Node → Bool) (levels : Nat) (n : Node) :
    (n.reachable passable levels).Pairwise (· < ·) := (addresses_sorted levels n).filter _

/-- The number of nodes at depth 500 or less that have a property. -/
noncomputable def countWithin (root : Node) (P : Node → Prop) : Nat :=
  {a : List Nat | a.length ≤ 500 ∧ ∃ n, root.atAddress a = some n ∧ P n}.ncard

/-- Counting nodes in the listing of a tree is counting addresses. -/
theorem countP_nodes (root : Node) (p : Node → Bool) :
    root.nodes.countP p = root.countWithin fun n => p n = true := by
  have hset : {a : List Nat | a.length ≤ 500 ∧ ∃ n, root.atAddress a = some n ∧ p n = true} =
      (((root.reachable (fun _ => true) (maxDepth + 1)).filter fun a =>
        (root.atAddress a).any p).toFinset : Set _) := by
    ext a
    simp only [Set.mem_ofPred_eq, List.coe_toFinset, List.mem_filter, reachable, mem_addresses_iff,
      Option.any_eq_true]
    constructor
    · rintro ⟨hlength, n, hn, hp⟩
      exact ⟨⟨⟨Nat.lt_succ_of_le hlength, n, hn⟩,
        (reaches_iff hn).mpr fun _ _ _ _ _ => rfl⟩, n, hn, hp⟩
    · rintro ⟨⟨⟨hlength, _⟩, _⟩, n, hn, hp⟩
      exact ⟨Nat.le_of_lt_succ hlength, n, hn, hp⟩
  have hnodup : (root.reachable (fun _ => true) (maxDepth + 1)).Nodup :=
    (reachable_sorted _ _ root).imp fun hlt he => absurd (he ▸ hlt) (List.lt_irrefl _)
  have hcount : ∀ a, ((root.atAddress a).map p).getD false = (root.atAddress a).any p := by
    intro a
    cases root.atAddress a <;> rfl
  rw [countWithin, hset, Set.ncard_coe_finset, List.toFinset_card_of_nodup (hnodup.filter _), nodes,
    listing_eq, List.countP_filterMap, List.countP_eq_length_filter]
  simp only [hcount]

end CodeAtlas.Python.Node
