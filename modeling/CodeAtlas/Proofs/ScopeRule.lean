import CodeAtlas.Calls.Site
import CodeAtlas.Proofs.Mirrored
import Mathlib.Data.List.Forall2

/-! # The scope rule for calls

A node of a tree is found at an address, the numbers of the children on the way
to it. Source order is the order of addresses, number by number, where a node
comes before the nodes below it. The collector of call sites hands a scope down
from node to node; seen from an address, that scope is what the functions,
classes and lambdas around it come to, one after the other from the outside in.
So the caller of a call is read off the definitions around it, and the list of
call sites is fixed by the tree: one site for each call within the greatest
depth that names something, in the order of addresses. -/
namespace CodeAtlas

open Python

namespace Python.Node

/-! ## Addresses -/

/-- The node at an address. -/
def atAddress (n : Node) : List Nat → Option Node
  | [] => some n
  | i :: rest => n.children[i]?.bind fun c => c.atAddress rest

/-- The addresses in the first levels of a tree, in source order. -/
def addresses : Nat → Node → List (List Nat)
  | 0, _ => []
  | levels + 1, n => [] :: n.children.zipIdx.flatMap fun c => (addresses levels c.1).map (c.2 :: ·)

variable {n : Node} {levels : Nat} {a : List Nat}

theorem pairwise_zipIdx (l : List Node) : l.zipIdx.Pairwise fun c d => c.2 < d.2 := by
  have hnumbers : (l.zipIdx.map Prod.snd).Pairwise (· < ·) := by
    rw [List.zipIdx_map_snd]
    exact List.pairwise_lt_range' 1
  exact List.pairwise_map.mp hnumbers

theorem flatMap_zipIdx_fst {β : Type} (l : List Node) (f : Node → List β) :
    (l.zipIdx.flatMap fun c => f c.1) = l.flatMap f := by
  rw [← List.flatMap_map Prod.fst f, List.zipIdx_map_fst]

theorem addresses_sorted (levels : Nat) (n : Node) : (n.addresses levels).Pairwise (· < ·) := by
  induction levels generalizing n with
  | zero => exact .nil
  | succ levels ih =>
    refine List.pairwise_cons.mpr ⟨?_, List.pairwise_flatMap.mpr ⟨?_, ?_⟩⟩
    · intro a ha
      obtain ⟨c, _, ha⟩ := List.mem_flatMap.mp ha
      obtain ⟨rest, _, rfl⟩ := List.mem_map.mp ha
      exact List.nil_lt_cons c.2 rest
    · intro c _
      refine List.pairwise_map.mpr ((ih c.1).imp ?_)
      intro a b hlt
      exact List.cons_lt_cons_iff.mpr (.inr ⟨rfl, hlt⟩)
    · refine (pairwise_zipIdx n.children).imp ?_
      intro c d hlt a ha b hb
      obtain ⟨_, _, rfl⟩ := List.mem_map.mp ha
      obtain ⟨_, _, rfl⟩ := List.mem_map.mp hb
      exact List.cons_lt_cons_iff.mpr (.inl hlt)

theorem mem_addresses_iff :
    a ∈ n.addresses levels ↔ a.length < levels ∧ ∃ x, n.atAddress a = some x := by
  induction levels generalizing n a with
  | zero => simp [addresses]
  | succ levels ih =>
    cases a with
    | nil => simp [addresses, atAddress]
    | cons i rest =>
      simp only [addresses, atAddress, List.mem_cons, reduceCtorEq, false_or, List.length_cons,
        Nat.add_lt_add_iff_right]
      constructor
      · intro h
        obtain ⟨c, hc, h⟩ := List.mem_flatMap.mp h
        obtain ⟨_, hrest, heq⟩ := List.mem_map.mp h
        cases heq
        obtain ⟨hlength, x, hx⟩ := ih.mp hrest
        rw [List.mem_zipIdx_iff_getElem?.mp hc]
        exact ⟨hlength, x, hx⟩
      · intro h
        obtain ⟨hlength, x, hx⟩ := h
        obtain ⟨c, hc, hx⟩ := Option.bind_eq_some_iff.mp hx
        refine List.mem_flatMap.mpr ⟨(c, i), List.mem_zipIdx_iff_getElem?.mpr hc, ?_⟩
        exact List.mem_map_of_mem (ih.mpr ⟨hlength, x, hx⟩)

/-! ## Definitions around an address -/

/-- The body of the node is a scope of its own. -/
def OpensScope (n : Node) : Prop :=
  n.kind = .functionDefinition ∨ n.kind = .classDefinition ∨ n.kind = .lambda

instance (n : Node) : Decidable n.OpensScope := inferInstanceAs (Decidable (_ ∨ _ ∨ _))

/-- The functions, classes and lambdas that have an address in their body, from
the outside in. -/
def around (n : Node) : List Nat → List Node
  | [] => []
  | i :: rest =>
    match n.children[i]? with
    | none => []
    | some c => if n.OpensScope ∧ c.field = some .body then n :: c.around rest else c.around rest

theorem opensScope_of_mem_around {d : Node} (h : d ∈ n.around a) : d.OpensScope := by
  induction a generalizing n with
  | nil => cases h
  | cons i rest ih =>
    unfold around at h
    split at h
    · cases h
    · split at h
      · rename_i hopens
        rcases List.mem_cons.mp h with rfl | h
        · exact hopens.1
        · exact ih h
      · exact ih h

end Python.Node

open Python.Node

/-! ## The scope at an address -/

namespace Scope

theorem body_of_not_opensScope {n : Node} (h : ¬n.OpensScope) (s : Scope) : s.body n = s := by
  unfold body
  split
  · exact absurd (.inl ‹_›) h
  · exact absurd (.inr (.inl ‹_›)) h
  · exact absurd (.inr (.inr ‹_›)) h
  · rfl

/-- What is handed down to a child is what the definitions around it add. -/
theorem foldl_around_cons {n c : Node} {i : Nat} (hc : n.children[i]? = some c) (s : Scope)
    (a : List Nat) : (n.around (i :: a)).foldl body s = (c.around a).foldl body (s.inside n c) := by
  simp only [around, hc, inside]
  by_cases hfield : c.field = some .body
  · by_cases hopens : n.OpensScope
    · simp [hfield, hopens]
    · simp [hfield, hopens, body_of_not_opensScope hopens]
  · simp [hfield]

/-- The walk with scopes, from the addresses. -/
theorem placed_eq (levels : Nat) (s : Scope) (n : Node) :
    n.placed inside levels s =
      (n.addresses levels).filterMap fun a =>
        (n.atAddress a).map ((n.around a).foldl body s, ·) := by
  induction levels generalizing s n with
  | zero => rfl
  | succ levels ih =>
    have hroot : (n.atAddress []).map ((n.around []).foldl body s, ·) = some (s, n) := rfl
    rw [placed, addresses, ← flatMap_zipIdx_fst n.children, List.filterMap_cons, hroot,
      List.filterMap_flatMap]
    congr 1
    apply List.flatMap_congr
    intro c hc
    have hget := List.mem_zipIdx_iff_getElem?.mp hc
    rw [ih, List.filterMap_map]
    apply List.filterMap_congr
    intro a _
    simp [atAddress, hget, foldl_around_cons hget]

/-! ## The rule -/

/-- Calls with these definitions around them, from the outside in, are made by
the function of this name. Classes in the body of a function change nothing. -/
inductive MadeBy : List Node → String → Prop
  | function {f name : Node} {classes : List Node} : f.kind = .functionDefinition →
      f.child? .name = some name →
      (∀ c ∈ classes, c.kind = .classDefinition) → MadeBy (f :: classes) name.text
  | method {owner ownerName f name : Node} {classes : List Node} : owner.kind = .classDefinition →
      owner.child? .name = some ownerName → f.kind = .functionDefinition →
        f.child? .name = some name →
      (∀ c ∈ classes, c.kind = .classDefinition) →
        MadeBy (owner :: f :: classes) (ownerName.text ++ "." ++ name.text)

theorem foldl_body_unnamed (definitions : List Node) :
    definitions.foldl body (.function none) = .function none := by
  induction definitions with
  | nil => rfl
  | cons d rest ih =>
    have hbody : (Scope.function none).body d = .function none := by
      unfold body
      split <;> rfl
    rw [List.foldl_cons, hbody, ih]

/-- In a named function the name stays until another function or a lambda
begins. -/
theorem caller_foldl_function {definitions : List Node} (h : ∀ d ∈ definitions, d.OpensScope)
    (name key : String) :
    (definitions.foldl body (.function (some name))).caller = some key ↔
      name = key ∧ ∀ d ∈ definitions, d.kind = .classDefinition := by
  induction definitions with
  | nil => simp [caller]
  | cons d rest ih =>
    obtain ⟨hd, hrest⟩ := List.forall_mem_cons.mp h
    rw [List.foldl_cons, List.forall_mem_cons]
    rcases hd with hkind | hkind | hkind
    · simp [body, hkind, foldl_body_unnamed, caller]
    · simp [body, hkind, ih hrest]
    · simp [body, hkind, foldl_body_unnamed, caller]

/-- In the body of a class at module level only a function with nothing but
classes in it has a name. -/
theorem caller_foldl_classBody {definitions : List Node} (h : ∀ d ∈ definitions, d.OpensScope)
    (owner key : String) :
    (definitions.foldl body (.classBody owner)).caller = some key ↔
      ∃ f name classes, definitions = f :: classes ∧ f.kind = .functionDefinition ∧
        f.child? .name = some name ∧
        owner ++ "." ++ name.text = key ∧ ∀ c ∈ classes, c.kind = .classDefinition := by
  cases definitions with
  | nil => simp [caller]
  | cons d rest =>
    obtain ⟨hd, hrest⟩ := List.forall_mem_cons.mp h
    rw [List.foldl_cons]
    rcases hd with hkind | hkind | hkind
    · cases hname : d.child? .name with
      | none => simp [body, hkind, hname, foldl_body_unnamed, caller]
      | some name => simp [body, hkind, hname, caller_foldl_function hrest]
    · simp [body, hkind, foldl_body_unnamed, caller]
    · simp [body, hkind, foldl_body_unnamed, caller]

theorem caller_foldl_module {definitions : List Node} (h : ∀ d ∈ definitions, d.OpensScope)
    (key : String) :
    (definitions.foldl body .module).caller = some key ↔ MadeBy definitions key := by
  cases definitions with
  | nil =>
    constructor
    · intro hkey
      cases hkey
    · intro hmade
      cases hmade
  | cons d rest =>
    obtain ⟨hd, hrest⟩ := List.forall_mem_cons.mp h
    rw [List.foldl_cons]
    rcases hd with hkind | hkind | hkind
    · have hmade : MadeBy (d :: rest) key ↔ ∃ name, d.child? .name = some name ∧ name.text = key ∧
          ∀ c ∈ rest, c.kind = .classDefinition := by
        constructor
        · intro hmade
          cases hmade with
          | function _ hname hclasses => exact ⟨_, hname, rfl, hclasses⟩
          | method howner => rw [hkind] at howner; cases howner
        · rintro ⟨name, hname, rfl, hclasses⟩
          exact .function hkind hname hclasses
      rw [hmade]
      cases hname : d.child? .name with
      | none => simp [body, hkind, hname, foldl_body_unnamed, caller]
      | some name => simp [body, hkind, hname, caller_foldl_function hrest]
    · have hmade : MadeBy (d :: rest) key ↔ ∃ owner, d.child? .name = some owner ∧ ∃ f name classes,
          rest = f :: classes ∧ f.kind = .functionDefinition ∧ f.child? .name = some name ∧
            owner.text ++ "." ++ name.text = key ∧ ∀ c ∈ classes, c.kind = .classDefinition := by
        constructor
        · intro hmade
          cases hmade with
          | function hfunction => rw [hkind] at hfunction; cases hfunction
          | method _ howner hfunction hname hclasses =>
            exact ⟨_, howner, _, _, _, rfl, hfunction, hname, rfl, hclasses⟩
        · rintro ⟨owner, howner, f, name, classes, rfl, hfunction, hname, rfl, hclasses⟩
          exact .method hkind howner hfunction hname hclasses
      rw [hmade]
      cases hname : d.child? .name with
      | none => simp [body, hkind, hname, foldl_body_unnamed, caller]
      | some owner => simp [body, hkind, hname, caller_foldl_classBody hrest]
    · have hnone : ¬MadeBy (d :: rest) key := by
        intro hmade
        cases hmade with
        | function hfunction => rw [hkind] at hfunction; cases hfunction
        | method howner => rw [hkind] at howner; cases howner
      simp [body, hkind, foldl_body_unnamed, caller, hnone]

end Scope

/-! ## What calls name -/

/-- A chain of identifiers with its segments. -/
inductive Python.Chain : Node → List String → Prop
  | identifier {n : Node} : n.kind = .identifier → Chain n [n.text]
  | member {n object last : Node} {segments : List String} : n.kind = .attribute →
      n.child? .object = some object →
      n.child? .attribute = some last → Chain object segments → Chain n (segments ++ [last.text])

/-- The call names a callee: its function is an identifier or a chain of
attributes. -/
inductive Python.Node.Calls (call : Node) : Callee → Prop
  | plain {f : Node} : call.child? .function = some f → f.kind = .identifier →
      Calls call (.plain f.text)
  | qualified {f : Node} {segments : List String} : call.child? .function = some f →
      f.kind = .attribute →
      Chain f segments → Calls call (.qualified segments)

theorem Python.objectSegments_eq (l : List Node) :
    objectSegments l = (l.find? (·.field = some .object)).bind dottedSegments := by
  induction l with
  | nil => rfl
  | cons c rest ih =>
    rw [objectSegments, List.find?_cons]
    by_cases h : c.field = some .object
    · simp [h]
    · simp [h, ih]

theorem Python.chain_of_dottedSegments {n : Node} {segments : List String}
    (h : n.dottedSegments = some segments) : Chain n segments := by
  induction n using Node.of_children generalizing segments with
  | step n ih =>
    unfold Node.dottedSegments at h
    split at h
    · cases h
      exact .identifier rfl
    · obtain ⟨last, hlast, h⟩ := Option.bind_eq_some_iff.mp h
      obtain ⟨front, hfront, h⟩ := Option.bind_eq_some_iff.mp h
      cases h
      rw [objectSegments_eq] at hfront
      obtain ⟨object, hobject, hfront⟩ := Option.bind_eq_some_iff.mp hfront
      exact .member rfl hobject hlast (ih object (List.mem_of_find?_eq_some hobject) hfront)
    · cases h

theorem Python.Chain.dottedSegments {n : Node} {segments : List String} (h : Chain n segments) :
    n.dottedSegments = some segments := by
  induction h with
  | @identifier n hkind =>
    obtain ⟨kind, field, text, lines, children⟩ := n
    cases hkind
    rfl
  | @member n object last segments hkind hobject hlast _ ih =>
    obtain ⟨kind, field, text, lines, children⟩ := n
    cases hkind
    have hfront : children.find? (·.field = some .object) = some object := hobject
    have hback : children.find? (·.field = some .attribute) = some last := hlast
    simp [Node.dottedSegments, objectSegments_eq, hfront, hback, ih]

theorem Python.Node.callee_eq_some_iff {call : Node} {callee : Callee} :
    call.callee = some callee ↔ call.Calls callee := by
  unfold Node.callee
  constructor
  · intro h
    obtain ⟨f, hf, h⟩ := Option.bind_eq_some_iff.mp h
    split at h
    · cases h
      exact .plain hf ‹_›
    · obtain ⟨segments, hsegments, rfl⟩ := Option.map_eq_some_iff.mp h
      exact .qualified hf ‹_› (chain_of_dottedSegments hsegments)
    · cases h
  · intro h
    cases h with
    | plain hf hkind => simp [hf, hkind]
    | qualified hf hkind hchain => simp [hf, hkind, hchain.dottedSegments]

/-! ## Call sites by address -/

/-- The call site at an address. -/
def Python.Node.siteAt (root : Node) (a : List Nat) : Option CallSite :=
  (root.atAddress a).bind (CallSite.of? ((root.around a).foldl Scope.body .module))

theorem callSites_eq (root : Node) :
    callSites root = (root.addresses (maxDepth + 1)).filterMap root.siteAt := by
  unfold callSites
  rw [Scope.placed_eq, List.filterMap_filterMap]
  apply List.filterMap_congr
  intro a _
  show ((root.atAddress a).map _).bind _ = (root.atAddress a).bind _
  cases root.atAddress a <;> rfl

theorem Python.Node.siteAt_eq_some_iff {root : Node} {a : List Nat} {site : CallSite} :
    root.siteAt a = some site ↔
    ∃ call, root.atAddress a = some call ∧ call.kind = .call ∧ call.Calls site.callee ∧
      site.line = call.lines.first ∧
      ∀ key, site.caller = some key ↔ Scope.MadeBy (root.around a) key := by
  have hrule :=
    Scope.caller_foldl_module fun d (hd : d ∈ root.around a) => opensScope_of_mem_around hd
  have hsame : ∀ caller : Option String,
      (∀ key, caller = some key ↔ Scope.MadeBy (root.around a) key) →
      caller = ((root.around a).foldl Scope.body .module).caller := by
    intro caller h
    apply Option.ext
    intro key
    exact (h key).trans (hrule key).symm
  unfold siteAt
  constructor
  · intro h
    obtain ⟨call, hcall, h⟩ := Option.bind_eq_some_iff.mp h
    unfold CallSite.of? at h
    split at h
    · obtain ⟨callee, hcallee, rfl⟩ := Option.map_eq_some_iff.mp h
      exact ⟨call, hcall, ‹_›, callee_eq_some_iff.mp hcallee, rfl, hrule⟩
    · cases h
  · rintro ⟨call, hcall, hkind, hcalls, hline, hcaller⟩
    obtain ⟨caller, callee, line⟩ := site
    cases hline
    rw [hcall, hsame caller hcaller]
    simp [CallSite.of?, hkind, callee_eq_some_iff.mpr hcalls]

theorem forall₂_filterMap {α β : Type} (f : α → Option β) (l : List α) :
    List.Forall₂ (fun a b => f a = some b) (l.filter fun a => (f a).isSome) (l.filterMap f) := by
  induction l with
  | nil => exact .nil
  | cons a rest ih =>
    cases h : f a with
    | none =>
      rw [List.filter_cons_of_neg (by simp [h]), List.filterMap_cons_none h]
      exact ih
    | some b =>
      rw [List.filter_cons_of_pos (by simp [h]), List.filterMap_cons_some h]
      exact .cons h ih

/-- **Call sites follow a scope rule.** The call sites of a tree belong, one to
one and in order, to the addresses at depth 500 or less of calls whose function
is an identifier or a chain of attributes. The caller of a call is read off the
functions, classes and lambdas that have it in their body: it is a function
with nothing but classes in it on the way to the call, at module level or as a
method of a class at module level, and in all other cases there is none. -/
theorem callSites_follow_scope_rule (root : Node) :
    ∃ calls : List (List Nat), calls.Pairwise (· < ·) ∧
      (∀ a, a ∈ calls ↔ a.length ≤ 500 ∧
        ∃ call callee, root.atAddress a = some call ∧ call.kind = .call ∧ call.Calls callee) ∧
      List.Forall₂ (fun a site => ∃ call, root.atAddress a = some call ∧ call.Calls site.callee ∧
        site.line = call.lines.first ∧ ∀ key, site.caller = some key ↔
          Scope.MadeBy (root.around a) key)
        calls (callSites root) := by
  refine ⟨(root.addresses (maxDepth + 1)).filter fun a => (root.siteAt a).isSome,
    (addresses_sorted _ root).filter _, ?_, ?_⟩
  · intro a
    rw [List.mem_filter, mem_addresses_iff]
    constructor
    · rintro ⟨⟨hlength, _⟩, hsite⟩
      obtain ⟨site, hsite⟩ := Option.isSome_iff_exists.mp hsite
      obtain ⟨call, hcall, hkind, hcalls, _⟩ := siteAt_eq_some_iff.mp hsite
      exact ⟨Nat.le_of_lt_succ hlength, call, site.callee, hcall, hkind, hcalls⟩
    · rintro ⟨hlength, call, callee, hcall, hkind, hcalls⟩
      refine ⟨⟨Nat.lt_succ_of_le hlength, call, hcall⟩, ?_⟩
      simp [siteAt, hcall, CallSite.of?, hkind, callee_eq_some_iff.mpr hcalls]
  · rw [callSites_eq]
    refine (forall₂_filterMap root.siteAt _).imp ?_
    intro a site hsite
    obtain ⟨call, hcall, _, hcalls, hline, hcaller⟩ := siteAt_eq_some_iff.mp hsite
    exact ⟨call, hcall, hcalls, hline, hcaller⟩

end CodeAtlas
