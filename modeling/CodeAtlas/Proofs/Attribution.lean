import CodeAtlas.Proofs.Mirrored
import CodeAtlas.Proofs.Resolution
import CodeAtlas.Proofs.Spans

/-! # Which function a call is ascribed to

A call is ascribed to a function by name: the walk over the tree hands down the
name that the definition around a call goes by, and the table of functions says
which symbol has that name. Several definitions may go by one name, and the
table knows only the last of those that it lists. So the line of a call lies
within the lines of its caller wherever the definition of the caller is the
only one that goes by its name. -/
namespace CodeAtlas

open Python

/-! ## Lines -/

namespace Python.Node

/-- All nodes below a node lie on its lines. -/
def Encloses (n : Node) : Prop :=
  ∀ x ∈ n.subtree, n.lines.first ≤ x.lines.first ∧ x.lines.first ≤ x.lines.last ∧
    x.lines.last ≤ n.lines.last

instance (n : Node) : Decidable n.Encloses :=
  inferInstanceAs (Decidable (∀ x ∈ n.subtree,
    n.lines.first ≤ x.lines.first ∧ x.lines.first ≤ x.lines.last ∧ x.lines.last ≤ n.lines.last))

/-- Every node below the root encloses the nodes below it. -/
def Nested (root : Node) : Prop := ∀ c ∈ root.children, ∀ x ∈ c.subtree, x.Encloses

instance (root : Node) : Decidable root.Nested :=
  inferInstanceAs (Decidable (∀ c ∈ root.children, ∀ x ∈ c.subtree, x.Encloses))

theorem ofTrees_eq (source : Array Char) (l : List Grammar.Tree) :
    ofTrees source l = l.map (ofTree source) := by
  induction l with
  | nil => rfl
  | cons t rest ih => rw [ofTrees, ih, List.map_cons]

theorem children_ofTree (source : Array Char) (t : Grammar.Tree) :
    (ofTree source t).children = t.children.map (ofTree source) := by
  cases t
  exact ofTrees_eq source _

theorem lines_ofTree (source : Array Char) (t : Grammar.Tree) :
    (ofTree source t).lines = ⟨t.span.start.line + 1, t.span.stop.line + 1⟩ := by
  cases t
  rfl

theorem encloses_ofTree {source : Array Char} {t : Grammar.Tree} (h : t.Nested) :
    ∀ x ∈ (ofTree source t).subtree, x.Encloses := by
  induction h with
  | @node kind field span children forward inside below ih =>
    intro x hx
    rcases mem_subtree_iff.mp hx with rfl | ⟨c, hc, hx⟩
    · intro y hy
      rcases mem_subtree_iff.mp hy with rfl | ⟨c, hc, hy⟩
      · rw [lines_ofTree]
        exact ⟨Nat.le_refl _, Nat.succ_le_succ forward.line, Nat.le_refl _⟩
      · rw [children_ofTree] at hc
        obtain ⟨t, ht, rfl⟩ := List.mem_map.mp hc
        obtain ⟨hfirst, hboth, hlast⟩ := ih t ht _ (self_mem_subtree _) y hy
        rw [lines_ofTree] at hfirst hlast ⊢
        exact ⟨Nat.le_trans (Nat.succ_le_succ (inside t ht).1.line) hfirst, hboth,
          Nat.le_trans hlast (Nat.succ_le_succ (inside t ht).2.line)⟩
    · rw [children_ofTree] at hc
      obtain ⟨t, ht, rfl⟩ := List.mem_map.mp hc
      exact ih t ht x hx

theorem nested_of_parse {source : String} {root : Node} (h : parse source = some root) :
    root.Nested := by
  obtain ⟨tree, rfl, hnested⟩ := parse_origin h
  intro c hc
  rw [children_ofTree] at hc
  obtain ⟨t, ht, rfl⟩ := List.mem_map.mp hc
  exact encloses_ofTree (hnested t ht)

theorem mem_subtree_of_placed {σ : Type} {inside : σ → Node → Node → σ} {levels : Nat} {s : σ}
    {n : Node} {place : σ × Node} (h : place ∈ n.placed inside levels s) : place.2 ∈ n.subtree := by
  induction levels generalizing s n with
  | zero => cases h
  | succ levels ih =>
    rcases List.mem_cons.mp h with rfl | h
    · exact n.self_mem_subtree
    · obtain ⟨c, hc, h⟩ := List.mem_flatMap.mp h
      exact mem_subtree_of_child hc (ih h)

end Python.Node

/-! ## Names handed down -/

namespace Scope

/-- The node is the definition of a function, and calls in its body are made by
the function of that name. -/
def Names (key : String) (place : Scope × Node) : Prop :=
  place.2.kind = .functionDefinition ∧ place.1.body place.2 = .function (some key)

instance (key : String) (place : Scope × Node) : Decidable (Names key place) :=
  inferInstanceAs (Decidable (_ ∧ _))

/-- The name of a function is handed down, unless it is that of the node. -/
theorem body_eq_function {s : Scope} {n : Node} {key : String}
    (h : s.body n = .function (some key)) : s = .function (some key) ∨ Names key (s, n) := by
  by_cases hkind : n.kind = .functionDefinition
  · exact .inr ⟨hkind, h⟩
  · left
    unfold body at h
    split at h
    · contradiction
    · cases s <;> cases hname : (n.child? .name).map (·.text) <;> simp_all
    · cases h
    · exact h

variable {levels : Nat} {s : Scope} {n : Node} {key : String} {place : Scope × Node}

theorem body_function (hkind : n.kind = .functionDefinition) {name : String}
    (hname : (n.child? .name).map (·.text) = some name) :
    Scope.module.body n = .function (some name) ∧
      ∀ owner, (Scope.classBody owner).body n = .function (some (owner ++ "." ++ name)) := by
  simp [body, hkind, hname]

theorem body_class (hkind : n.kind = .classDefinition) {name : String}
    (hname : (n.child? .name).map (·.text) = some name) :
    Scope.module.body n = .classBody name := by
  simp [body, hkind, hname]

/-- A node in a function is below the definition of a function of that name, or
all of it is in the function. -/
theorem names_of_placed (h : place ∈ n.placed inside levels s)
    (hplace : place.1 = .function (some key)) :
    s = .function (some key) ∨ ∃ d ∈ n.placed inside levels s, Names key d ∧
      place.2 ∈ d.2.subtree := by
  induction levels generalizing s n with
  | zero => cases h
  | succ levels ih =>
    rcases List.mem_cons.mp h with rfl | h
    · exact .inl hplace
    · obtain ⟨c, hc, h⟩ := List.mem_flatMap.mp h
      rcases ih h with hinside | ⟨d, hd, hnames, hmem⟩
      · unfold inside at hinside
        split at hinside
        · rcases body_eq_function hinside with hs | hnames
          · exact .inl hs
          · have hbelow := Node.mem_subtree_of_child hc (Node.mem_subtree_of_placed h)
            exact .inr ⟨(s, n), List.mem_cons_self, hnames, hbelow⟩
        · exact .inl hinside
      · exact .inr ⟨d, List.mem_cons_of_mem _ (List.mem_flatMap.mpr ⟨c, hc, hd⟩), hnames, hmem⟩

theorem placed_child {c : Node} (hc : c ∈ n.children)
    (h : place ∈ c.placed inside levels (s.inside n c)) : place ∈ n.placed inside (levels + 1) s :=
  List.mem_cons_of_mem _ (List.mem_flatMap.mpr ⟨c, hc, h⟩)

theorem placed_succ (h : place ∈ n.placed inside levels s) :
    place ∈ n.placed inside (levels + 1) s := by
  induction levels generalizing s n with
  | zero => cases h
  | succ levels ih =>
    rcases List.mem_cons.mp h with rfl | h
    · exact List.mem_cons_self
    · obtain ⟨c, hc, h⟩ := List.mem_flatMap.mp h
      exact placed_child hc (ih h)

/-- Nodes that define nothing keep the scope. -/
theorem inside_of_kind (h : n.kind = .module ∨ n.kind = .block ∨ n.kind = .decoratedDefinition)
    (s : Scope) (c : Node) : s.inside n c = s := by
  have hbody : s.body n = s := by
    unfold body
    rcases h with h | h | h <;> rw [h]
  unfold inside
  rw [hbody, ite_self]

/-- The definition in a statement has the scope of the statement. -/
theorem placed_core {statement : Node}
    (h : place ∈ (Definition.ofStatement statement).core.placed inside levels s) :
    place ∈ statement.placed inside (levels + 1) s := by
  unfold Definition.ofStatement at h
  split at h
  · rename_i hkind
    cases hdefinition : statement.child? .definition with
    | none =>
      rw [hdefinition] at h
      exact placed_succ h
    | some core =>
      rw [hdefinition] at h
      apply placed_child (Node.mem_children_of_child? hdefinition)
      rw [inside_of_kind (.inr (.inr hkind))]
      exact h
  · exact placed_succ h

end Scope

/-- The definitions of functions in a module that go by a name. -/
def Python.Node.goingBy (root : Node) (key : String) : List Node :=
  ((root.placed Scope.inside (maxDepth + 1) .module).filter
    fun place => Scope.Names key place).map (·.2)

/-- A call by a function of some name is written in a definition that goes by
the name. -/
theorem CallSite.written_in {root : Node} {site : CallSite} (h : site ∈ callSites root)
    {key : String} (hkey : site.caller = some key) :
    ∃ d ∈ root.goingBy key, ∃ call ∈ d.subtree, CallSite.of? (.function (some key)) call =
      some site := by
  obtain ⟨⟨s, call⟩, hplace, hsite⟩ := List.mem_filterMap.mp h
  obtain rfl : s = .function (some key) := by
    simp only [CallSite.of?] at hsite
    split at hsite
    · obtain ⟨callee, _, rfl⟩ := Option.map_eq_some_iff.mp hsite
      cases s <;> simp_all [Scope.caller]
    · cases hsite
  rcases Scope.names_of_placed hplace rfl with hmodule | ⟨d, hd, hnames, hcall⟩
  · cases hmodule
  · exact ⟨d.2, List.mem_map_of_mem (List.mem_filter.mpr ⟨hd, decide_eq_true hnames⟩),
      call, hcall, hsite⟩

theorem CallSite.line_of? {s : Scope} {call : Node} {site : CallSite}
    (h : CallSite.of? s call = some site) : site.line = call.lines.first := by
  unfold CallSite.of? at h
  split at h
  · obtain ⟨callee, _, rfl⟩ := Option.map_eq_some_iff.mp h
    rfl
  · cases h

/-- The node of the whole text is a module, and bodies of classes are blocks. -/
structure Python.Node.Shaped (root : Node) : Prop where
  module : root.kind = .module
  blocks : ∀ n ∈ root.subtree, n.kind = .classDefinition →
    ∀ body ∈ n.child? .body, body.kind = .block

instance (root : Node) : Decidable root.Shaped :=
  decidable_of_iff (root.kind = .module ∧
      ∀ n ∈ root.subtree, n.kind = .classDefinition → ∀ body ∈ n.child? .body, body.kind = .block)
    ⟨fun h => ⟨h.1, h.2⟩, fun h => ⟨h.module, h.blocks⟩⟩

/-- The walk and the table agree on names: a function with a symbol goes by the
name of the symbol. -/
theorem Declared.Origin.mem_goingBy {root : Node} (hroot : root.Shaped) {x : Declared}
    (hx : Origin root x) (hkind : x.kind = .function) :
    x.definition.core ∈ root.goingBy x.name := by
  have hplaced : ∃ s, (s, x.definition.core) ∈ root.placed Scope.inside (maxDepth + 1) .module ∧
      Scope.Names x.name (s, x.definition.core) := by
    cases hx with
    | @function c name hc hfunction hname =>
      refine ⟨.module, ?_, hfunction, ?_⟩
      · apply Scope.placed_child hc
        rw [Scope.inside_of_kind (.inl hroot.module)]
        exact Scope.placed_core List.mem_cons_self
      · exact (Scope.body_function hfunction hname).1
    | classDef _ _ _ => cases hkind
    | @member c body inner owner name hc hclass howner hbody hinner hfunction hname =>
      refine ⟨.classBody owner, ?_, hfunction, ?_⟩
      · apply Scope.placed_child hc
        rw [Scope.inside_of_kind (.inl hroot.module)]
        apply Scope.placed_core
        apply Scope.placed_child (Node.mem_children_of_child? hbody)
        -- the body is inside the class, and a block adds nothing to that
        have hfield : body.field = some .body := by simpa using List.find?_some hbody
        have hcore := Node.mem_subtree_of_child hc (Definition.core_mem_subtree c)
        have hblock := hroot.blocks _ hcore hclass body hbody
        rw [Scope.inside, if_pos hfield, Scope.body_class hclass howner]
        apply Scope.placed_child hinner
        rw [Scope.inside_of_kind (.inr (.inl hblock))]
        exact Scope.placed_core List.mem_cons_self
      · exact (Scope.body_function hfunction hname).2 owner
  obtain ⟨s, hplaced, hnames⟩ := hplaced
  exact List.mem_map.mpr ⟨(s, _), List.mem_filter.mpr ⟨hplaced, decide_eq_true hnames⟩, rfl⟩

/-! ## Callers -/

namespace ModuleRecord

/-- The symbol is that of the last function of a name, and comes from a
definition in the tree. -/
structure LastFunction (m : ModuleRecord) (root : Node) (key : String) (s : Symbol)
    (x : Declared) : Prop where
  mem : s ∈ m.symbols
  last : m.lastSymbol .function key = some s.id
  declared : x ∈ Declared.ofModule root
  symbol : s = x.symbol m.id s.id
  kind : x.kind = .function
  name : x.name = key

/-- Calls in a tree are ascribed to functions of a record by name, whatever
resolves them. The caller of an edge is the last function of the name that the
definition around the call goes by. If that function is the only definition
that goes by the name, then the call is on its lines. In a tree that is shaped
as usual it is one of those that go by the name. -/
def AttributesByName (m : ModuleRecord) (root : Node) : Prop :=
  ∀ (r : CallResolver), ∀ site ∈ callSites root, ∀ e, r.resolveSite m site = some e →
    ∃ key s x, site.caller = some key ∧ s.id = e.caller ∧ m.LastFunction root key s x ∧
      (∃ d ∈ root.goingBy key, ∃ call ∈ d.subtree,
        CallSite.of? (.function (some key)) call = some site) ∧
      ((∀ d ∈ root.goingBy key, d = x.definition.core) →
        s.lineRange.first ≤ site.line ∧ site.line ≤ s.lineRange.last) ∧
      (root.Shaped → x.definition.core ∈ root.goingBy key)

variable {id : ModuleId} {path dotted language : String} {roleTags : NameSet} {h : HeuristicsConfig}
  {index : RepoIndex}
  {root : Node}

theorem exists_lastFunction {key : String} {caller : SymbolId}
    (hcaller :
      ((skeleton id path dotted language roleTags).fill h index root).functions.get? key =
        some caller) :
    ∃ s x, s.id = caller ∧
      ((skeleton id path dotted language roleTags).fill h index root).LastFunction
        root key s x := by
  have hlast :=
    (fill_tabulated (skeleton_tabulated id path dotted language roleTags)).functions key ▸ hcaller
  obtain ⟨s, hs, rfl, hkind, rfl⟩ := mem_of_lastSymbol hlast
  have hmem := hs
  rw [fill_skeleton_symbols] at hmem
  rcases List.mem_cons.mp hmem with rfl | hmem
  · cases hkind
  · obtain ⟨⟨x, n⟩, hx, rfl⟩ := List.mem_map.mp hmem
    have hdeclared : x ∈ Declared.ofModule root := by
      rw [← map_fst_numbered (skeleton id path dotted language roleTags)]
      exact List.mem_map_of_mem hx
    refine ⟨_, x, rfl, hs, hlast, hdeclared, ?_, hkind, rfl⟩
    rw [fill_sameFile.id]
    rfl

/-- A call in the definition of a function is on the lines of the function. -/
theorem LastFunction.line_within {m : ModuleRecord} {key : String} {s : Symbol} {x : Declared}
    (hs : m.LastFunction root key s x) (hnested : root.Nested) {call : Node}
    (hcall : call ∈ x.definition.core.subtree) :
    s.lineRange.first ≤ call.lines.first ∧ call.lines.first ≤ s.lineRange.last := by
  obtain ⟨c, hc, statement, hstatement, hdefinition⟩ :=
    (Declared.origin_of_mem hs.declared).statement
  have hsame : x.definition.statement = statement := by
    rw [hdefinition]
    exact Definition.statement_ofStatement statement
  have hbelow : call ∈ statement.subtree :=
    Node.mem_subtree_trans (Definition.core_mem_subtree statement) (hdefinition ▸ hcall)
  obtain ⟨hfirst, hboth, hlast⟩ := hnested c hc statement hstatement call hbelow
  rw [hs.symbol]
  change x.definition.statement.lines.first ≤ _ ∧ _ ≤ x.definition.statement.lines.last
  rw [hsame]
  exact ⟨hfirst, Nat.le_trans hboth hlast⟩

theorem fill_attributesByName (hnested : root.Nested) :
    ((skeleton id path dotted language roleTags).fill h index root).AttributesByName root := by
  intro r site hsite e he
  obtain ⟨key, caller, target, hkey, hcaller, _, _, rfl⟩ :=
    CallResolver.resolveSite_eq_some_iff.mp he
  obtain ⟨s, x, rfl, hlast⟩ := exists_lastFunction hcaller
  obtain ⟨d, hd, call, hcall, hof⟩ := CallSite.written_in hsite hkey
  refine ⟨key, s, x, hkey, rfl, hlast, ⟨d, hd, call, hcall, hof⟩, ?_, ?_⟩
  · intro honly
    rw [CallSite.line_of? hof]
    exact hlast.line_within hnested (honly d hd ▸ hcall)
  · intro hshaped
    rw [← hlast.name]
    exact (Declared.origin_of_mem hlast.declared).mem_goingBy hshaped hlast.kind

/-- **Calls are ascribed by name.** In the record of any file, filled from a
tree whose nodes cover the nodes below them, or from any text that can be
parsed, the caller of an edge is the last function that has the name by which
the definition around the call goes. The call is on the lines of that function
if no other definition goes by the name: a definition under a condition, an
earlier one of the same name, or the getter of a property that has a setter is
another one. -/
theorem extract_attributesByName (root : Node) (id : ModuleId) (path dotted language : String)
    (roleTags : NameSet) (h : HeuristicsConfig) (index : RepoIndex) :
    (root.Nested →
      ((skeleton id path dotted language roleTags).fill h index root).AttributesByName root) ∧
      ∀ source, parse source = some root →
        ((skeleton id path dotted language roleTags).extract h index
          source).AttributesByName root := by
  refine ⟨fill_attributesByName, ?_⟩
  intro source hparse
  rw [extract_of_parse hparse]
  exact fill_attributesByName (Node.nested_of_parse hparse)

/-- A function that is defined twice, the first time under a condition and with
a call of another function. -/
def conditionalTree : Node := .mk .module none "" ⟨1, 9⟩
  [.mk (.other "if_statement") none "" ⟨1, 3⟩ [nameNode (some (.other "condition")) "x" 1,
      .mk .block (some (.other "consequence")) "" ⟨2, 3⟩
        [functionNode none "f" 2 3 [callNode "g" 3]]],
    functionNode none "f" 5 6 [], functionNode none "g" 8 9 []]

def conditionalRecord : ModuleRecord := (skeleton 1 "m.py" "m" "py" {}).fill {} {} conditionalTree

/-- A call in a definition under a condition is ascribed to the other
definition, which is on other lines. -/
theorem conditional_call_ascribed_elsewhere : conditionalTree.Nested ∧ conditionalTree.Shaped ∧
    ∃ site ∈ callSites conditionalTree, site.line = 3 ∧
      (CallResolver.ofModules (.ofList [("m.py", conditionalRecord)])).resolveSite conditionalRecord
        site = some ⟨2, 1, 3⟩ ∧
      ∃ s ∈ conditionalRecord.symbols, s.id = 2 ∧ s.lineRange = ⟨5, 6⟩ := by
  decide +kernel

/-- What the class calls is resolved in the module of the class alone. -/
def serviceResolver : CallResolver := .ofModules (.ofList [("service.py", serviceRecord)])

/-- Only one definition goes by the name of the method, so the call in it is
ascribed to the lines that it is on. -/
theorem method_call_ascribed_to_method :
    serviceTree.Nested ∧ (serviceTree.goingBy "Service.close").length = 1 ∧
    ⟨some "Service.close", .plain "load", 9⟩ ∈ callSites serviceTree ∧
    serviceResolver.resolveSite serviceRecord ⟨some "Service.close", .plain "load", 9⟩ =
      some ⟨5, 1, 7⟩ ∧
    ∃ s ∈ serviceRecord.symbols, s.id = 5 ∧ s.lineRange.first ≤ 9 ∧ 9 ≤ s.lineRange.last := by
  have hnested : serviceTree.Nested := by decide +kernel
  have hshaped : serviceTree.Shaped := by decide +kernel
  have hone : (serviceTree.goingBy "Service.close").length = 1 := by decide +kernel
  have hsite : ⟨some "Service.close", .plain "load", 9⟩ ∈ callSites serviceTree := by decide +kernel
  have hedge : serviceResolver.resolveSite serviceRecord ⟨some "Service.close", .plain "load", 9⟩ =
      some ⟨5, 1, 7⟩ := by
    decide +kernel
  refine ⟨hnested, hone, hsite, hedge, ?_⟩
  obtain ⟨key, s, x, hkey, hid, hlast, _, hwithin, hgoing⟩ :=
    (extract_attributesByName serviceTree 1 "service.py" "service" "py" {} {} {}).1 hnested
      serviceResolver _ hsite _ hedge
  cases hkey
  obtain ⟨only, honly⟩ := List.length_eq_one_iff.mp hone
  have hcore := hgoing hshaped
  rw [honly, List.mem_singleton] at hcore
  refine ⟨s, hlast.mem, hid, hwithin ?_⟩
  intro d hd
  rw [honly, List.mem_singleton] at hd
  exact hd.trans hcore.symm

end ModuleRecord

end CodeAtlas
