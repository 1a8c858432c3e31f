import CodeAtlas.Proofs.Scanned

/-! # Symbols and tables mirror each other

The definitions of a module are listed in source order, each class in front of
its members. Symbols are numbered by their places in that list, and the tables
are filled from the same list, so that of several definitions of one name the
last one is in the table. Names of members are the only ones with a dot in
them, apart from the name of the file, which the anchor of the module carries.
-/
namespace CodeAtlas

open Python

/-! ## Nodes below a node -/

namespace Python.Node

mutual

/-- A node and all nodes below it, in source order. -/
def subtree : Node → List Node
  | .mk kind field text lines children => .mk kind field text lines children :: subtrees children

/-- The nodes of several trees. -/
def subtrees : List Node → List Node
  | [] => []
  | c :: rest => c.subtree ++ subtrees rest

end

theorem subtrees_eq (l : List Node) : subtrees l = l.flatMap subtree := by
  induction l with
  | nil => rfl
  | cons c rest ih => rw [subtrees, ih, List.flatMap_cons]

theorem mem_subtree_iff {n x : Node} : x ∈ n.subtree ↔ x = n ∨ ∃ c ∈ n.children, x ∈ c.subtree := by
  cases n with
  | mk kind field text lines children =>
    rw [subtree, List.mem_cons, subtrees_eq, List.mem_flatMap]; rfl

theorem self_mem_subtree (n : Node) : n ∈ n.subtree := mem_subtree_iff.mpr (.inl rfl)

theorem mem_subtree_of_child {n c x : Node} (hc : c ∈ n.children) (hx : x ∈ c.subtree) :
    x ∈ n.subtree :=
  mem_subtree_iff.mpr (.inr ⟨c, hc, hx⟩)

/-- What holds of a node whenever it holds of its children holds of every node. -/
theorem of_children {P : Node → Prop} (step : ∀ n : Node, (∀ c ∈ n.children, P c) → P n)
    (n : Node) : P n := by
  apply step
  intro c hc
  have hsize : sizeOf c < sizeOf n := by
    cases n with
    | mk kind field text lines children =>
      have hlt : sizeOf c < sizeOf children := List.sizeOf_lt_of_mem hc
      rw [mk.sizeOf_spec]
      omega
  exact of_children step c
termination_by sizeOf n

theorem mem_subtree_trans {n x y : Node} (hx : x ∈ n.subtree) (hy : y ∈ x.subtree) :
    y ∈ n.subtree := by
  induction n using of_children with
  | step n ih =>
    rcases mem_subtree_iff.mp hx with rfl | ⟨c, hc, hx⟩
    · exact hy
    · exact mem_subtree_of_child hc (ih c hc hx)

theorem child_mem_subtree {n c : Node} {f : Field} (h : n.child? f = some c) : c ∈ n.subtree :=
  mem_subtree_of_child (mem_children_of_child? h) c.self_mem_subtree

/-- Names of definitions are identifiers, and no identifier has a dot in it. -/
structure PlainlyNamed (root : Node) : Prop where
  named : ∀ n ∈ root.subtree, n.kind = .functionDefinition ∨ n.kind = .classDefinition →
    ∀ c ∈ n.child? .name, c.kind = .identifier
  undotted : ∀ n ∈ root.subtree, n.kind = .identifier → '.' ∉ n.text.toList

instance (root : Node) : Decidable root.PlainlyNamed :=
  decidable_of_iff ((∀ n ∈ root.subtree, n.kind = .functionDefinition ∨ n.kind = .classDefinition →
      ∀ c ∈ n.child? .name, c.kind = .identifier) ∧
      ∀ n ∈ root.subtree, n.kind = .identifier → '.' ∉ n.text.toList)
    ⟨fun h => ⟨h.1, h.2⟩, fun h => ⟨h.named, h.undotted⟩⟩

end Python.Node

theorem Python.Definition.core_mem_subtree (statement : Node) :
    (Definition.ofStatement statement).core ∈ statement.subtree := by
  unfold ofStatement
  split
  · cases hc : statement.child? .definition with
    | none => exact statement.self_mem_subtree
    | some c => exact Node.mem_subtree_of_child (Node.mem_children_of_child? hc) c.self_mem_subtree
  · exact statement.self_mem_subtree

theorem Python.Definition.statement_ofStatement (statement : Node) :
    (Definition.ofStatement statement).statement = statement := by
  unfold ofStatement
  split <;> rfl

/-! ## The list of definitions -/

namespace Declared

/-- No name that a definition is made of has a dot in it. -/
def Plain : Declared → Prop
  | .classDef name _ => '.' ∉ name.toList
  | .member owner name _ => '.' ∉ owner.toList ∧ '.' ∉ name.toList
  | .function name _ => '.' ∉ name.toList

theorem eq_of_append_dot {a b c d : String} (hc : '.' ∉ c.toList) (hd : '.' ∉ d.toList)
    (h : a ++ "." ++ b = c ++ "." ++ d) : a = c := by
  have hlist : a.toList ++ '.' :: b.toList = c.toList ++ '.' :: d.toList := by
    simpa using congrArg String.toList h
  apply String.toList_inj.mp
  rcases List.append_eq_append_iff.mp hlist with ⟨more, hmore, hrest⟩ | ⟨more, hmore, hrest⟩
  · cases more with
    | nil => simpa using hmore.symm
    | cons x more =>
      obtain ⟨rfl, -⟩ := List.cons.inj hrest
      exact absurd (hmore ▸ by simp) hc
  · cases more with
    | nil => simpa using hmore
    | cons x more =>
      obtain ⟨rfl, hd'⟩ := List.cons.inj hrest
      exact absurd (hd' ▸ by simp) hd

/-- A definition with a dot in its name is a member. -/
theorem member_of_dotted {x : Declared} (hplain : x.Plain) {owner member : String}
    (h : x.name = owner ++ "." ++ member) : ∃ name d, x = .member owner name d := by
  cases x with
  | classDef name d =>
    obtain rfl : name = owner ++ "." ++ member := h
    simp [Plain] at hplain
  | member own name d =>
    rw [eq_of_append_dot hplain.1 hplain.2 h.symm]
    exact ⟨name, d, rfl⟩
  | function name d =>
    obtain rfl : name = owner ++ "." ++ member := h
    simp [Plain] at hplain

theorem name_undotted {root : Node} (hroot : root.PlainlyNamed) {d : Definition}
    (hcore : d.core ∈ root.subtree)
    (hkind : d.core.kind = .functionDefinition ∨ d.core.kind = .classDefinition) {name : String}
    (hname : d.name? = some name) : '.' ∉ name.toList := by
  obtain ⟨c, hc, rfl⟩ := Option.map_eq_some_iff.mp hname
  exact hroot.undotted c (Node.mem_subtree_trans hcore (Node.child_mem_subtree hc))
    (hroot.named d.core hcore hkind c hc)

/-- The kind, name and lines of the class or function that a statement defines. -/
def outline? (statement : Node) : Option (SymbolKind × String × LineRange) :=
  let d := Definition.ofStatement statement
  let lines : LineRange := ⟨statement.lines.first, statement.lines.last⟩
  d.name?.bind fun name =>
    if d.core.kind = .classDefinition then some (.classDef, name, lines)
    else if d.core.kind = .functionDefinition then some (.function, name, lines)
    else none

/-- What a statement declares: nothing, a function, or a class with its members
behind it. -/
theorem ofStatement_cases (statement : Node) :
    (ofStatement statement = [] ∧ outline? statement = none) ∨
    (∃ name d, d = Definition.ofStatement statement ∧ d.core.kind = .functionDefinition ∧
      d.name? = some name ∧
      ofStatement statement = [.function name d]) ∨
    ∃ name d, d = Definition.ofStatement statement ∧ d.core.kind = .classDefinition ∧
      d.name? = some name ∧
      ofStatement statement = .classDef name d ::
        (ClassBody.members d.core).filterMap fun m => m.name?.map fun member =>
          .member name member m := by
  cases hname : (Definition.ofStatement statement).name? with
  | none => exact .inl ⟨by simp [ofStatement, hname], by simp [outline?, hname]⟩
  | some name =>
    by_cases hclass : (Definition.ofStatement statement).core.kind = .classDefinition
    · exact .inr (.inr ⟨name, _, rfl, hclass,
        hname, by simp [ofStatement, hname, Definition.isClass, hclass]⟩)
    · by_cases hfunction : (Definition.ofStatement statement).core.kind = .functionDefinition
      · exact .inr (.inl ⟨name, _, rfl, hfunction, hname,
          by simp [ofStatement, hname, Definition.isClass, Definition.isFunction, hfunction]⟩)
      · exact .inl
          ⟨by simp [ofStatement, hname, Definition.isClass, Definition.isFunction, hclass,
              hfunction],
            by simp [outline?, hname, hclass, hfunction]⟩

/-- A member of a class comes from a statement in its body. -/
theorem of_mem_members {definition : Node} {m : Definition} (h : m ∈ ClassBody.members definition) :
    ∃ body statement, definition.child? .body = some body ∧ statement ∈ body.children ∧
      m = Definition.ofStatement statement ∧ m.core.kind = .functionDefinition := by
  obtain ⟨hm, hfunction⟩ := List.mem_filter.mp h
  obtain ⟨statement, hstatement, rfl⟩ := List.mem_map.mp hm
  unfold ClassBody.statements at hstatement
  cases hbody : definition.child? .body with
  | none => rw [hbody] at hstatement; cases hstatement
  | some body =>
    rw [hbody] at hstatement
    exact ⟨body, statement, rfl, hstatement, rfl, of_decide_eq_true hfunction⟩

/-- Where a definition of a module is written: a statement of the module, or a
statement in the body of a class that is such a statement. -/
inductive Origin (root : Node) : Declared → Prop
  | function {c : Node} {name : String} : c ∈ root.children →
      (Definition.ofStatement c).core.kind = .functionDefinition →
      (Definition.ofStatement c).name? = some name → Origin root (.function name (.ofStatement c))
  | classDef {c : Node} {name : String} : c ∈ root.children →
      (Definition.ofStatement c).core.kind = .classDefinition →
      (Definition.ofStatement c).name? = some name → Origin root (.classDef name (.ofStatement c))
  | member {c body inner : Node} {owner name : String} : c ∈ root.children →
      (Definition.ofStatement c).core.kind = .classDefinition →
        (Definition.ofStatement c).name? = some owner →
      (Definition.ofStatement c).core.child? .body = some body → inner ∈ body.children →
      (Definition.ofStatement inner).core.kind = .functionDefinition →
        (Definition.ofStatement inner).name? = some name →
      Origin root (.member owner name (.ofStatement inner))

theorem origin_of_mem {root : Node} {x : Declared} (hx : x ∈ ofModule root) : Origin root x := by
  obtain ⟨statement, hstatement, hx⟩ := List.mem_flatMap.mp hx
  rcases ofStatement_cases statement with
    ⟨h, _⟩ | ⟨name, d, rfl, hkind, hname, h⟩ | ⟨name, d, rfl, hkind, hname, h⟩
  · rw [h] at hx
    cases hx
  · rw [h, List.mem_singleton] at hx
    rw [hx]
    exact .function hstatement hkind hname
  · rw [h, List.mem_cons, List.mem_filterMap] at hx
    rcases hx with rfl | ⟨m, hm, hx⟩
    · exact .classDef hstatement hkind hname
    · obtain ⟨member, hmember, rfl⟩ := Option.map_eq_some_iff.mp hx
      obtain ⟨body, inner, hbody, hinner, rfl, hfunction⟩ := of_mem_members hm
      exact .member hstatement hkind hname hbody hinner hfunction hmember

/-- The statement of a definition stands in one of the statements of
the module. -/
theorem Origin.statement {root : Node} {x : Declared} (h : Origin root x) :
    ∃ c ∈ root.children, ∃ statement ∈ c.subtree,
      x.definition = Definition.ofStatement statement := by
  cases h with
  | @function c _ hc _ _ | @classDef c _ hc _ _ => exact ⟨c, hc, c, c.self_mem_subtree, rfl⟩
  | @member c _ inner _ _ hc _ _ hbody hinner _ _ =>
    have hbodyTree :=
      Node.mem_subtree_trans (Definition.core_mem_subtree c) (Node.child_mem_subtree hbody)
    exact ⟨c, hc, inner,
      Node.mem_subtree_trans hbodyTree (Node.mem_subtree_of_child hinner inner.self_mem_subtree),
      rfl⟩

theorem ofModule_plain {root : Node} (hroot : root.PlainlyNamed) {x : Declared}
    (hx : x ∈ ofModule root) : x.Plain := by
  have horigin := origin_of_mem hx
  obtain ⟨c, hc, statement, hstatement, hdefinition⟩ := horigin.statement
  have hcore : x.definition.core ∈ root.subtree := by
    rw [hdefinition]
    exact Node.mem_subtree_of_child hc
      (Node.mem_subtree_trans hstatement (Definition.core_mem_subtree statement))
  cases horigin with
  | function _ hkind hname => exact name_undotted hroot hcore (.inl hkind) hname
  | classDef _ hkind hname => exact name_undotted hroot hcore (.inr hkind) hname
  | member hclass hkind howner _ _ hfunction hname =>
    have howner' := Node.mem_subtree_of_child hclass (Definition.core_mem_subtree _)
    exact ⟨name_undotted hroot howner' (.inr hkind) howner,
      name_undotted hroot hcore (.inl hfunction) hname⟩

theorem member_in_statement {statement : Node} {front back : List Declared} {owner name : String}
    {d : Definition} (h : ofStatement statement = front ++ .member owner name d :: back) :
    ∃ c between, front = .classDef owner c :: between ∧
      ∀ x ∈ between, ∃ n m, x = .member owner n m := by
  rcases ofStatement_cases statement with ⟨he, _⟩ | ⟨_, _, _, _, _, he⟩ | ⟨own, c, _, _, _, he⟩
  · simp [he] at h
  · rw [he] at h
    cases front <;> simp at h
  · rw [he] at h
    cases front with
    | nil => cases h
    | cons first between =>
      rw [List.cons_append, List.cons.injEq] at h
      obtain ⟨hfirst, hrest⟩ := h
      have hmember : ∀ x ∈ between ++ .member owner name d :: back, ∃ n m, x = .member own n m := by
        intro x hx
        rw [← hrest] at hx
        obtain ⟨m, _, hm⟩ := List.mem_filterMap.mp hx
        obtain ⟨n, _, rfl⟩ := Option.map_eq_some_iff.mp hm
        exact ⟨n, m, rfl⟩
      obtain ⟨_, _, howner⟩ := hmember (.member owner name d) (by simp)
      cases howner
      exact ⟨c, between, by rw [← hfirst], fun x hx => hmember x (by simp [hx])⟩

/-- In the list of definitions a member stands behind its class, with only
members of that class between them. -/
theorem member_behind_class {statements : List Node} {front back : List Declared}
    {owner name : String} {d : Definition}
    (h : statements.flatMap ofStatement = front ++ .member owner name d :: back) :
    ∃ before c between, front = before ++ .classDef owner c :: between ∧
      ∀ x ∈ between, ∃ n m, x = .member owner n m := by
  induction statements generalizing front with
  | nil => simp at h
  | cons statement rest ih =>
    rw [List.flatMap_cons] at h
    rcases List.append_eq_append_iff.mp h with ⟨more, hfront, hmore⟩ | ⟨more, hblock, hrest⟩
    · -- the member is declared by a later statement
      obtain ⟨before, c, between, hbefore, hbetween⟩ := ih hmore
      exact ⟨ofStatement statement ++ before, c,
        between, by rw [hfront, hbefore, List.append_assoc], hbetween⟩
    · cases more with
      | nil =>
        obtain ⟨before, c, between, hbefore, _⟩ := @ih [] hrest.symm
        simp at hbefore
      | cons x more =>
        obtain ⟨rfl, -⟩ := List.cons.inj hrest
        obtain ⟨c, between, hfront, hbetween⟩ := member_in_statement hblock
        exact ⟨[], c, between, hfront, hbetween⟩

end Declared

/-! ## Tables read off the symbols -/

namespace ModuleRecord

/-- The number of the last symbol of a kind and a name. -/
def lastSymbol (m : ModuleRecord) (kind : SymbolKind) (name : String) : Option SymbolId :=
  ((m.symbols.filter fun s => s.kind = kind ∧ s.name = name).getLast?).map (·.id)

/-- The tables hold the last function and the last property of every name, and
nothing else. -/
structure Tabulated (m : ModuleRecord) : Prop where
  functions : ∀ name, m.functions.get? name = m.lastSymbol .function name
  properties : ∀ name, m.properties.get? name = m.lastSymbol .property name

theorem skeleton_tabulated (id : ModuleId) (path dotted language : String) (roleTags : NameSet) :
    (skeleton id path dotted language roleTags).Tabulated := ⟨fun _ => rfl, fun _ => rfl⟩

variable {m : ModuleRecord} {h : HeuristicsConfig} {index : RepoIndex} {root : Node}

/-- What filling a record adds to its symbols, tables and routes. -/
theorem fill_numbered (m : ModuleRecord) (h : HeuristicsConfig) (index : RepoIndex) (root : Node) :
    (m.fill h index root).symbols = m.symbols ++
      (m.numbered root).map (fun e => e.1.symbol m.id e.2) ∧
      (m.fill h index root).functions =
        m.functions.insertMany ((m.numbered root).filterMap fun e => e.1.tableEntry .function e.2) ∧
      (m.fill h index root).properties =
        m.properties.insertMany ((m.numbered root).filterMap fun e =>
          e.1.tableEntry .property e.2) ∧
      (m.fill h index root).routes = m.routes ++ (m.numbered root).flatMap fun e =>
        e.1.routes h e.2 := by
  unfold fill
  obtain ⟨table, ht, _⟩ := trackReexports_eq _ _
  rw [ht]
  exact ⟨rfl, rfl, rfl, rfl⟩

/-- A table that gains the entries of numbered definitions gains their last
symbols. -/
theorem get?_tableEntries (l : List (Declared × SymbolId)) (kind : SymbolKind) (name : String)
    (module : ModuleId) :
    (l.filterMap fun e => e.1.tableEntry kind e.2).reverse.lookup name =
      (((l.map fun e => e.1.symbol module e.2).filter fun s => s.kind = kind ∧
        s.name = name).getLast?).map (·.id) := by
  have hentries : (l.filterMap fun e => e.1.tableEntry kind e.2).filter (·.1 = name) =
      (l.filter fun e => e.1.kind = kind ∧ e.1.name = name).map fun e => (e.1.name, e.2) := by
    induction l with
    | nil => rfl
    | cons e rest ih =>
      have hentry : e.1.tableEntry kind e.2 =
          if e.1.kind = kind then some (e.1.name, e.2) else none := rfl
      rw [List.filterMap_cons, hentry, List.filter_cons]
      by_cases hkind : e.1.kind = kind <;> by_cases hname : e.1.name = name <;>
        simp [-Bool.decide_and, hkind, hname, ih]
  have hsymbols :
      (l.map fun e => e.1.symbol module e.2).filter (fun s => s.kind = kind ∧ s.name = name) =
      (l.filter fun e => e.1.kind = kind ∧ e.1.name = name).map fun e => e.1.symbol module e.2 := by
    rw [List.filter_map]
    rfl
  rw [Dict.lookup_reverse_eq, hentries, hsymbols, List.getLast?_map, List.getLast?_map,
    Option.map_map, Option.map_map]
  rfl

theorem fill_tabulated (hm : m.Tabulated) : (m.fill h index root).Tabulated := by
  obtain ⟨hsymbols, hfunctions, hproperties, _⟩ := fill_numbered m h index root
  have hlast : ∀ kind name, (m.fill h index root).lastSymbol kind name =
      (((m.numbered root).filterMap fun e => e.1.tableEntry kind e.2).reverse.lookup name).or
        (m.lastSymbol kind name) := by
    intro kind name
    rw [lastSymbol, hsymbols, List.filter_append, List.getLast?_append, Option.map_or,
      get?_tableEntries _ _ _ m.id]
    rfl
  refine ⟨fun name => ?_, fun name => ?_⟩
  · rw [hfunctions, Dict.get?_insertMany, hm.functions, hlast]
  · rw [hproperties, Dict.get?_insertMany, hm.properties, hlast]

/-- What a table leads to is a symbol of the name and the kind. -/
theorem mem_of_lastSymbol {kind : SymbolKind} {name : String} {id : SymbolId}
    (h : m.lastSymbol kind name = some id) :
    ∃ s ∈ m.symbols, s.id = id ∧ s.kind = kind ∧ s.name = name := by
  obtain ⟨s, hs, hid⟩ := Option.map_eq_some_iff.mp h
  obtain ⟨hmem, hs⟩ := List.mem_filter.mp (List.mem_of_getLast? hs)
  obtain ⟨hkind, hname⟩ := of_decide_eq_true hs
  exact ⟨s, hmem, hid, hkind, hname⟩

/-! ## What a filled record looks like -/

/-- The list in front of a symbol ends in a class and members of that class. -/
def BehindClass (front : List Symbol) (owner : String) : Prop :=
  ∃ before c between, front = before ++ c :: between ∧ c.kind = .classDef ∧ c.name = owner ∧
    ∀ x ∈ between, (x.kind = .function ∨ x.kind = .property) ∧ ∃ name, x.name = owner ++ "." ++ name

/-- The record of a module numbered `id` mirrors the syntax tree of the module:
symbols are numbered by their places, the tables lead to the last symbol of
each name, members stand behind their classes, what is defined at module level
comes in source order, and routes belong to functions at module level. -/
structure Mirrored (m : ModuleRecord) (id : ModuleId) (root : Node) : Prop where
  ids : m.symbols.map (·.id) = List.range' 1 m.symbols.length
  owned : ∀ s ∈ m.symbols, s.moduleId = id
  anchor :
    ∃ rest,
      m.symbols =
        { moduleId := id, id := anchorId, kind := .module, name := Path.fileStem m.path } :: rest ∧
      ∀ s ∈ rest, s.kind ≠ .module
  tables : m.Tabulated
  members : ∀ front s back owner member, m.symbols = front ++ s :: back → s.kind ≠ .module →
    s.name = owner ++ "." ++ member → BehindClass front owner
  topLevel : (m.symbols.filter fun s => s.kind ≠ .module ∧ '.' ∉ s.name.toList).map
    (fun s => (s.kind, s.name, s.lineRange)) = root.children.filterMap Declared.outline?
  routes : ∀ r ∈ m.routes, ∃ s ∈ m.symbols, s.id = r.symbol ∧ s.kind = .function ∧
    '.' ∉ s.name.toList

/-- Of what a statement declares, only the class or function itself has a name
without a dot. -/
theorem outline_ofStatement {statement : Node}
    (hplain : ∀ x ∈ Declared.ofStatement statement, x.Plain) :
    ((Declared.ofStatement statement).filter fun x => '.' ∉ x.name.toList).map
      (fun x =>
        (x.kind, x.name,
          (⟨x.definition.statement.lines.first, x.definition.statement.lines.last⟩ : LineRange))) =
      (Declared.outline? statement).toList := by
  have hstatement := Definition.statement_ofStatement statement
  rcases Declared.ofStatement_cases statement with ⟨he, hnone⟩ | ⟨name, d, rfl, hkind, hname, he⟩ |
      ⟨name, d, rfl, hkind, hname, he⟩
  · rw [he, hnone]
    rfl
  · rw [he] at hplain ⊢
    have hname' : '.' ∉ name.toList := hplain _ (List.mem_singleton_self _)
    have hout : Declared.outline? statement =
        some (.function, name, ⟨statement.lines.first, statement.lines.last⟩) := by
      simp [Declared.outline?, hname, hkind]
    rw [hout]
    simp [Declared.name, Declared.kind, Declared.definition, hname', hstatement]
  · rw [he] at hplain ⊢
    have hname' : '.' ∉ name.toList := hplain _ List.mem_cons_self
    have hout : Declared.outline? statement =
        some (.classDef, name, ⟨statement.lines.first, statement.lines.last⟩) := by
      simp [Declared.outline?, hname, hkind]
    have hmembers : ((ClassBody.members (Definition.ofStatement statement).core).filterMap fun m =>
        m.name?.map fun member => Declared.member name member m).filter (fun x =>
          '.' ∉ x.name.toList) = [] := by
      rw [List.filter_eq_nil_iff]
      intro x hx
      obtain ⟨m, _, hm⟩ := List.mem_filterMap.mp hx
      obtain ⟨member, _, rfl⟩ := Option.map_eq_some_iff.mp hm
      simp [Declared.name]
    rw [hout, List.filter_cons, hmembers]
    simp [Declared.name, Declared.kind, Declared.definition, hname', hstatement]

theorem extract_of_parse {source : String} (hparse : parse source = some root) :
    m.extract h index source = m.fill h index root := by
  unfold extract
  rw [hparse]

theorem kind_ne_module (x : Declared) : x.kind ≠ .module := by
  cases x with
  | member _ _ d => simp only [Declared.kind]; split <;> simp
  | _ => simp [Declared.kind]

theorem map_fst_numbered (m : ModuleRecord) (root : Node) :
    (m.numbered root).map (·.1) = Declared.ofModule root :=
  List.zipIdx_map_fst _ _

/-- A route belongs to the symbol it is made for. -/
theorem Route.ofDecorator_symbol {h : HeuristicsConfig} {id : SymbolId} {decorator : Node}
    {r : Route} (hr : Route.ofDecorator h id decorator = some r) : r.symbol = id := by
  unfold Route.ofDecorator at hr
  obtain ⟨call, _, hr⟩ := Option.bind_eq_some_iff.mp hr
  have hmade : ∀ {verb : String} {path : Option String},
      path.map (fun p => (⟨id, verb, p, h.defaultStatusCodes⟩ : Route)) = some r →
        r.symbol = id := by
    intro verb path hmap
    obtain ⟨p, _, rfl⟩ := Option.map_eq_some_iff.mp hmap
    rfl
  split at hr
  · cases hr
  · obtain ⟨function, _, hr⟩ := Option.bind_eq_some_iff.mp hr
    obtain ⟨segments, _, hr⟩ := Option.bind_eq_some_iff.mp hr
    obtain ⟨arguments, _, hr⟩ := Option.bind_eq_some_iff.mp hr
    split at hr
    · split at hr
      · exact hmade hr
      · split at hr
        · exact hmade hr
        · cases hr
    · split at hr
      · exact hmade hr
      · cases hr
    · cases hr

variable {id : ModuleId} {path dotted language : String} {roleTags : NameSet}

theorem fill_skeleton_symbols :
    ((skeleton id path dotted language roleTags).fill h index root).symbols =
    { moduleId := id, id := anchorId, kind := .module, name := Path.fileStem path } ::
      ((skeleton id path dotted language roleTags).numbered root).map fun e => e.1.symbol id e.2 :=
  (fill_numbered _ h index root).1

theorem fill_members (hroot : root.PlainlyNamed) {front back : List Symbol} {s : Symbol}
    {owner member : String}
    (hs : ((skeleton id path dotted language roleTags).fill h index root).symbols =
      front ++ s :: back)
    (hkind : s.kind ≠ .module) (hname : s.name = owner ++ "." ++ member) :
    BehindClass front owner := by
  rw [fill_skeleton_symbols] at hs
  cases front with
  | nil =>
    obtain ⟨rfl, -⟩ := List.cons.inj hs
    exact absurd rfl hkind
  | cons first front =>
    obtain ⟨-, hs⟩ := List.cons.inj hs
    obtain ⟨before, after, hnumbered, hfront, hafter⟩ := List.map_eq_append_iff.mp hs
    obtain ⟨⟨x, n⟩, rest, rfl, rfl, -⟩ := List.map_eq_cons_iff.mp hafter
    have hdeclared : Declared.ofModule root = before.map (·.1) ++ x :: rest.map (·.1) := by
      rw [← map_fst_numbered (skeleton id path dotted language roleTags), hnumbered,
        List.map_append, List.map_cons]
    have hplain : x.Plain := Declared.ofModule_plain hroot (hdeclared ▸ by simp)
    obtain ⟨name, d, rfl⟩ := Declared.member_of_dotted hplain hname
    obtain ⟨before', c, between, hbefore, hbetween⟩ := Declared.member_behind_class hdeclared
    obtain ⟨outer, inner, rfl, -, hinner⟩ := List.map_eq_append_iff.mp hbefore
    obtain ⟨⟨_, k⟩, inner, rfl, rfl, rfl⟩ := List.map_eq_cons_iff.mp hinner
    refine ⟨first :: outer.map (fun e => e.1.symbol id e.2),
      (Declared.classDef owner c).symbol id k,
      inner.map (fun e => e.1.symbol id e.2), by rw [← hfront]; simp, rfl, rfl, ?_⟩
    intro y hy
    obtain ⟨e, he, rfl⟩ := List.mem_map.mp hy
    obtain ⟨name, d, hmember⟩ := hbetween e.1 (List.mem_map_of_mem he)
    refine ⟨?_, name, ?_⟩
    · simp only [Declared.symbol, hmember, Declared.kind]
      split <;> simp
    · rw [Declared.symbol, hmember]
      rfl

theorem fill_topLevel (hroot : root.PlainlyNamed) :
    (((skeleton id path dotted language roleTags).fill h index root).symbols.filter
        fun s => s.kind ≠ .module ∧ '.' ∉ s.name.toList).map
      (fun s => (s.kind, s.name, s.lineRange)) =
      root.children.filterMap Declared.outline? := by
  have hdeclared : ∀ l : List (Declared × SymbolId),
      ((l.map fun e => e.1.symbol id e.2).filter fun s =>
        s.kind ≠ .module ∧ '.' ∉ s.name.toList).map
        (fun s => (s.kind, s.name, s.lineRange)) =
      ((l.map (·.1)).filter fun x => '.' ∉ x.name.toList).map fun x =>
        (x.kind, x.name,
          (⟨x.definition.statement.lines.first,
            x.definition.statement.lines.last⟩ : LineRange)) := by
    intro l
    rw [List.filter_map, List.filter_map, List.map_map, List.map_map]
    congr 1
    apply List.filter_congr
    intro e _
    simp [Declared.symbol, kind_ne_module]
  have hmodule : ∀ statements : List Node,
      (∀ x ∈ statements.flatMap Declared.ofStatement, x.Plain) →
      ((statements.flatMap Declared.ofStatement).filter fun x => '.' ∉ x.name.toList).map
        (fun x => (x.kind, x.name,
          (⟨x.definition.statement.lines.first, x.definition.statement.lines.last⟩ : LineRange))) =
        statements.filterMap Declared.outline? := by
    intro statements
    induction statements with
    | nil => intro _; rfl
    | cons statement rest ih =>
      intro hplain
      rw [List.flatMap_cons] at hplain ⊢
      rw [List.filter_append, List.map_append,
        outline_ofStatement fun x hx => hplain x (by simp [hx]),
        ih fun x hx => hplain x (by simp [hx]), List.filterMap_cons]
      cases Declared.outline? statement <;> rfl
  rw [fill_skeleton_symbols, List.filter_cons, if_neg (by simp), hdeclared, map_fst_numbered]
  exact hmodule root.children fun x hx => Declared.ofModule_plain hroot hx

theorem fill_routes (hroot : root.PlainlyNamed) {r : Route}
    (hr : r ∈ ((skeleton id path dotted language roleTags).fill h index root).routes) :
    ∃ s ∈ ((skeleton id path dotted language roleTags).fill h index root).symbols,
      s.id = r.symbol ∧ s.kind = .function ∧ '.' ∉ s.name.toList := by
  rw [(fill_numbered _ h index root).2.2.2] at hr
  obtain ⟨⟨x, n⟩, hx, hr⟩ := List.mem_flatMap.mp hr
  have hdeclared : x ∈ Declared.ofModule root := by
    rw [← map_fst_numbered (skeleton id path dotted language roleTags)]
    exact List.mem_map_of_mem hx
  cases x with
  | function name d =>
    obtain ⟨decorator, _, hdecorator⟩ := List.mem_filterMap.mp hr
    refine ⟨(Declared.function name d).symbol id n, ?_,
      (Route.ofDecorator_symbol hdecorator).symm, rfl, Declared.ofModule_plain hroot hdeclared⟩
    rw [fill_skeleton_symbols]
    exact List.mem_cons_of_mem _ (List.mem_map_of_mem hx)
  | classDef name d => cases hr
  | member owner name d => cases hr

theorem fill_mirrored (hroot : root.PlainlyNamed) :
    ((skeleton id path dotted language roleTags).fill h index root).Mirrored id root where
  ids := by
    have hnew : (((skeleton id path dotted language roleTags).numbered root).map fun e =>
        e.1.symbol id e.2).map (·.id) = List.range' 2 (Declared.ofModule root).length :=
      map_id_numbered (skeleton id path dotted language roleTags) root
    have hlength := congrArg List.length hnew
    rw [List.length_map, List.length_range'] at hlength
    rw [fill_skeleton_symbols, List.map_cons, hnew, List.length_cons, hlength, List.range'_succ]
    rfl
  owned := by
    intro s hs
    rw [fill_skeleton_symbols] at hs
    rcases List.mem_cons.mp hs with rfl | hs
    · rfl
    · obtain ⟨e, _, rfl⟩ := List.mem_map.mp hs
      rfl
  anchor := by
    rw [fill_sameFile.path]
    refine ⟨_, fill_skeleton_symbols, ?_⟩
    intro s hs
    obtain ⟨e, _, rfl⟩ := List.mem_map.mp hs
    exact kind_ne_module e.1
  tables := fill_tabulated (skeleton_tabulated ..)
  members := fun _ _ _ _ _ => fill_members hroot
  topLevel := fill_topLevel hroot
  routes := fun _ => fill_routes hroot

/-- The syntax tree of an empty file. -/
def emptyTree : Node := .mk .module none "" ⟨1, 1⟩ []

/-- The anchor of a file with a dot in its stem is named like the member of
a class, and nothing is in front of it. -/
theorem anchor_named_like_member : emptyTree.PlainlyNamed ∧
    ¬∀ front s back owner member,
      ((skeleton 1 "a.b.py" "a.b" "py" {}).fill {} {} emptyTree).symbols = front ++ s :: back →
      s.name = owner ++ "." ++ member → BehindClass front owner := by
  refine ⟨by decide, fun h => ?_⟩
  obtain ⟨before, c, between, hfront, _⟩ :=
    h [] _ [] "a" "b" fill_skeleton_symbols (by decide +kernel)
  simp at hfront

/-- **Symbols, tables and routes mirror the syntax tree.** Fill the skeleton of
any file from any tree in which names of definitions are identifiers without
dots, or from a text with that tree. Symbols are numbered by their places, with
the anchor of the module first. The tables lead from the name of every function
and every property to the last symbol of that name. Every symbol but the anchor
that is named as a member of a class stands behind that class, with only
members of it between them. Functions and classes at module level have names
without dots and come in source order, and every route belongs to such a
function. -/
theorem extract_mirrors_tree (hroot : root.PlainlyNamed) (id : ModuleId)
    (path dotted language : String)
    (roleTags : NameSet) (h : HeuristicsConfig) (index : RepoIndex) :
    ((skeleton id path dotted language roleTags).fill h index root).Mirrored id root ∧
      ∀ source, parse source = some root →
        ((skeleton id path dotted language roleTags).extract h index source).Mirrored id root := by
  refine ⟨fill_mirrored hroot, ?_⟩
  intro source hparse
  rw [extract_of_parse hparse]
  exact fill_mirrored hroot

def nameNode (field : Option Field) (text : String) (line : Nat) : Node :=
  .mk .identifier field text ⟨line, line⟩ []

/-- A call of a function without arguments. -/
def callNode (name : String) (line : Nat) : Node :=
  .mk .call none (name ++ "()") ⟨line, line⟩ [nameNode (some .function) name line]

def functionNode (field : Option Field) (name : String) (first last : Nat) (body : List Node) :
    Node :=
  .mk .functionDefinition field "" ⟨first, last⟩
    [nameNode (some .name) name first, .mk .block (some .body) "" ⟨last, last⟩ body]

/-- A function behind a decorator, which stands on a line of its own. -/
def decoratedNode (expression : Node) (name : String) (first last : Nat) (body : List Node) :
    Node :=
  .mk .decoratedDefinition none "" ⟨first, last⟩
    [.mk .decorator none "" ⟨first, first⟩ [expression],
      functionNode (some .definition) name (first + 1) last body]

/-- A chain of two names. -/
def attributeNode (field : Option Field) (object member : String) (line : Nat) : Node :=
  .mk .attribute field (object ++ "." ++ member) ⟨line, line⟩
    [nameNode (some .object) object line, nameNode (some .attribute) member line]

def routeNode (line : Nat) : Node :=
  .mk .call none "app.get('/load')" ⟨line, line⟩ [attributeNode (some .function) "app" "get" line,
    .mk (.other "argument_list") (some .arguments) "('/load')" ⟨line, line⟩
      [.mk .string none "'/load'" ⟨line, line⟩ []]]

/-- A class with a property, its setter and a method, all of which call a
function that is defined twice behind the class, first as the handler of a
route. -/
def serviceTree : Node := .mk .module none "" ⟨1, 12⟩
  [.mk .classDefinition none "" ⟨1, 9⟩ [nameNode (some .name) "Service" 1,
    .mk .block (some .body) "" ⟨2, 9⟩
    [decoratedNode (nameNode none "property" 2) "config" 2 4 [callNode "load" 4],
      decoratedNode (attributeNode none "config" "setter" 5) "config" 5 7 [callNode "load" 7],
      functionNode none "close" 8 9 [callNode "load" 9]]],
    decoratedNode (routeNode 10) "load" 10 11 [], functionNode none "load" 12 12 []]

def serviceRecord : ModuleRecord :=
  (skeleton 1 "service.py" "service" "py" {}).fill {} {} serviceTree

/-- The property and its setter are in one table each, and the later of two
functions is in the table. -/
theorem serviceRecord_mirrored : serviceTree.PlainlyNamed ∧ serviceRecord.Mirrored 1 serviceTree ∧
    serviceRecord.properties.get? "Service.config" = some 3 ∧
    serviceRecord.functions.get? "Service.config" = some 4 ∧
    serviceRecord.functions.get? "load" = some 7 ∧ serviceRecord.routes.map (·.symbol) = [6] :=
  have hplain : serviceTree.PlainlyNamed := by decide +kernel
  ⟨hplain, (extract_mirrors_tree hplain 1 "service.py" "service" "py" {} {} {}).1,
    by decide +kernel, by decide +kernel, by decide +kernel, by decide +kernel⟩

end ModuleRecord

end CodeAtlas
