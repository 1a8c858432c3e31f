import CodeAtlas.Proofs.Listings
import Mathlib.Data.List.Count

/-! # Flags agree with calls

Two walks over a syntax tree know nothing of each other: one reports the nodes
that break a rule, the other one collects calls together with the definitions
around them. Both visit the same nodes, since the scopes that the second one
hands down only decide who makes a call. Hence calls of forbidden names can be
counted in either of them, and every node within the greatest depth that breaks
a rule is reported once. -/
namespace CodeAtlas

open Python

namespace Text

theorem occursIn_iff {needle l : List Char} : occursIn needle l = true ↔ needle <:+: l := by
  induction l with
  | nil => simp [occursIn]
  | cons c rest ih =>
    simp only [occursIn, Bool.or_eq_true, List.isPrefixOf_iff_prefix, ih, List.infix_cons_iff]

theorem contains_iff {s part : String} :
    contains s part = true ↔ ∃ front back, s = front ++ part ++ back := by
  unfold contains
  rw [occursIn_iff]
  constructor
  · rintro ⟨front, back, h⟩
    refine ⟨String.ofList front, String.ofList back, String.toList_injective ?_⟩
    simpa using h.symm
  · rintro ⟨front, back, rfl⟩
    exact ⟨front.toList, back.toList, by simp⟩

end Text

/-! ## Calls in both walks -/

/-- The node is a call of a callee with a property. -/
def Python.Node.callsWhat (q : Callee → Bool) (n : Node) : Bool := n.kind = .call && n.callee.any q

/-- The plain name that one walk reads off a call is the one that the other
walk does. -/
theorem Python.Node.calledName_eq_some_iff {call : Node} {name : String} :
    call.calledName = some name ↔ call.callee = some (.plain name) := by
  rw [callee_eq_some_iff]
  unfold calledName
  constructor
  · intro h
    obtain ⟨f, hf, rfl⟩ := Option.map_eq_some_iff.mp h
    obtain ⟨hf, hkind⟩ := Option.filter_eq_some_iff.mp hf
    exact .plain hf (of_decide_eq_true hkind)
  · intro h
    cases h with
    | plain hf hkind => simp [hf, hkind, Option.filter]

/-- Call sites of a kind of callee are as many as the calls that the listing of
the tree has. -/
theorem countP_callSites (q : Callee → Bool) (root : Node) :
    (callSites root).countP (fun s => q s.callee) = root.nodes.countP (·.callsWhat q) := by
  have hsite : ∀ x : Scope × Node, ((CallSite.of? x.1 x.2).map fun s => q s.callee).getD false =
      x.2.callsWhat q := by
    intro x
    unfold CallSite.of? Node.callsWhat
    by_cases hkind : x.2.kind = .call
    · cases hcallee : x.2.callee <;> simp [hkind]
    · simp [hkind]
  unfold callSites
  rw [Node.nodes, ← Node.map_snd_placed Scope.inside (maxDepth + 1) .module root, List.countP_map,
    List.countP_filterMap]
  exact List.countP_congr fun x _ => by rw [hsite]; rfl

namespace PatternRule

/-! ## Rules that nodes break -/

theorem flag_injective : Function.Injective flag := by
  intro a b h
  cases a <;> cases b <;> simp_all [flag]

/-- A rule is reported as often as there are nodes of two kinds, if every node
counts for the kinds that it is of. -/
theorem count_flatMap_ofNode {test : Bool} {rule : PatternRule} {p q : Node → Bool}
    (h : ∀ n, (ofNode test n).count rule = (p n).toNat + (q n).toNat) (l : List Node) :
    (l.flatMap (ofNode test)).count rule = l.countP p + l.countP q := by
  induction l with
  | nil => rfl
  | cons n rest ih =>
    rw [List.flatMap_cons, List.count_append, h, ih, List.countP_cons, List.countP_cons]
    cases p n <;> cases q n <;> simp <;> omega

/-- The callee is a plain name for running text as code. -/
def runsText (c : Callee) : Bool := c = .plain "eval" ∨ c = .plain "exec"

def prints (c : Callee) : Bool := c = .plain "print"

/-- What is reported of a node: once for each of the five ways to break a rule. -/
theorem ofNode_eq (test : Bool) (n : Node) : ofNode test n =
    List.replicate (decide (n.kind = .exceptClause) && isBare n).toNat bareExcept ++
      List.replicate (decide (n.kind = .execStatement)).toNat evalExec ++
      List.replicate (n.callsWhat runsText).toNat evalExec ++
      List.replicate (!test && decide (n.kind = .printStatement)).toNat printInProduction ++
      List.replicate (!test && n.callsWhat prints).toNat printInProduction := by
  unfold ofNode Node.callsWhat
  split
  · rename_i hkind
    cases hbare : isBare n <;> simp [hkind]
  · rename_i hkind
    have hplain : ∀ {name}, n.calledName = some name → n.callee = some (.plain name) :=
      Node.calledName_eq_some_iff.mp
    split
    · rename_i hname
      simp [hkind, hplain hname, runsText, prints]
    · rename_i hname
      simp [hkind, hplain hname, runsText, prints]
    · rename_i hname
      cases test <;> simp [hkind, hplain hname, runsText, prints]
    · -- the callee is none of the three names, or there is none
      rename_i heval hexec hprint
      cases hcallee : n.callee with
      | none => simp [hkind]
      | some c =>
        have hother : ∀ {name}, (n.calledName = some name → False) → c ≠ .plain name := by
          rintro name hno rfl
          exact hno (Node.calledName_eq_some_iff.mpr hcallee)
        simp [hkind, runsText, prints, hother heval, hother hexec, hother hprint]
  · rename_i hkind
    simp [hkind]
  · rename_i hkind
    cases test <;> simp [hkind]
  · rename_i hexcept hcall hexec hprint
    simp [eq_false hexcept, eq_false hcall, eq_false hexec, eq_false hprint]

theorem count_ofModule_evalExec (path : String) (root : Node) :
    (ofModule path root).count .evalExec =
    root.nodes.countP (fun n => n.kind = .execStatement) +
      root.nodes.countP (·.callsWhat runsText) := by
  unfold ofModule
  apply count_flatMap_ofNode
  intro n
  simp [ofNode_eq, List.count_replicate]

theorem count_ofModule_printInProduction (path : String) (root : Node) :
    (ofModule path root).count .printInProduction =
    if isTestPath path then 0
    else root.nodes.countP (fun n => n.kind = .printStatement) +
      root.nodes.countP (·.callsWhat prints) := by
  unfold ofModule
  cases isTestPath path with
  | true =>
    rw [count_flatMap_ofNode (p := fun _ => false) (q := fun _ => false)]
    · simp
    · intro n
      simp [ofNode_eq, List.count_replicate]
  | false =>
    apply count_flatMap_ofNode
    intro n
    simp [ofNode_eq, List.count_replicate]

theorem count_ofModule_bareExcept (path : String) (root : Node) :
    (ofModule path root).count .bareExcept = root.nodes.countP fun n =>
      decide (n.kind = .exceptClause) && isBare n := by
  unfold ofModule
  rw [count_flatMap_ofNode (p := fun n => decide (n.kind = .exceptClause) && isBare n)
    (q := fun _ => false)]
  · simp
  · intro n
    simp [ofNode_eq, List.count_replicate]

/-- The rules about single nodes. -/
def aboutNodes : List PatternRule := [.bareExcept, .evalExec, .printInProduction]

theorem flags_not_aboutNodes {x : Declared} {rule : PatternRule} (h : rule ∈ x.flags) :
    rule ∉ aboutNodes := by
  cases x with
  | function name d =>
    simp only [Declared.flags] at h
    split at h
    · rw [List.mem_singleton.mp h]
      decide
    · cases h
  | classDef name d => cases h
  | member owner name d => cases h

theorem ofState_not_aboutNodes {roleTags : NameSet} {root : Node} {rule : PatternRule}
    (h : rule ∈ ofState roleTags root) : rule ∉ aboutNodes := by
  unfold ofState at h
  split at h
  · rw [(List.mem_replicate.mp h).2]
    decide
  · cases h

end PatternRule

open PatternRule

namespace ModuleRecord

/-- The flags that filling a record adds: those about nodes, with others around them. -/
theorem fill_patternFlags (m : ModuleRecord) (h : HeuristicsConfig) (index : RepoIndex)
    (root : Node) :
    ∃ before after : List PatternRule, (m.fill h index root).patternFlags =
      m.patternFlags ++ (before ++ ofModule m.path root ++ after).map flag ∧
      ∀ rule ∈ aboutNodes, rule ∉ before ∧ rule ∉ after := by
  refine ⟨List.replicate (ImportTable.ofModule m.path root).wildcards .wildcardImport,
    (Declared.ofModule root).flatMap (·.flags) ++ ofState m.roleTags root, ?_, ?_⟩
  · unfold fill
    obtain ⟨table, ht, _⟩ := trackReexports_eq _ _
    rw [ht]
    dsimp only
    simp only [List.append_assoc]
  · intro rule hrule
    refine ⟨fun hmem => ?_, fun hmem => ?_⟩
    · rw [(List.mem_replicate.mp hmem).2] at hrule
      exact absurd hrule (by decide)
    · rcases List.mem_append.mp hmem with hmem | hmem
      · obtain ⟨x, _, hmem⟩ := List.mem_flatMap.mp hmem
        exact flags_not_aboutNodes hmem hrule
      · exact ofState_not_aboutNodes hmem hrule

/-- **Flags agree with calls and miss nothing.** Fill any record from any tree.
The flags that this adds for running text as code are as many as the statements
for that at depth 500 or less and the call sites of the tree that name `eval`
or `exec`. Those for printing are as many as the print statements at depth 500
or less and the call sites that name `print`, and there are none if the
path, in lower case, has `test` in it. Those for handlers that name no
exception are as many as the except clauses at depth 500 or less that have
nothing but blocks and comments in them. -/
theorem fill_flags_match_call_sites (m : ModuleRecord) (h : HeuristicsConfig) (index : RepoIndex)
    (root : Node) :
    ∃ added, (m.fill h index root).patternFlags = m.patternFlags ++ added ∧
      added.count PatternRule.evalExec.flag = root.countWithin (fun n => n.kind = .execStatement) +
        (callSites root).countP (fun s => s.callee = .plain "eval" ∨ s.callee = .plain "exec") ∧
      ((¬∃ front back, Text.toLower m.path = front ++ "test" ++ back) →
        added.count PatternRule.printInProduction.flag =
          root.countWithin (fun n => n.kind = .printStatement) +
          (callSites root).countP (fun s => s.callee = .plain "print")) ∧
      ((∃ front back, Text.toLower m.path = front ++ "test" ++ back) →
        added.count PatternRule.printInProduction.flag = 0) ∧
      added.count PatternRule.bareExcept.flag = root.countWithin fun n =>
        n.kind = .exceptClause ∧ ∀ c ∈ n.children, c.kind = .block ∨ c.kind = .comment := by
  obtain ⟨before, after, hflags, hother⟩ := fill_patternFlags m h index root
  have hcount :
      ∀ rule ∈ aboutNodes, ((before ++ ofModule m.path root ++ after).map flag).count rule.flag =
      (ofModule m.path root).count rule := by
    intro rule hrule
    obtain ⟨hbefore, hafter⟩ := hother rule hrule
    rw [List.count_map_of_injective _ _ flag_injective, List.count_append, List.count_append,
      List.count_eq_zero_of_not_mem hbefore, List.count_eq_zero_of_not_mem hafter]
    omega
  have htest : isTestPath m.path = true ↔
      ∃ front back, Text.toLower m.path = front ++ "test" ++ back := Text.contains_iff
  refine ⟨_, hflags, ?_, fun hno => ?_, fun hyes => ?_, ?_⟩
  · rw [hcount .evalExec (by decide), count_ofModule_evalExec, ← countP_callSites,
      Node.countP_nodes]
    simp only [decide_eq_true_eq, runsText]
  · rw [hcount .printInProduction (by decide), count_ofModule_printInProduction,
      if_neg (htest.not.mpr hno), ← countP_callSites, Node.countP_nodes]
    simp only [decide_eq_true_eq, prints]
  · rw [hcount .printInProduction (by decide), count_ofModule_printInProduction,
      if_pos (htest.mpr hyes)]
  · rw [hcount .bareExcept (by decide), count_ofModule_bareExcept, Node.countP_nodes]
    simp only [Bool.and_eq_true, decide_eq_true_eq, isBare, List.all_eq_true, Bool.or_eq_true]

/-- An except clause with a comment in it, and the nodes of what it names. -/
def exceptNode (named : List Node) (line : Nat) : Node :=
  .mk .exceptClause none "" ⟨line, line + 1⟩
    (.mk .comment none "# quiet" ⟨line, line⟩ [] :: named ++
      [.mk .block none "" ⟨line + 1, line + 1⟩ []])

/-- A function that evaluates a text, a lambda that prints, a statement that
runs a text, and two handlers, one of which names no exception. -/
def scriptTree : Node := .mk .module none "" ⟨1, 9⟩
  [functionNode none "f" 1 2 [callNode "eval" 2],
    .mk .lambda none "lambda: print()" ⟨3, 3⟩
      [.mk .block (some .body) "print()" ⟨3, 3⟩ [callNode "print" 3]],
    .mk .execStatement none "exec code" ⟨4, 4⟩ [nameNode none "code" 4],
    exceptNode [] 5, exceptNode [nameNode none "KeyError" 7] 7]

def scriptRecord : ModuleRecord := (skeleton 1 "app.py" "app" "py" {}).fill {} {} scriptTree

/-- Two flags are for running text, of which one is a call site and so the
other one is a statement. -/
theorem scriptTree_flags : (¬∃ front back, Text.toLower "app.py" = front ++ "test" ++ back) ∧
    scriptRecord.patternFlags = [evalExec, printInProduction, evalExec, bareExcept].map flag ∧
    (callSites scriptTree).map (·.callee) = [.plain "eval", .plain "print"] ∧
    scriptTree.countWithin (fun n => n.kind = .execStatement) = 1 ∧
    scriptTree.countWithin (fun n => n.kind = .printStatement) = 0 ∧
    scriptTree.countWithin (fun n => n.kind = .exceptClause ∧ ∀ c ∈ n.children, c.kind = .block ∨
      c.kind = .comment) = 1 := by
  have hpath : ¬∃ front back, Text.toLower "app.py" = front ++ "test" ++ back :=
    Text.contains_iff.not.mp (by decide +kernel)
  have hflags : scriptRecord.patternFlags =
      [evalExec, printInProduction, evalExec, bareExcept].map flag := by
    decide +kernel
  obtain ⟨added, hadded, heval, hprint, _, hbare⟩ :=
    fill_flags_match_call_sites (skeleton 1 "app.py" "app" "py" {}) {} {} scriptTree
  obtain rfl : added = [evalExec, printInProduction, evalExec, bareExcept].map flag :=
    hadded.symm.trans hflags
  have hsites : (callSites scriptTree).countP (fun s => s.callee = .plain "eval" ∨
      s.callee = .plain "exec") = 1 ∧
      (callSites scriptTree).countP (fun s => s.callee = .plain "print") = 1 := by decide +kernel
  rw [hsites.1] at heval
  have hprint := hprint hpath
  rw [hsites.2] at hprint
  exact ⟨hpath, hflags, by decide +kernel, (Nat.add_right_cancel heval).symm,
    (Nat.add_right_cancel hprint).symm, hbare.symm⟩

end ModuleRecord

end CodeAtlas
