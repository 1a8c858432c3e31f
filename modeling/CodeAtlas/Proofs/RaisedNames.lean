import CodeAtlas.Proofs.Listings

/-! # Exceptions that functions raise

The raise statements of a function are those of its body that can be reached
without entering another function or another raise statement. Each of them has
one name, by the first operand that is neither a comment nor the cause: the
chain of names that the operand is or calls, or a name for all other cases. The
function reports every name once, in the order of the first statements with
these names. -/
namespace CodeAtlas

open Python

/-! ## First occurrences -/

/-- The members of a list, each once, in the order of their first occurrences. -/
structure FirstOccurrences (l r : List String) : Prop where
  nodup : r.Nodup
  mem_iff : ∀ x, x ∈ r ↔ x ∈ l
  inOrder : r.Pairwise fun x y => l.idxOf x < l.idxOf y

/-- Leaving out other members keeps the order of first occurrences. -/
theorem idxOf_lt_of_filter {p : String → Bool} {x y : String} (hx : p x = true) (hy : p y = true)
    {l : List String} (h : (l.filter p).idxOf x < (l.filter p).idxOf y) :
    l.idxOf x < l.idxOf y := by
  induction l with
  | nil => exact h
  | cons c rest ih =>
    by_cases hc : p c = true
    · rw [List.filter_cons_of_pos hc] at h
      have hcy : c ≠ y := by
        rintro rfl
        rw [List.idxOf_cons_self] at h
        exact absurd h (Nat.not_lt_zero _)
      by_cases hcx : c = x
      · rw [hcx, List.idxOf_cons_self, List.idxOf_cons_ne _ (hcx ▸ hcy)]
        exact Nat.succ_pos _
      · rw [List.idxOf_cons_ne _ hcx, List.idxOf_cons_ne _ hcy] at h ⊢
        exact Nat.succ_lt_succ (ih (Nat.lt_of_succ_lt_succ h))
    · rw [List.filter_cons_of_neg hc] at h
      have hcx : c ≠ x := fun he => hc (he ▸ hx)
      have hcy : c ≠ y := fun he => hc (he ▸ hy)
      rw [List.idxOf_cons_ne _ hcx, List.idxOf_cons_ne _ hcy]
      exact Nat.succ_lt_succ (ih h)

theorem eraseDups_inOrder (l : List String) :
    l.eraseDups.Pairwise fun x y => l.idxOf x < l.idxOf y := by
  match l with
  | [] => exact .nil
  | a :: rest =>
    -- what follows is the same for a list from which `a` is gone, so the recursion is
    -- on the length
    have hshorter := List.length_filter_le (fun b => !b == a) rest
    have hrest := eraseDups_inOrder (rest.filter fun b => !b == a)
    have hother : ∀ x ∈ (rest.filter fun b => !b == a).eraseDups, (x != a) = true := fun x hx =>
      (List.mem_filter.mp (List.mem_eraseDups.mp hx)).2
    rw [List.eraseDups_cons]
    refine List.pairwise_cons.mpr ⟨fun x hx => ?_, hrest.imp_of_mem fun {x y} hx hy hlt => ?_⟩
    · rw [List.idxOf_cons_self, List.idxOf_cons_ne _ (bne_iff_ne.mp (hother x hx)).symm]
      exact Nat.succ_pos _
    · rw [List.idxOf_cons_ne _ (bne_iff_ne.mp (hother x hx)).symm,
        List.idxOf_cons_ne _ (bne_iff_ne.mp (hother y hy)).symm]
      exact Nat.succ_lt_succ (idxOf_lt_of_filter (p := (· != a)) (hother x hx) (hother y hy) hlt)
termination_by l.length

theorem eraseDups_firstOccurrences (l : List String) : FirstOccurrences l l.eraseDups where
  nodup := (eraseDups_inOrder l).imp fun hlt he => absurd (he ▸ hlt) (Nat.lt_irrefl _)
  mem_iff _ := List.mem_eraseDups
  inOrder := eraseDups_inOrder l

namespace Raise

variable {statement e body : Node} {segments : List String} {text : String}

/-! ## The name of a raise statement -/

/-- What the statement raises: its first part that is neither a comment nor the
cause. -/
def Operand (statement e : Node) : Prop :=
  ∃ before after, statement.children = before ++ e :: after ∧
    (∀ c ∈ before, c.kind = .comment ∨ c.field = some .cause) ∧
    e.kind ≠ .comment ∧ e.field ≠ some .cause

/-- The expression is a chain of names, or a call of one. -/
inductive NamedBy (e : Node) (segments : List String) : Prop
  | chain : Chain e segments → NamedBy e segments
  | call {f : Node} : e.kind = .call → e.child? .function = some f → Chain f segments →
      NamedBy e segments

/-- The name that the statement has. -/
inductive Names (statement : Node) : String → Prop
  | again : (∀ c ∈ statement.children, c.kind = .comment ∨ c.field = some .cause) →
      Names statement "ReRaise"
  | chain {e : Node} {segments : List String} : Operand statement e → NamedBy e segments →
      Names statement (Text.join "." segments)
  | other {e : Node} : Operand statement e → (∀ segments, ¬NamedBy e segments) →
      Names statement "Exception"

theorem operand_eq_some_iff : operand statement = some e ↔ Operand statement e := by
  unfold operand Operand
  rw [List.find?_eq_some_iff_append]
  simp only [decide_eq_true_eq, Bool.not_eq_eq_eq_not, Bool.not_true, decide_eq_false_iff_not,
    not_and_or, not_not]
  constructor
  · rintro ⟨he, before, after, hchildren, hbefore⟩
    exact ⟨before, after, hchildren, hbefore, he⟩
  · rintro ⟨before, after, hchildren, hbefore, he⟩
    exact ⟨he, before, after, hchildren, hbefore⟩

theorem operand_eq_none_iff :
    operand statement = none ↔ ∀ c ∈ statement.children, c.kind = .comment ∨
      c.field = some .cause := by
  unfold operand
  simp only [List.find?_eq_none, decide_eq_true_eq, not_and_or, not_not]

/-- The node whose chain of names is the name of an exception. -/
def nameNode? (e : Node) : Option Node :=
  match e.kind with
  | .call => e.child? .function
  | .identifier | .attribute => some e
  | _ => none

theorem name_of_operand (h : operand statement = some e) :
    name statement = (((nameNode? e).bind (·.dottedSegments)).map (Text.join ".")).getD
      "Exception" := by
  unfold name
  rw [h, Option.map_bind]
  rfl

theorem nameNode?_chain_iff :
    (nameNode? e).bind (·.dottedSegments) = some segments ↔ NamedBy e segments := by
  have hkind : Chain e segments → e.kind = .identifier ∨ e.kind = .attribute := by
    intro h
    cases h with
    | identifier hkind => exact .inl hkind
    | member hkind => exact .inr hkind
  constructor
  · intro h
    obtain ⟨n, hn, h⟩ := Option.bind_eq_some_iff.mp h
    have hchain := chain_of_dottedSegments h
    unfold nameNode? at hn
    split at hn
    · exact .call ‹_› hn hchain
    · cases hn
      exact .chain hchain
    · cases hn
      exact .chain hchain
    · cases hn
  · intro h
    cases h with
    | chain hchain => rcases hkind hchain with h | h <;> simp [nameNode?, h, hchain.dottedSegments]
    | call hcall hf hchain => simp [nameNode?, hcall, hf, hchain.dottedSegments]

/-- Every statement has one name, the one that is reported. -/
theorem names_iff : Names statement text ↔ name statement = text := by
  cases hoperand : operand statement with
  | none =>
    have hname : name statement = "ReRaise" := by simp [name, hoperand]
    have hnone : ∀ {e}, ¬Operand statement e := by
      intro e he
      rw [operand_eq_some_iff.mpr he] at hoperand
      cases hoperand
    rw [hname]
    constructor
    · intro h
      cases h with
      | again => rfl
      | chain he _ => exact absurd he hnone
      | other he _ => exact absurd he hnone
    · rintro rfl
      exact .again (operand_eq_none_iff.mp hoperand)
  | some e =>
    have hthis : ∀ {e'}, Operand statement e' → e' = e := fun he =>
      Option.some.inj ((operand_eq_some_iff.mpr he).symm.trans hoperand)
    rw [name_of_operand hoperand]
    constructor
    · intro h
      cases h with
      | again hall =>
        rw [operand_eq_none_iff.mpr hall] at hoperand
        cases hoperand
      | chain he hnamed =>
        cases hthis he
        rw [nameNode?_chain_iff.mpr hnamed]
        rfl
      | other he hno =>
        cases hthis he
        have hnone : (nameNode? e).bind (·.dottedSegments) = none :=
          Option.eq_none_iff_forall_ne_some.mpr fun segments hs =>
            hno segments (nameNode?_chain_iff.mp hs)
        rw [hnone]
        rfl
    · rintro rfl
      have he := operand_eq_some_iff.mp hoperand
      cases hs : (nameNode? e).bind (·.dottedSegments) with
      | none =>
        refine .other he fun segments hnamed => ?_
        rw [nameNode?_chain_iff.mpr hnamed] at hs
        cases hs
      | some segments => exact .chain he (nameNode?_chain_iff.mp hs)

/-! ## The raise statements of a function -/

/-- The addresses of the raise statements of a body, in source order: those at
most 500 levels below it, with neither a function nor another raise statement
above them. -/
structure Listed (body : Node) (places : List (List Nat)) : Prop where
  inOrder : places.Pairwise (· < ·)
  mem_iff : ∀ a, a ∈ places ↔ a.length ≤ 500 ∧
    (∃ s, body.atAddress a = some s ∧ s.kind = .raiseStatement) ∧
    ∀ b n, b <+: a → b ≠ a → body.atAddress b = some n → n.kind ≠ .functionDefinition ∧
      n.kind ≠ .raiseStatement

/-- A function reports the names of the raise statements in its body, each
once, in the order of their first statements. -/
def Reported (function : Node) (raises : List String) : Prop :=
  (function.child? .body = none → raises = []) ∧
  ∀ body, function.child? .body = some body → ∃ places names, Listed body places ∧
    List.Forall₂ (fun a text => ∃ s, body.atAddress a = some s ∧ Names s text) places names ∧
    FirstOccurrences names raises

/-- The raise statement at an address. -/
def statementAt? (body : Node) (a : List Nat) : Option Node :=
  (body.atAddress a).filter (·.kind = .raiseStatement)

theorem statements_eq (body : Node) :
    statements body = (body.reachable passable (maxDepth + 1)).filterMap (statementAt? body) := by
  unfold statements
  rw [Node.listing_eq, List.filter_filterMap]
  rfl

theorem statementAt?_eq_some_iff {a : List Nat} {s : Node} :
    statementAt? body a = some s ↔ body.atAddress a = some s ∧ s.kind = .raiseStatement := by
  unfold statementAt?
  rw [Option.filter_eq_some_iff, decide_eq_true_eq]

theorem listed (body : Node) :
    Listed body ((body.reachable passable (maxDepth + 1)).filter fun a =>
      (statementAt? body a).isSome) where
  inOrder := (Node.reachable_sorted _ _ body).filter _
  mem_iff a := by
    have hpassable : ∀ n, passable n = true ↔ n.kind ≠ .functionDefinition ∧
        n.kind ≠ .raiseStatement := by
      intro n
      simp [passable]
    simp only [List.mem_filter, Node.reachable, Node.mem_addresses_iff, Option.isSome_iff_exists,
      statementAt?_eq_some_iff]
    constructor
    · rintro ⟨⟨⟨hlength, n, hn⟩, hreaches⟩, hs⟩
      refine ⟨Nat.le_of_lt_succ hlength, hs, fun b y hb hne hy => ?_⟩
      exact (hpassable y).mp ((Node.reaches_iff hn).mp hreaches b y hb hne hy)
    · rintro ⟨hlength, ⟨s, hs, hkind⟩, habove⟩
      refine ⟨⟨⟨Nat.lt_succ_of_le hlength, s, hs⟩, (Node.reaches_iff hs).mpr fun b y hb hne hy =>
        ?_⟩, s, hs, hkind⟩
      exact (hpassable y).mpr (habove b y hb hne hy)

theorem names_reported (function : Node) : Reported function (names function) := by
  unfold names
  refine ⟨fun hnone => by rw [hnone], fun body hbody => ?_⟩
  rw [hbody]
  refine ⟨_, (statements body).map name, listed body, ?_, eraseDups_firstOccurrences _⟩
  rw [List.forall₂_map_right_iff, statements_eq]
  refine (forall₂_filterMap (statementAt? body) _).imp fun a s hs => ?_
  exact ⟨s, (statementAt?_eq_some_iff.mp hs).1, names_iff.mpr rfl⟩

end Raise

/-! ## Symbols of functions -/

namespace Declared

theorem mem_of_origin {root : Node} {x : Declared} (h : Origin root x) : x ∈ ofModule root := by
  cases h with
  | @function c name hc hkind hname =>
    refine List.mem_flatMap.mpr ⟨c, hc, ?_⟩
    simp [ofStatement, hname, Definition.isClass, Definition.isFunction, hkind]
  | @classDef c name hc hkind hname =>
    refine List.mem_flatMap.mpr ⟨c, hc, ?_⟩
    simp [ofStatement, hname, Definition.isClass, hkind]
  | @member c body inner owner name hc hkind howner hbody hinner hfunction hname =>
    have hmember :
        Definition.ofStatement inner ∈ ClassBody.members (Definition.ofStatement c).core := by
      refine List.mem_filter.mpr ⟨List.mem_map_of_mem ?_, decide_eq_true hfunction⟩
      simpa [ClassBody.statements, hbody] using hinner
    refine List.mem_flatMap.mpr ⟨c, hc, ?_⟩
    simp only [ofStatement, howner, Definition.isClass, hkind, decide_true, if_true]
    refine List.mem_cons_of_mem _ (List.mem_filterMap.mpr ⟨_, hmember, ?_⟩)
    rw [hname]
    rfl

end Declared

namespace ModuleRecord

/-- **Functions report what they raise.** Fill any record from any tree. The
symbols that this adds belong, one to one and in order, to the definitions of
the tree: functions and classes at module level and functions in the bodies of
such classes. The symbol of a function has the names of the raise statements of
its body, each once, in the order of their first statements. Statements in
functions further in, in other raise statements or more than 500 levels below
the body are left out. A statement without an operand, comments and the cause
apart, raises again; one whose operand is a chain of names, or a call of one,
has that name, and every other one is an exception without a name. -/
theorem fill_reports_raised_names (m : ModuleRecord) (h : HeuristicsConfig) (index : RepoIndex)
    (root : Node) :
    ∃ added, (m.fill h index root).symbols = m.symbols ++ added ∧
      List.Forall₂ (fun x s => s.name = x.name ∧ s.kind = x.kind ∧
        (x.kind = .function → Raise.Reported x.definition.core s.raises))
        (Declared.ofModule root) added ∧
      ∀ x, x ∈ Declared.ofModule root ↔ Declared.Origin root x := by
  refine ⟨_, (fill_numbered m h index root).1, ?_,
    fun x => ⟨Declared.origin_of_mem, Declared.mem_of_origin⟩⟩
  rw [← map_fst_numbered m root, List.forall₂_map_left_iff, List.forall₂_map_right_iff,
    List.forall₂_same]
  intro e _
  refine ⟨rfl, rfl, fun hkind => ?_⟩
  have hraises : (e.1.symbol m.id e.2).raises = Raise.names e.1.definition.core := if_pos hkind
  rw [hraises]
  exact Raise.names_reported _

def raiseNode (parts : List Node) (line : Nat) : Node :=
  .mk .raiseStatement none "" ⟨line, line⟩ parts

/-- A function that raises by a call, again behind a comment, by a chain of
names with a cause, by a name from before and by a text. A function in it
raises something else. -/
def raisingFunction : Node := functionNode none "f" 1 8
  [raiseNode [callNode "ValueError" 2] 2,
    functionNode none "g" 3 4 [raiseNode [nameNode none "Hidden" 4] 4],
    raiseNode [.mk .comment none "# again" ⟨5, 5⟩ []] 5,
    raiseNode [attributeNode none "errors" "Fatal" 6, nameNode (some .cause) "found" 6] 6,
    raiseNode [nameNode none "ValueError" 7] 7, raiseNode [.mk .string none "'text'" ⟨8, 8⟩ []] 8]

def raisingTree : Node := .mk .module none "" ⟨1, 8⟩ [raisingFunction]

/-- Of the six statements the nested one is left out and one name comes twice. -/
theorem raisingFunction_reported :
    ((skeleton 1 "m.py" "m" "py" {}).fill {} {} raisingTree).symbols.map (·.raises) =
      [[], ["ValueError", "ReRaise", "errors.Fatal", "Exception"]] ∧
    Raise.Reported raisingFunction ["ValueError", "ReRaise", "errors.Fatal", "Exception"] := by
  have hraises : ((skeleton 1 "m.py" "m" "py" {}).fill {} {} raisingTree).symbols.map (·.raises) =
      [[], ["ValueError", "ReRaise", "errors.Fatal", "Exception"]] := by decide +kernel
  refine ⟨hraises, ?_⟩
  obtain ⟨added, hsymbols, hall, _⟩ :=
    fill_reports_raised_names (skeleton 1 "m.py" "m" "py" {}) {} {} raisingTree
  have hdeclared : Declared.ofModule raisingTree = [.function "f" (.ofStatement raisingFunction)] :=
    rfl
  rw [hdeclared] at hall
  cases hall with
  | @cons _ s _ _ hs hnil =>
    cases hnil
    have hsame : s.raises = ["ValueError", "ReRaise", "errors.Fatal", "Exception"] := by
      rw [hsymbols] at hraises
      simpa [skeleton] using hraises
    rw [← hsame]
    exact hs.2.2 rfl

end ModuleRecord

end CodeAtlas
