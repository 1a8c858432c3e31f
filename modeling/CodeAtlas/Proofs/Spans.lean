import CodeAtlas.Python.Parse
import Mathlib.Data.List.TakeWhile

/-! # Nodes lie within the nodes around them

A lexer that never goes back reads tokens in the order of the text. The stacks
of a parser over such a lexer hold parts in that order too, whatever the
automaton does: reading a token puts it behind all others, and finishing a rule
replaces neighbours by the piece of text from the first to the last of them. So
every node that comes out covers the nodes below it. Only the node of the whole
text may not, since comments around it are put below it. -/
namespace CodeAtlas.Grammar

/-! ## Positions and spans -/

/-- A position is not behind another. -/
structure Mark.Le (m n : Mark) : Prop where
  offset : m.offset ≤ n.offset
  line : m.line ≤ n.line

theorem Mark.Le.refl (m : Mark) : m.Le m := ⟨Nat.le_refl _, Nat.le_refl _⟩

theorem Mark.Le.trans {l m n : Mark} (h : l.Le m) (h' : m.Le n) : l.Le n :=
  ⟨Nat.le_trans h.offset h'.offset, Nat.le_trans h.line h'.line⟩

/-- A piece of text lies within another. -/
def Span.Encloses (outer inner : Span) : Prop :=
  outer.start.Le inner.start ∧ inner.stop.Le outer.stop

theorem Span.Encloses.refl (s : Span) : s.Encloses s := ⟨.refl _, .refl _⟩

theorem Span.Encloses.trans {r s t : Span} (h : r.Encloses s) (h' : s.Encloses t) : r.Encloses t :=
  ⟨h.1.trans h'.1, h'.2.trans h.2⟩

/-! ## Trees and forests -/

def Tree.span : Tree → Span
  | .node _ _ span _ => span

def Tree.children : Tree → List Tree
  | .node _ _ _ children => children

/-- Every node lies within the one around it. -/
inductive Tree.Nested : Tree → Prop
  | node {kind : String} {field : Option String} {span : Span} {children : List Tree}
      (forward : span.start.Le span.stop)
      (inside : ∀ c ∈ children, span.Encloses c.span) (below : ∀ c ∈ children, c.Nested) :
      Nested (.node kind field span children)

theorem Tree.span_label (name : String) (t : Tree) : (t.label name).span = t.span := by
  cases t
  rfl

theorem Tree.Nested.label (name : String) {t : Tree} (h : t.Nested) : (t.label name).Nested := by
  cases h with
  | node forward inside below => exact .node forward inside below

namespace Forest

/-- All nodes of a forest are nested and lie within a piece of text. -/
def Inside (span : Span) : Forest → Prop
  | .empty => True
  | .tree t => span.Encloses t.span ∧ t.Nested
  | .join a b => a.Inside span ∧ b.Inside span

variable {span outer : Span} {f : Forest}

theorem Inside.mono (henc : outer.Encloses span) (h : f.Inside span) : f.Inside outer := by
  induction f with
  | empty => trivial
  | tree t => exact ⟨henc.trans h.1, h.2⟩
  | join a b iha ihb => exact ⟨iha h.1, ihb h.2⟩

theorem Inside.mem_prepend (h : f.Inside span) {rest : List Tree} {t : Tree}
    (ht : t ∈ f.prepend rest) : (span.Encloses t.span ∧ t.Nested) ∨ t ∈ rest := by
  induction f generalizing rest with
  | empty => exact .inr ht
  | tree u =>
    rcases List.mem_cons.mp ht with rfl | ht
    · exact .inl h
    · exact .inr ht
  | join a b iha ihb =>
    rcases iha h.1 ht with ht | ht
    · exact .inl ht
    · exact ihb h.2 ht

theorem Inside.mem_toList (h : f.Inside span) {t : Tree} (ht : t ∈ f.toList) :
    span.Encloses t.span ∧ t.Nested :=
  (h.mem_prepend ht).resolve_right (by simp)

theorem Inside.label (name : String) (h : f.Inside span) : (f.label name).Inside span := by
  induction f with
  | empty => trivial
  | tree t => exact ⟨(t.span_label name).symm ▸ h.1, h.2.label name⟩
  | join a b iha ihb =>
    cases a with
    | empty => exact ⟨trivial, ihb h.2⟩
    | tree t => exact ⟨iha h.1, h.2⟩
    | join c d => exact ⟨iha h.1, h.2⟩

end Forest

/-! ## Parts in order -/

/-- The nodes inside a part lie within its text. -/
structure Part.Sound (p : Part) : Prop where
  forward : p.info.span.start.Le p.info.span.stop
  inner : p.info.inner.Inside p.info.span

theorem Part.Sound.placed {p : Part} (h : p.Sound) (kind field : Option String) :
    (p.placed kind field).Inside p.info.span := by
  unfold Part.placed
  split
  · refine ⟨.refl _, .node h.forward ?_ ?_⟩
    · intro c hc
      exact (h.inner.mem_toList hc).1
    · intro c hc
      exact (h.inner.mem_toList hc).2
  · split
    · exact h.inner.label _
    · exact h.inner

theorem assemble_inside {span : Span} {parts : List Part}
    (h : ∀ p ∈ parts, p.Sound ∧ span.Encloses p.info.span) (steps : List (Step Nat)) :
    (assemble parts steps).Inside span := by
  have hplaced : ∀ p ∈ parts, ∀ kind field, (p.placed kind field).Inside span := by
    intro p hp kind field
    exact ((h p hp).1.placed kind field).mono (h p hp).2
  clear h
  fun_induction assemble parts steps with
  | case1 steps => trivial
  | case2 p s => exact hplaced p List.mem_cons_self _ _
  | case3 p parts steps _ _ ih | case4 p parts _ _ ih | case5 p parts _ s steps _ ih =>
    exact ⟨hplaced p List.mem_cons_self _ _, ih fun q hq => hplaced q (List.mem_cons_of_mem _ hq)⟩

/-- Sound parts one behind the other, between two positions. -/
def InOrder : Mark → List Part → Mark → Prop
  | low, [], high => low.Le high
  | low, p :: rest, high => low.Le p.info.span.start ∧ p.Sound ∧ InOrder p.info.span.stop rest high

namespace InOrder

variable {low mid high : Mark} {ps qs : List Part}

theorem le (h : InOrder low ps high) : low.Le high := by
  induction ps generalizing low with
  | nil => exact h
  | cons p rest ih => exact h.1.trans (h.2.1.forward.trans (ih h.2.2))

theorem lower (h : InOrder mid ps high) (hle : low.Le mid) : InOrder low ps high := by
  cases ps with
  | nil => exact hle.trans h
  | cons p rest => exact ⟨hle.trans h.1, h.2⟩

theorem append (h : InOrder low ps mid) (h' : InOrder mid qs high) :
    InOrder low (ps ++ qs) high := by
  induction ps generalizing low with
  | nil => exact h'.lower h
  | cons p rest ih => exact ⟨h.1, h.2.1, ih h.2.2⟩

theorem split (h : InOrder low (ps ++ qs) high) :
    ∃ mid, InOrder low ps mid ∧ InOrder mid qs high := by
  induction ps generalizing low with
  | nil => exact ⟨low, .refl _, h⟩
  | cons p rest ih =>
    obtain ⟨mid, hrest, hqs⟩ := ih h.2.2
    exact ⟨mid, ⟨h.1, h.2.1, hrest⟩, hqs⟩

theorem enclosed (h : InOrder low ps high) {p : Part} (hp : p ∈ ps) :
    p.Sound ∧ Span.Encloses ⟨low, high⟩ p.info.span := by
  induction ps generalizing low with
  | nil => cases hp
  | cons q rest ih =>
    rcases List.mem_cons.mp hp with rfl | hp
    · exact ⟨h.2.1, h.1, h.2.2.le⟩
    · obtain ⟨hsound, henc⟩ := ih h.2.2 hp
      exact ⟨hsound, (h.1.trans h.2.1.forward).trans henc.1, henc.2⟩

/-- Parts in order are in order up to where the last of them ends. -/
theorem upToLast {last : Part} (h : InOrder low (ps ++ [last]) high) :
    InOrder low (ps ++ [last]) last.info.span.stop ∧ last.info.span.stop.Le high := by
  obtain ⟨mid, hps, hlast⟩ := h.split
  exact ⟨hps.append ⟨hlast.1, hlast.2.1, .refl _⟩, hlast.2.2⟩

end InOrder

/-- The text from the first to the last of several parts, or nothing at a
position. -/
def coveredBy (here : Mark) (parts : List Part) : Span :=
  ⟨(parts.head?.map (·.info.span.start)).getD here,
    (parts.getLast?.map (·.info.span.stop)).getD here⟩

/-- A part that takes the place of others keeps the order. -/
theorem InOrder.replace {low here : Mark} {parts behind : List Part}
    (h : InOrder low (parts ++ behind) here) (hbehind : parts = [] → behind = []) {new : Part}
    (hspan : new.info.span = coveredBy here parts) {steps : List (Step Nat)}
    (hinner : new.info.inner = assemble parts steps) : InOrder low (new :: behind) here := by
  rcases List.eq_nil_or_concat parts with rfl | ⟨before, last, rfl⟩
  · rw [hbehind rfl] at h ⊢
    have hsound : new.Sound := ⟨by rw [hspan]; exact .refl _, by rw [hinner]; trivial⟩
    exact ⟨by rw [hspan]; exact h, hsound, by rw [hspan]; exact .refl _⟩
  · obtain ⟨mid, hparts, hafter⟩ := h.split
    rw [List.concat_eq_append] at hparts hspan hinner
    obtain ⟨hupto, hstop⟩ := hparts.upToLast
    have hlast : new.info.span.stop = last.info.span.stop := by rw [hspan]; simp [coveredBy]
    -- the first part says where the new one starts
    obtain ⟨first, rest, hfirst⟩ : ∃ first rest, before ++ [last] = first :: rest :=
      List.exists_cons_of_ne_nil (by simp)
    have hstart : new.info.span.start = first.info.span.start := by rw [hspan, hfirst]; rfl
    have hfrom : InOrder new.info.span.start (before ++ [last]) new.info.span.stop := by
      rw [hlast, hstart]
      rw [hfirst] at hupto ⊢
      exact ⟨.refl _, hupto.2⟩
    have hlow : low.Le new.info.span.start := by
      rw [hfirst] at hupto
      rw [hstart]
      exact hupto.1
    refine ⟨hlow, ⟨hfrom.le, ?_⟩, ?_⟩
    · rw [hinner]
      exact assemble_inside (fun p hp => hfrom.enclosed hp) steps
    · rw [hlast]
      exact hafter.lower hstop

/-! ## Stacks -/

/-- Merging an element with the first of a list, or going on behind it, adds
nothing but the element. -/
theorem mem_of_mem_merge {α : Type} {x s t : α} {rest merged : List α} {alike better : Prop}
    [Decidable alike] [Decidable better]
    (h : x ∈ if alike then (if better then s else t) :: rest else t :: merged)
    (ih : x ∈ merged → x = s ∨ x ∈ rest) : x = s ∨ x ∈ t :: rest := by
  split at h
  · rcases List.mem_cons.mp h with h | h
    · split at h
      · exact .inl h
      · exact .inr (h ▸ List.mem_cons_self)
    · exact .inr (List.mem_cons_of_mem _ h)
  · rcases List.mem_cons.mp h with h | h
    · exact .inr (h ▸ List.mem_cons_self)
    · exact (ih h).imp_right (List.mem_cons_of_mem _)

/-- What holds of all elements and of all that are added one by one holds of
all elements in the end. -/
theorem forall_mem_foldl_add {α : Type} {P : α → Prop} {add : α → List α → List α}
    (hadd : ∀ {s x all}, x ∈ add s all → x = s ∨ x ∈ all) {l all : List α} (hl : ∀ s ∈ l, P s)
    (hall : ∀ s ∈ all, P s) : ∀ x ∈ l.foldl (fun all s => add s all) all, P x := by
  induction l generalizing all with
  | nil => exact hall
  | cons s rest ih =>
    apply ih fun x hx => hl x (List.mem_cons_of_mem _ hx)
    intro x hx
    rcases hadd hx with rfl | hx
    · exact hl x List.mem_cons_self
    · exact hall x hx

section
variable {σ : Type}

/-- The parts of a stack are in order up to a position. -/
def Stack.InOrder (s : Stack σ) (high : Mark) : Prop :=
  Grammar.InOrder ⟨0, 0⟩ (s.reverse.map (·.2)) high

/-- What is taken off a stack is its top, and ends in a part that counts if
anything is taken. -/
theorem Stack.take_eq {n : Nat} {s below : Stack σ} {taken parts : List Part}
    (h : Stack.take n s taken = some (parts, below)) : ∃ removed, s = removed ++ below ∧
      parts = removed.reverse.map (·.2) ++ taken ∧
      (n = 0 ∧ removed = [] ∨ ∃ e ∈ removed, e.2.extra = false) := by
  fun_induction Stack.take n s taken with
  | case1 stack taken =>
    cases h
    exact ⟨[], rfl, rfl, .inl ⟨rfl, rfl⟩⟩
  | case2 => cases h
  | case3 n state p stack taken ih =>
    obtain ⟨removed, rfl, rfl, hcounts⟩ := ih h
    refine ⟨(state, p) :: removed, rfl, by simp, .inr ?_⟩
    cases hp : p.extra with
    | false => exact ⟨(state, p), List.mem_cons_self, hp⟩
    | true =>
      obtain ⟨e, he, hextra⟩ := hcounts.resolve_left (by simp [hp])
      exact ⟨e, List.mem_cons_of_mem _ he, hextra⟩

/-- The pieces of a slice make up the stack again, and nothing is left behind a
slice without parts. -/
theorem Stack.slice_eq {n : Nat} {s : Stack σ} {slice : Slice σ} (h : s.slice n = some slice) :
    s.reverse.map (·.2) = slice.below.reverse.map (·.2) ++ (slice.parts ++ slice.behind) ∧
      (slice.parts = [] → slice.behind = []) := by
  obtain ⟨⟨parts, below⟩, htake, rfl⟩ := Option.map_eq_some_iff.mp h
  obtain ⟨removed, rfl, rfl, hcounts⟩ := Stack.take_eq htake
  have hwhole : ∀ l : List Part, (l.reverse.dropWhile (·.extra)).reverse ++
      (l.reverse.takeWhile (·.extra)).reverse = l := by
    intro l
    rw [← List.reverse_append, List.takeWhile_append_dropWhile, List.reverse_reverse]
  refine ⟨?_, ?_⟩
  · dsimp only
    rw [hwhole, List.append_nil, List.reverse_append, List.map_append]
  · intro hparts
    dsimp only at hparts ⊢
    rw [List.reverse_eq_nil_iff, List.dropWhile_eq_nil_iff] at hparts
    rcases hcounts with ⟨_, rfl⟩ | ⟨e, he, hextra⟩
    · rfl
    · -- a part that counts is never left behind
      have hall := hparts e.2 (by simpa using ⟨e.1, he⟩)
      rw [hextra] at hall
      cases hall

/-- The node of the whole text has only nested nodes below it. -/
theorem Stack.whole_nested {s : Stack σ} {high : Mark} (hs : s.InOrder high) {whole : Part}
    (h : s.whole = some whole) : ∀ t ∈ whole.info.inner.toList, t.Nested := by
  simp only [Stack.whole] at h
  split at h
  · cases h
  · rename_i root after hafter
    cases h
    have hpart : ∀ p ∈ s.reverse.map (·.2), p.Sound ∧ Span.Encloses ⟨⟨0, 0⟩, high⟩ p.info.span :=
      fun p hp => hs.enclosed hp
    have hbehind : ∀ p ∈ root :: after, p ∈ s.reverse.map (·.2) := by
      intro p hp
      rw [← hafter] at hp
      exact (List.dropWhile_sublist _).mem hp
    have hroot := hpart root (hbehind root List.mem_cons_self)
    have hinside : Forest.Inside ⟨⟨0, 0⟩, high⟩
        (.join (assemble ((s.reverse.map (·.2)).takeWhile (·.extra)) [])
          (.join root.info.inner (assemble after []))) :=
      ⟨assemble_inside (fun p hp => hpart p ((List.takeWhile_sublist _).mem hp)) [],
        hroot.1.inner.mono hroot.2,
        assemble_inside (fun p hp => hpart p (hbehind p (List.mem_cons_of_mem _ hp))) []⟩
    intro t ht
    exact (hinside.mem_toList ht).2

/-! ## Branches -/

variable {τ κ : Type} {a : Automaton σ τ} {g : Numbered τ} {lexer : Lexer τ κ}

/-- A token stands behind a cursor, and the cursor behind the token stands
behind the token. -/
structure Lexer.Follows (lexer : Lexer τ κ) (c : κ) (l : Lexeme τ κ) : Prop where
  start : (lexer.mark c).Le l.span.start
  forward : l.span.start.Le l.span.stop
  stop : l.span.stop.Le (lexer.mark l.cursor)

/-- A lexer never goes back, and cursors that read the same stand at the same
place. -/
structure Lexer.Forward (lexer : Lexer τ κ) : Prop where
  next : ∀ {c expects l}, lexer.next c expects = some l → lexer.Follows c l
  same : ∀ {c d}, lexer.same c d = true → lexer.mark c = lexer.mark d

/-- All stacks of a branch are in order up to its cursor. -/
def Branch.InOrder (lexer : Lexer τ κ) (b : Branch σ κ) : Prop :=
  ∀ s ∈ b.piles, Stack.InOrder s (lexer.mark b.cursor)

theorem Slice.finish_inOrder {s : Slice σ} {b : Branch σ κ} {alt : Alternative}
    {kind : Option String} {stack : Stack σ}
    (horder : Grammar.InOrder ⟨0, 0⟩ (s.below.reverse.map (·.2) ++ (s.parts ++ s.behind))
      (lexer.mark b.cursor))
    (hbehind : s.parts = [] → s.behind = []) (h : s.finish a lexer b alt kind = some stack) :
    stack.InOrder (lexer.mark b.cursor) := by
  unfold Slice.finish at h
  obtain ⟨next, _, h⟩ := Option.bind_eq_some_iff.mp h
  cases h
  obtain ⟨mid, hbelow, hparts⟩ := horder.split
  have hstack : ∀ new : Part,
      (s.behind.foldl (fun stack p => (next, p) :: stack)
        ((next, new) :: s.below)).reverse.map (·.2) =
          s.below.reverse.map (·.2) ++ new :: s.behind := by
    intro new
    simp [List.foldl_flip_cons_eq_append, Function.comp_def]
  unfold Stack.InOrder
  rw [hstack]
  exact hbelow.append (hparts.replace hbehind rfl rfl)

theorem Branch.shift_inOrder {b : Branch σ κ} (hb : b.InOrder lexer) {l : Lexeme τ κ}
    (hl : lexer.Follows b.cursor l) (next : σ) (extra : Bool) :
    (b.shift lexer l next extra).InOrder lexer := by
  intro s hs
  obtain ⟨below, hbelow, rfl⟩ := List.mem_map.mp hs
  unfold Stack.InOrder
  rw [List.reverse_cons, List.map_append]
  exact (hb below hbelow).append ⟨hl.start, ⟨hl.forward, trivial⟩, hl.stop⟩

/-! ## Steps of a parse -/

/-- Everything in a parse is in order. -/
structure Parse.InOrder (lexer : Lexer τ κ) (p : Parse σ τ κ) : Prop where
  waiting : ∀ b ∈ p.waiting, b.InOrder lexer
  moved : ∀ b ∈ p.moved, b.InOrder lexer
  current : ∀ b l, p.current = some (b, l) → b.InOrder lexer ∧ lexer.Follows b.cursor l
  result : ∀ whole, p.result = some whole → ∀ t ∈ whole.info.inner.toList, t.Nested

theorem Parse.InOrder.drop {p : Parse σ τ κ} (hp : p.InOrder lexer) : p.drop.InOrder lexer :=
  ⟨hp.waiting, hp.moved, (fun _ _ h => nomatch h), hp.result⟩

theorem Parse.InOrder.advanceTo {p : Parse σ τ κ} (hp : p.InOrder lexer) {b : Branch σ κ}
    (hb : b.InOrder lexer) : (p.advanceTo lexer b).InOrder lexer := by
  unfold Parse.advanceTo
  dsimp only
  split
  · have hmoved : ∀ c ∈ p.moved ++ [b], c.InOrder lexer :=
      List.forall_mem_append.mpr ⟨hp.moved, List.forall_mem_singleton.mpr hb⟩
    exact ⟨hp.waiting, hmoved, (fun _ _ h => nomatch h), hp.result⟩
  · exact ⟨List.forall_mem_cons.mpr ⟨hb, hp.waiting⟩, hp.moved, (fun _ _ h => nomatch h), hp.result⟩

theorem Parse.InOrder.finishWith {p : Parse σ τ κ} (hp : p.InOrder lexer) {whole : Part}
    (hwhole : ∀ t ∈ whole.info.inner.toList, t.Nested) : (p.finishWith whole).InOrder lexer := by
  have hset : ({ p with result := some whole } : Parse σ τ κ).InOrder lexer :=
    ⟨hp.waiting, hp.moved, hp.current, fun _ h => Option.some.inj h ▸ hwhole⟩
  unfold Parse.finishWith
  split
  · exact hset
  · split
    · exact hset
    · exact hp

variable [DecidableEq σ]

theorem Stack.mem_addTo {s x : Stack σ} {all : List (Stack σ)} (h : x ∈ s.addTo all) :
    x = s ∨ x ∈ all := by
  induction all with
  | nil => exact .inl (List.mem_singleton.mp h)
  | cons t rest ih => exact mem_of_mem_merge h ih

theorem Slice.mem_addTo {s x : Slice σ} {all : List (Slice σ)} (h : x ∈ s.addTo all) :
    x = s ∨ x ∈ all := by
  induction all with
  | nil => exact .inl (List.mem_singleton.mp h)
  | cons t rest ih => exact mem_of_mem_merge h ih

theorem addByState_inOrder {cursor : κ} {s : Stack σ} {all : List (Branch σ κ)}
    (hs : s.InOrder (lexer.mark cursor)) (hall : ∀ b ∈ all, b.cursor = cursor ∧ b.InOrder lexer) :
    ∀ b ∈ addByState cursor s all, b.cursor = cursor ∧ b.InOrder lexer := by
  induction all with
  | nil =>
    intro b hb
    unfold addByState at hb
    split at hb
    · cases hb
    · cases List.mem_singleton.mp hb
      exact ⟨rfl, fun t ht => List.mem_singleton.mp ht ▸ hs⟩
  | cons c rest ih =>
    obtain ⟨⟨hcursor, hc⟩, hrest⟩ := List.forall_mem_cons.mp hall
    unfold addByState
    split
    · refine List.forall_mem_cons.mpr ⟨⟨hcursor, ?_⟩, hrest⟩
      intro t ht
      rcases Stack.mem_addTo ht with rfl | ht
      · change Stack.InOrder t (lexer.mark c.cursor)
        rw [hcursor]
        exact hs
      · exact hc t ht
    · exact List.forall_mem_cons.mpr ⟨⟨hcursor, hc⟩, ih hrest⟩

/-- Finishing a rule keeps all stacks in order and the cursor where it is. -/
theorem Branch.reduce_inOrder {b : Branch σ κ} (hb : b.InOrder lexer) (alternative : Nat) :
    ∀ c ∈ b.reduce a g lexer alternative, c.cursor = b.cursor ∧ c.InOrder lexer := by
  unfold Branch.reduce
  split
  · intro c hc
    cases hc
  · rename_i alt _
    have hslices := forall_mem_foldl_add (P := fun s : Slice σ => Grammar.InOrder ⟨0, 0⟩
        (s.below.reverse.map (·.2) ++ (s.parts ++ s.behind)) (lexer.mark b.cursor) ∧
          (s.parts = [] → s.behind = []))
      (l := b.piles.filterMap (Stack.slice alt.body.steps.length)) Slice.mem_addTo ?_
        (List.forall_mem_nil _)
    · refine List.foldlRecOn (motive := fun all : List (Branch σ κ) => ∀ c ∈ all,
        c.cursor = b.cursor ∧ c.InOrder lexer) _ _
        (List.forall_mem_nil _) ?_
      intro all hall stack hstack
      obtain ⟨slice, hslice, hfinish⟩ := List.mem_filterMap.mp hstack
      obtain ⟨horder, hbehind⟩ := hslices slice hslice
      exact addByState_inOrder (Slice.finish_inOrder horder hbehind hfinish) hall
    · intro slice hslice
      obtain ⟨stack, hstack, hslice⟩ := List.mem_filterMap.mp hslice
      obtain ⟨hwhole, hbehind⟩ := Stack.slice_eq hslice
      exact ⟨hwhole ▸ hb stack hstack, hbehind⟩

/-- Joining a branch with another keeps all cursors and the order of all
stacks. -/
theorem Branch.joinInto_inOrder (hlexer : lexer.Forward) {b : Branch σ κ}
    {all all' : List (Branch σ κ)} (hb : b.InOrder lexer) (hall : ∀ c ∈ all, c.InOrder lexer)
    (h : b.joinInto lexer all = some all') :
    (∀ c ∈ all', c.InOrder lexer) ∧ all'.map (·.cursor) = all.map (·.cursor) := by
  induction all generalizing all' with
  | nil => cases h
  | cons c rest ih =>
    have hc := hall c List.mem_cons_self
    have hrest := fun d hd => hall d (List.mem_cons_of_mem c hd)
    unfold Branch.joinInto at h
    split at h
    · rename_i hmeets
      cases h
      have hmark : lexer.mark c.cursor = lexer.mark b.cursor := by
        unfold Branch.meets at hmeets
        exact hlexer.same (Bool.and_eq_true_iff.mp hmeets).2
      rw [Branch.InOrder, ← hmark] at hb
      have hjoined :=
        forall_mem_foldl_add (P := (Stack.InOrder · (lexer.mark c.cursor))) Stack.mem_addTo hb hc
      exact ⟨List.forall_mem_cons.mpr ⟨hjoined, hrest⟩, rfl⟩
    · obtain ⟨rest', hjoined, rfl⟩ := Option.map_eq_some_iff.mp h
      obtain ⟨hin, hcursors⟩ := ih hrest hjoined
      exact ⟨List.forall_mem_cons.mpr ⟨hc, hin⟩, by rw [List.map_cons, List.map_cons, hcursors]⟩

namespace Parse

variable {p : Parse σ τ κ} {b : Branch σ κ} {l : Lexeme τ κ}

/-- A branch that starts to wait keeps everything in order, and only its own
cursor may join those that wait. -/
theorem InOrder.await (hlexer : lexer.Forward) (hp : p.InOrder lexer) (hb : b.InOrder lexer) :
    (p.await lexer b).InOrder lexer ∧ ∃ n, (p.await lexer b).waiting.map (·.cursor) =
      p.waiting.map (·.cursor) ++ List.replicate n b.cursor := by
  unfold Parse.await
  split
  · rename_i moved hmoved
    exact ⟨⟨hp.waiting, (Branch.joinInto_inOrder hlexer hb hp.moved hmoved).1, hp.current,
      hp.result⟩, 0, by simp⟩
  · split
    · rename_i waiting hwaiting
      obtain ⟨hin, hcursors⟩ := Branch.joinInto_inOrder hlexer hb hp.waiting hwaiting
      exact ⟨⟨hin, hp.moved, hp.current, hp.result⟩, 0, by simpa using hcursors⟩
    · have hwaiting : ∀ c ∈ p.waiting ++ [b], c.InOrder lexer :=
        List.forall_mem_append.mpr ⟨hp.waiting, List.forall_mem_singleton.mpr hb⟩
      exact ⟨⟨hwaiting, hp.moved, hp.current, hp.result⟩, 1, by simp⟩

/-- Several branches at one cursor that start to wait. -/
theorem InOrder.awaitAll (hlexer : lexer.Forward) (hp : p.InOrder lexer) {cursor : κ}
    {bs : List (Branch σ κ)} (hbs : ∀ b ∈ bs, b.cursor = cursor ∧ b.InOrder lexer) :
    (bs.foldl (fun p b => p.await lexer b) p).InOrder lexer ∧
      ∃ n, (bs.foldl (fun p b => p.await lexer b) p).waiting.map (·.cursor) =
        p.waiting.map (·.cursor) ++ List.replicate n cursor := by
  induction bs generalizing p with
  | nil => exact ⟨hp, 0, by simp⟩
  | cons b rest ih =>
    obtain ⟨hcursor, hb⟩ := hbs b List.mem_cons_self
    obtain ⟨hin, n, hn⟩ := hp.await hlexer hb
    obtain ⟨hin', k, hk⟩ := ih hin fun c hc => hbs c (List.mem_cons_of_mem _ hc)
    refine ⟨hin', n + k, ?_⟩
    rw [List.foldl_cons, hk, hn, hcursor, List.append_assoc, List.replicate_append_replicate]

/-- Finishing rules of a branch keeps everything in order, and the branch to go
on with stands at the same cursor. -/
theorem InOrder.reduceAll (hlexer : lexer.Forward) (hp : p.InOrder lexer) (hb : b.InOrder lexer)
    (alternatives : List Nat) :
    (p.reduceAll a g lexer b alternatives).1.InOrder lexer ∧
      ∀ n c, (p.reduceAll a g lexer b alternatives).2 = some n →
        (p.reduceAll a g lexer b alternatives).1.waiting[n]? = some c → c.cursor = b.cursor := by
  -- branches that waited before keep their places, and all places behind them belong to
  -- the cursor
  have hrun : (p.reduceAll a g lexer b alternatives).1.InOrder lexer ∧
      (∃ n, (p.reduceAll a g lexer b alternatives).1.waiting.map (·.cursor) =
        p.waiting.map (·.cursor) ++ List.replicate n b.cursor) ∧
      ∀ n, (p.reduceAll a g lexer b alternatives).2 = some n → p.waiting.length ≤ n := by
    unfold Parse.reduceAll
    refine List.foldlRecOn (motive := fun state : Parse σ τ κ × Option Nat =>
      state.1.InOrder lexer ∧
      (∃ n, state.1.waiting.map (·.cursor) = p.waiting.map (·.cursor) ++
        List.replicate n b.cursor) ∧
      ∀ n, state.2 = some n → p.waiting.length ≤ n) _ _ ⟨hp, ⟨0, by simp⟩, by simp⟩ ?_
    rintro ⟨q, last⟩ ⟨hq, ⟨n, hn⟩, hlast⟩ alternative _
    obtain ⟨hin, k, hk⟩ := hq.awaitAll hlexer (Branch.reduce_inOrder hb alternative)
    refine ⟨hin, ⟨n + k, by rw [hk, hn, List.append_assoc, List.replicate_append_replicate]⟩, ?_⟩
    intro place hplace
    have hlength := congrArg List.length hn
    simp only [List.length_map, List.length_append, List.length_replicate] at hlength
    dsimp only at hplace
    split at hplace
    · cases hplace
      omega
    · exact hlast place hplace
  obtain ⟨hin, ⟨k, hk⟩, hlast⟩ := hrun
  refine ⟨hin, ?_⟩
  intro n c hn hc
  have hcursor : ((p.reduceAll a g lexer b alternatives).1.waiting.map (·.cursor))[n]? =
      some c.cursor := by
    rw [List.getElem?_map, hc]
    rfl
  rw [hk, List.getElem?_append_right (by simpa using hlast n hn),
    List.getElem?_replicate] at hcursor
  split at hcursor
  · exact (Option.some.inj hcursor).symm
  · cases hcursor

/-- An action of a branch keeps everything in order. -/
theorem InOrder.act (hlexer : lexer.Forward) (hp : p.InOrder lexer) (hb : b.InOrder lexer)
    (hl : lexer.Follows b.cursor l) : (p.act a g lexer b l).InOrder lexer := by
  unfold Parse.act
  dsimp only
  split
  · apply InOrder.drop
    refine List.foldlRecOn (motive := fun q : Parse σ τ κ => q.InOrder lexer) _ _ hp ?_
    intro q hq whole hwhole
    obtain ⟨stack, hstack, hwhole⟩ := List.mem_filterMap.mp hwhole
    exact hq.finishWith (Stack.whole_nested (hb stack hstack) hwhole)
  · have hreduce := fun alternatives => hp.reduceAll (a := a) (g := g) hlexer hb alternatives
    split
    · exact (hreduce _).1.advanceTo (Branch.shift_inOrder hb hl _ _)
    · rename_i n _ hn
      obtain ⟨hin, hcursor⟩ := hreduce _
      split
      · rename_i c hc
        refine ⟨fun d hd => hin.waiting d (List.mem_of_mem_eraseIdx hd), hin.moved, ?_, hin.result⟩
        intro c' l' hcurrent
        cases hcurrent
        refine ⟨hin.waiting c (List.mem_of_getElem? hc), ?_⟩
        rw [hcursor n c hn hc]
        exact hl
      · exact hin.drop
    · split
      · exact (hreduce _).1.advanceTo (Branch.shift_inOrder hb hl _ _)
      · exact (hreduce _).1.drop

theorem InOrder.step (hlexer : lexer.Forward) (hp : p.InOrder lexer) :
    (p.step a g lexer).InOrder lexer := by
  unfold Parse.step
  split
  · rename_i b l hcurrent
    obtain ⟨hb, hl⟩ := hp.current b l hcurrent
    exact hp.act hlexer hb hl
  · rename_i hcurrent
    split
    · rename_i b rest hwaiting
      have hb : ∀ c ∈ b :: rest, c.InOrder lexer := hwaiting ▸ hp.waiting
      have hrest := fun c hc => hb c (List.mem_cons_of_mem b hc)
      split
      · rename_i l hnext
        refine ⟨hrest, hp.moved, ?_, hp.result⟩
        intro b' l' h
        cases h
        exact ⟨hb b List.mem_cons_self, hlexer.next hnext⟩
      · exact ⟨hrest, hp.moved, hp.current, hp.result⟩
    · refine ⟨?_, List.forall_mem_nil _, hp.current, hp.result⟩
      refine List.foldlRecOn
        (motive := fun all : List (Branch σ κ) => ∀ c ∈ all, c.InOrder lexer)
        _ _ (List.forall_mem_nil _) ?_
      intro all hall b hb
      cases hjoin : b.joinInto lexer all with
      | some joined => exact (Branch.joinInto_inOrder hlexer (hp.moved b hb) hall hjoin).1
      | none =>
        exact List.forall_mem_append.mpr ⟨hall, List.forall_mem_singleton.mpr (hp.moved b hb)⟩

theorem InOrder.run (hlexer : lexer.Forward) {fuel : Nat} (hp : p.InOrder lexer) {whole : Part}
    (h : run a g lexer fuel p = some whole) : ∀ t ∈ whole.info.inner.toList, t.Nested := by
  induction fuel generalizing p with
  | zero => exact hp.result whole h
  | succ fuel ih =>
    unfold Parse.run at h
    split at h
    · exact hp.result whole h
    · exact ih (hp.step hlexer) h

end Parse

/-- Every node below the node of a whole text covers all nodes below it. -/
theorem parseTree_nested (hlexer : lexer.Forward) {cursor : κ} {fuel : Nat} {tree : Tree}
    (h : parseTree a g lexer cursor fuel = some tree) : ∀ c ∈ tree.children, c.Nested := by
  unfold parseTree at h
  obtain ⟨whole, hrun, h⟩ := Option.bind_eq_some_iff.mp h
  obtain ⟨kind, _, h⟩ := Option.bind_eq_some_iff.mp h
  cases h
  have hstart : Parse.InOrder lexer
      ({ waiting := [{ state := a.start, piles := [[]], cursor }] } : Parse σ τ κ) := by
    refine ⟨?_, List.forall_mem_nil _, (fun _ _ h => nomatch h), (fun _ h => nomatch h)⟩
    intro b hb s hs
    cases List.mem_singleton.mp hb
    cases List.mem_singleton.mp hs
    exact ⟨Nat.zero_le _, Nat.zero_le _⟩
  exact hstart.run hlexer hrun

end

end CodeAtlas.Grammar

/-! ## The lexer of Python -/

namespace CodeAtlas.Python

open CodeAtlas.Grammar

theorem le_after (m : Mark) (c : Char) : m.Le (after m c) := by
  refine ⟨Nat.le_succ _, ?_⟩
  unfold after
  dsimp only
  split <;> omega

theorem le_foldl_after (text : List Char) (m : Mark) : m.Le (text.foldl after m) := by
  induction text generalizing m with
  | nil => exact .refl m
  | cons c rest ih => exact (le_after m c).trans (ih _)

theorem Cursor.le_skip (c : Cursor) (n : Nat) : c.mark.Le (c.skip n).mark := le_foldl_after _ _

variable {c d : Cursor} {l : Lexeme Token Cursor} {expects : Token → Bool}

theorem Cursor.follows_token (c : Cursor) (t : Token) (n : Nat) : lexer.Follows c (c.token t n) :=
  ⟨.refl _, c.le_skip n, .refl _⟩

theorem follows_of_le (h : c.mark.Le d.mark) (hl : lexer.Follows d l) : lexer.Follows c l :=
  ⟨h.trans hl.start, hl.forward, hl.stop⟩

theorem scanBlank_le {comments inComment : Bool} {skip : Nat} {b b' : Blank} {m m' : Mark}
    {text rest : List Char} (h : scanBlank comments inComment skip b m text = some (b', m', rest)) :
    m.Le m' := by
  fun_induction scanBlank comments inComment skip b m text
  case case2 | case3 | case4 | case5 | case6 | case7 | case8 | case9 | case11 | case12 | case13
    | case14 =>
    -- a character is gone over
    rename_i ih
    exact (le_after _ _).trans (ih h)
  case case10 | case15 => cases h
  case case1 | case16 =>
    cases h
    exact .refl _

theorem readLayout_follows (h : readLayout c expects = some l) : lexer.Follows c l := by
  unfold readLayout at h
  obtain ⟨⟨blank, mark, rest⟩, hblank, h⟩ := Option.bind_eq_some_iff.mp h
  have hle := scanBlank_le hblank
  have hhere : ∀ (t : Token) (next : Cursor), next.mark = c.mark →
      lexer.Follows c ⟨t, ⟨c.mark, c.mark⟩, next⟩ := by
    intro t next hnext
    refine ⟨.refl _, .refl _, ?_⟩
    change c.mark.Le next.mark
    rw [hnext]
    exact .refl _
  dsimp only at h
  split at h
  · cases h
    exact hhere _ _ rfl
  · split at h
    · cases h
      exact hhere _ _ rfl
    · split at h
      · cases h
        exact hhere _ _ rfl
      · split at h
        · obtain ⟨⟨quote, length⟩, _, h⟩ := Option.bind_eq_some_iff.mp h
          cases h
          have hopened := Cursor.follows_token { c with mark, rest } .stringStart length
          exact follows_of_le (d := { c with mark, rest }) hle
            ⟨hopened.start, hopened.forward, hopened.stop⟩
        · cases h

theorem readToken_follows (h : readToken c expects = some l) : lexer.Follows c l := by
  unfold readToken at h
  dsimp only at h
  split at h
  · cases h
    exact c.follows_token _ _
  · rw [ite_eq_iff] at h
    rcases h with ⟨_, h⟩ | ⟨_, h⟩
    · cases h
      exact follows_of_le (c.le_skip _) (Cursor.follows_token _ _ _)
    · obtain ⟨⟨t, n⟩, _, rfl⟩ := Option.map_eq_some_iff.mp h
      exact follows_of_le (c.le_skip _) (Cursor.follows_token _ _ _)

theorem readNext_follows (h : readNext c expects = some l) : lexer.Follows c l := by
  have hplain : (readLayout c expects).or (readToken c expects) = some l → lexer.Follows c l := by
    intro h
    rcases Option.or_eq_some_iff.mp h with h | ⟨_, h⟩
    · exact readLayout_follows h
    · exact readToken_follows h
  unfold readNext at h
  split at h
  · split at h
    · split at h
      · cases h
        exact c.follows_token _ _
      · exact readToken_follows h
    · split at h
      · split at h
        · cases h
          exact c.follows_token _ _
        · cases h
          obtain ⟨hstart, hforward, hstop⟩ := c.follows_token .stringEnd _
          exact ⟨hstart, hforward, hstop⟩
        · exact readToken_follows h
      · exact hplain h
  · exact hplain h

theorem lexer_forward : lexer.Forward where
  next := readNext_follows
  same := by
    intro c d h
    simp only [lexer, Bool.and_eq_true, decide_eq_true_eq] at h
    exact h.1.1.1

/-- A parse of a text is a tree whose nodes cover all nodes below them, the
node of the whole text aside. -/
theorem parse_origin {source : String} {root : Node} (h : parse source = some root) :
    ∃ tree, root = Node.ofTree source.toList.toArray tree ∧ ∀ c ∈ tree.children, c.Nested := by
  obtain ⟨tree, htree, rfl⟩ := Option.map_eq_some_iff.mp h
  exact ⟨tree, rfl, parseTree_nested lexer_forward htree⟩

end CodeAtlas.Python
