import CodeAtlas.Proofs.Resolution

/-! # The trail that offers of packages leave

Asking for a name tries it directly, and as long as that finds nothing or only
a package as a whole, an offer of the name leads to the next one. Written down,
the names that are tried form a trail. The chase decides between what it found
and what lies behind it at every hop on the way back; over the whole trail this
comes to looking at its last name first, and then for the first name that
stands for anything. -/
namespace CodeAtlas

namespace CallResolver

/-- Nothing was found, or only a package as a whole. -/
def Unsettled (t : ModuleTable) (found : Option Target) : Prop :=
  found = none ∨ ∃ m ∈ t.values, m.isPackageInit = true ∧ found = some ⟨m.id, noSymbol⟩

instance (t : ModuleTable) (found : Option Target) : Decidable (Unsettled t found) :=
  inferInstanceAs (Decidable (found = none ∨ ∃ m ∈ t.values, m.isPackageInit = true ∧
    found = some ⟨m.id, noSymbol⟩))

/-- An offer leads from a name to another. -/
structure Leads (t : ModuleTable) (name next : String) : Prop where
  unsettled : Unsettled t ((ofModules t).tryDirect name)
  origin : (ofModules t).reexports.origin name = some next

instance (t : ModuleTable) (name next : String) : Decidable (Leads t name next) :=
  decidable_of_iff (Unsettled t ((ofModules t).tryDirect name) ∧
    (ofModules t).reexports.origin name = some next)
    ⟨fun h => ⟨h.1, h.2⟩, fun h => ⟨h.unsettled, h.origin⟩⟩

/-- The names tried for a name, in order, when so many hops have been made
already. -/
inductive Trail (t : ModuleTable) : Nat → String → List String → Prop
  | last {hops : Nat} {name : String} : (hops < maxReexportHops → ∀ next, ¬Leads t name next) →
      Trail t hops name [name]
  | hop {hops : Nat} {name next : String} {names : List String} : hops < maxReexportHops →
      Leads t name next →
      Trail t (hops + 1) next names → Trail t hops name (name :: names)

/-- What names that were tried one after the other come to: the last one, if it
stands for a symbol, and else the first one that stands for anything. -/
def verdict (r : CallResolver) (names : List String) : Option Target :=
  match names.getLast?.bind r.tryDirect with
  | some target => if target.isAnchor then names.findSome? r.tryDirect else some target
  | none => names.findSome? r.tryDirect

variable {t : ModuleTable} {hops : Nat} {name next : String} {names : List String}

theorem unsettled_iff (hids : t.DistinctIds) (found : Option Target) :
    Unsettled t found ↔ (ofModules t).mayLeadFurther found = true := by
  cases found with
  | none => simp [Unsettled, mayLeadFurther]
  | some target =>
    obtain ⟨module, symbol⟩ := target
    simp only [Unsettled, mayLeadFurther, reduceCtorEq, false_or, Option.some.injEq,
      Target.mk.injEq, Bool.and_eq_true, Target.isAnchor, decide_eq_true_eq]
    constructor
    · rintro ⟨m, hm, hinit, hid, hsymbol⟩
      obtain ⟨k, hk⟩ := Dict.mem_values.mp hm
      rw [hid, isPackageInit_of_get? hids hk]
      exact ⟨hsymbol, hinit⟩
    · rintro ⟨hsymbol, hinit⟩
      change ((t.byId module).map _).getD false = true at hinit
      cases hm : t.byId module with
      | none => rw [hm] at hinit; cases hinit
      | some m =>
        rw [hm] at hinit
        obtain ⟨hmem, hid⟩ := (ModuleTable.byId_eq_some_iff hids).mp hm
        exact ⟨m, hmem, hinit, hid.symm, hsymbol⟩

theorem Unsettled.isAnchor {target : Target} (h : Unsettled t (some target)) :
    target.isAnchor = true := by
  rcases h with h | ⟨m, _, _, h⟩
  · cases h
  · cases h
    rfl

/-! ## There is one trail -/

theorem Trail.ne_nil (h : Trail t hops name names) : names ≠ [] := by
  cases h <;> simp

theorem Trail.unique {other : List String} (h : Trail t hops name names)
    (ho : Trail t hops name other) : other = names := by
  induction h generalizing other with
  | last hend =>
    cases ho with
    | last => rfl
    | hop hlt hleads => exact absurd hleads (hend hlt _)
  | hop hlt hleads _ ih =>
    cases ho with
    | last hend => exact absurd hleads (hend hlt _)
    | hop _ hleads' hrest =>
      have hnext := Option.some.inj (hleads.origin.symm.trans hleads'.origin)
      subst hnext
      rw [ih hrest]

theorem exists_trail (t : ModuleTable) (hops : Nat) (name : String) :
    ∃ names, Trail t hops name names := by
  -- the hops left are what decreases; a cycle of offers changes nothing about that
  induction hleft : maxReexportHops - hops generalizing hops name with
  | zero => exact ⟨[name], .last fun hlt => by omega⟩
  | succ left ih =>
    by_cases hleads : ∃ next, Leads t name next
    · obtain ⟨next, hnext⟩ := hleads
      obtain ⟨names, hnames⟩ := ih (hops + 1) next (by omega)
      exact ⟨name :: names, .hop (by omega) hnext hnames⟩
    · exact ⟨[name], .last fun _ next hnext => hleads ⟨next, hnext⟩⟩

theorem Trail.length_le (h : Trail t hops name names) :
    names.length ≤ maxReexportHops - hops + 1 := by
  induction h with
  | last => simp
  | hop hlt _ _ ih =>
    rw [List.length_cons]
    omega

/-- Names that lead to each other make a trail, if the last one leads nowhere
or no hop is left there. -/
theorem trail_of_isChain (hchain : (name :: names).IsChain (Leads t))
    (hlength : hops + names.length ≤ maxReexportHops)
    (hend : hops + names.length < maxReexportHops → ∀ last, (name :: names).getLast? = some last →
      ∀ next, ¬Leads t last next) : Trail t hops name (name :: names) := by
  induction names generalizing hops name with
  | nil => exact .last fun hlt => hend hlt name rfl
  | cons next rest ih =>
    obtain ⟨hleads, hrest⟩ := List.isChain_cons_cons.mp hchain
    rw [List.length_cons] at hlength hend
    refine .hop (by omega) hleads (ih hrest (by omega) fun hlt => ?_)
    exact hend (by omega)

/-! ## What a trail comes to -/

theorem getLast?_cons_of_ne_nil (name : String) (h : names ≠ []) :
    (name :: names).getLast? = names.getLast? := by
  obtain ⟨head, rest, rfl⟩ := List.exists_cons_of_ne_nil h
  rfl

theorem verdict_of_symbol {r : CallResolver} {target : Target}
    (hlast : names.getLast?.bind r.tryDirect = some target) (hsymbol : target.symbol ≠ noSymbol) :
    r.verdict names = some target := by
  simp [verdict, hlast, Target.isAnchor, hsymbol]

theorem verdict_of_no_symbol {r : CallResolver}
    (hlast : ∀ target, names.getLast?.bind r.tryDirect = some target → target.symbol = noSymbol) :
    r.verdict names = names.findSome? r.tryDirect := by
  unfold verdict
  split
  · rename_i target htarget
    simp [Target.isAnchor, hlast target htarget]
  · rfl

/-- Only the last name of a trail can stand for a symbol. -/
theorem Trail.findSome?_isAnchor (h : Trail t hops name names)
    (hlast : ∀ target, names.getLast?.bind (ofModules t).tryDirect = some target →
      target.symbol = noSymbol)
    {target : Target} (hfound : names.findSome? (ofModules t).tryDirect = some target) :
    target.isAnchor = true := by
  induction h with
  | last =>
    rw [List.findSome?_singleton] at hfound
    exact decide_eq_true (hlast target hfound)
  | @hop hops name next names _ hleads hrest ih =>
    rw [getLast?_cons_of_ne_nil name hrest.ne_nil] at hlast
    have hunsettled := hleads.unsettled
    rw [List.findSome?_cons] at hfound
    split at hfound
    · rename_i direct hdirect
      cases hfound
      rw [hdirect] at hunsettled
      exact hunsettled.isAnchor
    · exact ih hlast hfound

/-- One hop: the better of what is found directly and what lies behind the
offer. -/
theorem Trail.verdict_hop (hleads : Leads t name next) (h : Trail t hops next names) :
    (ofModules t).verdict (name :: names) =
      better ((ofModules t).tryDirect name) ((ofModules t).verdict names) := by
  have hlast := getLast?_cons_of_ne_nil name h.ne_nil
  have hunsettled := hleads.unsettled
  by_cases hsymbol : ∃ target, names.getLast?.bind (ofModules t).tryDirect = some target ∧
    target.symbol ≠ noSymbol
  · obtain ⟨target, htarget, hsymbol⟩ := hsymbol
    rw [verdict_of_symbol htarget hsymbol, verdict_of_symbol (hlast ▸ htarget) hsymbol]
    cases (ofModules t).tryDirect name <;> simp [better, Target.isAnchor, hsymbol]
  · have hnone : ∀ target, names.getLast?.bind (ofModules t).tryDirect = some target →
        target.symbol = noSymbol := by
      intro target htarget
      by_contra hne
      exact hsymbol ⟨target, htarget, hne⟩
    rw [verdict_of_no_symbol hnone, verdict_of_no_symbol (hlast ▸ hnone), List.findSome?_cons]
    cases hdirect : (ofModules t).tryDirect name with
    | none => rfl
    | some direct =>
      -- what lies behind is no symbol either, so the package that was found first stays
      cases hbehind : names.findSome? (ofModules t).tryDirect with
      | none => rfl
      | some target => simp [better, h.findSome?_isAnchor hnone hbehind]

theorem chase_of_settled {r : CallResolver} (left : Nat)
    (h : r.mayLeadFurther (r.tryDirect name) = true → 0 < left → r.reexports.origin name = none) :
    r.chase left name = r.tryDirect name := by
  cases left with
  | zero => rfl
  | succ left =>
    simp only [chase]
    split
    · rename_i hfurther
      rw [h hfurther (Nat.succ_pos left)]
      cases r.tryDirect name <;> rfl
    · rfl

theorem Trail.chase_eq (hids : t.DistinctIds) (h : Trail t hops name names) :
    (ofModules t).chase (maxReexportHops - hops) name = (ofModules t).verdict names := by
  induction h with
  | @last hops name hend =>
    have hsettled :
        (ofModules t).chase (maxReexportHops - hops) name = (ofModules t).tryDirect name := by
      apply chase_of_settled
      intro hfurther hleft
      cases horigin : (ofModules t).reexports.origin name with
      | none => rfl
      | some next =>
        exact absurd ⟨(unsettled_iff hids _).mpr hfurther, horigin⟩ (hend (by omega) next)
    rw [hsettled]
    simp only [verdict, List.getLast?_singleton, Option.bind_some, List.findSome?_singleton]
    cases (ofModules t).tryDirect name with
    | none => rfl
    | some target => simp
  | @hop hops name next names hlt hleads hrest ih =>
    have hleft : maxReexportHops - hops = maxReexportHops - (hops + 1) + 1 := by omega
    have hfurther := (unsettled_iff hids _).mp hleads.unsettled
    rw [hleft, chase, if_pos hfurther, hleads.origin, Option.bind_some, ih,
      hrest.verdict_hop hleads]

/-- **The chase through offers in closed form.** Whatever packages offer, in
chains of any length or in circles, a name has one trail, of at most nine
names. If its last name stands for a symbol, that is what the name stands for;
else it is what the first name of the trail that stands for anything does. So a
chain of up to eight offers that ends in a symbol leads to it, and after eight
offers that lead to none the answer no longer depends on a ninth. -/
theorem resolveDotted_closed_form (hids : t.DistinctIds) (name : String) :
    (∀ hops, ∃ names last, Trail t hops name names ∧
      (∀ other, Trail t hops name other → other = names) ∧
      names.length ≤ 8 - hops + 1 ∧ names.getLast? = some last ∧
      (∀ target, (ofModules t).tryDirect last = some target → target.symbol ≠ noSymbol →
        (ofModules t).resolveDotted name hops = some target) ∧
      ((∀ target, (ofModules t).tryDirect last = some target → target.symbol = noSymbol) →
        (ofModules t).resolveDotted name hops = names.findSome? (ofModules t).tryDirect)) ∧
    (∀ names last target, (name :: names).IsChain (Leads t) → names.length ≤ 8 →
      (name :: names).getLast? = some last →
      (ofModules t).tryDirect last = some target → target.symbol ≠ noSymbol →
        (ofModules t).resolveDotted name 0 = some target) ∧
    (∀ names last, (name :: names).IsChain (Leads t) → names.length = 8 →
      (name :: names).getLast? = some last →
      Unsettled t ((ofModules t).tryDirect last) →
        (ofModules t).resolveDotted name 0 =
          (name :: names).findSome? (ofModules t).tryDirect) := by
  refine ⟨?_, ?_, ?_⟩
  · intro hops
    obtain ⟨names, hnames⟩ := exists_trail t hops name
    obtain ⟨last, hlast⟩ :=
      Option.ne_none_iff_exists'.mp (mt List.getLast?_eq_none_iff.mp hnames.ne_nil)
    have hchase : (ofModules t).resolveDotted name hops = (ofModules t).verdict names :=
      hnames.chase_eq hids
    have hbind : names.getLast?.bind (ofModules t).tryDirect = (ofModules t).tryDirect last := by
      rw [hlast]; rfl
    refine ⟨names, last, hnames, fun other => hnames.unique, hnames.length_le, hlast, ?_, ?_⟩
    · intro target htarget hsymbol
      exact hchase.trans (verdict_of_symbol (hbind.trans htarget) hsymbol)
    · intro hnone
      exact hchase.trans (verdict_of_no_symbol (hbind ▸ hnone))
  · intro names last target hchain hlength hlast htarget hsymbol
    have htrail : Trail t 0 name (name :: names) := by
      refine trail_of_isChain hchain (by rw [Nat.zero_add]; exact hlength) ?_
      intro _ final hfinal next hleads
      have hunsettled := hleads.unsettled
      rw [Option.some.inj (hfinal.symm.trans hlast), htarget] at hunsettled
      exact hsymbol (of_decide_eq_true hunsettled.isAnchor)
    exact (htrail.chase_eq hids).trans (verdict_of_symbol (by rw [hlast]; exact htarget) hsymbol)
  · intro names last hchain hlength hlast hunsettled
    have hnone : ∀ target, (name :: names).getLast?.bind (ofModules t).tryDirect = some target →
        target.symbol = noSymbol := by
      intro target htarget
      rw [hlast] at htarget
      rw [show (ofModules t).tryDirect last = some target from htarget] at hunsettled
      exact of_decide_eq_true hunsettled.isAnchor
    have htrail : Trail t 0 name (name :: names) := by
      refine trail_of_isChain hchain (by rw [hlength]; decide) ?_
      intro hlt
      exact absurd hlt (by rw [hlength]; decide)
    exact (htrail.chase_eq hids).trans (verdict_of_no_symbol hnone)

/-- Packages in a row, each of which offers `f` from the next one, and behind
the last the module that defines it. -/
def relayTable (packages : List String) (home : String) : ModuleTable :=
  let relayed := (packages.zip (packages.tail ++ [home])).zipIdx.map fun e =>
    (e.1.1 ++ "/__init__.py",
      { ModuleRecord.skeleton (e.2 + 2) (e.1.1 ++ "/__init__.py") e.1.1 "py" {} with
      reexports := .ofList [(e.1.1 ++ ".f", e.1.2 ++ ".f")] })
  .ofList
    ((home ++ ".py", (ModuleRecord.skeleton 1 (home ++ ".py") home "py" {}).withFunction "f") ::
    relayed)

/-- With nine packages the function is eight offers away from the second and
nine from the first, which is left with its own package. -/
theorem resolveDotted_relayed :
    (ofModules (relayTable ["a", "b", "c", "d", "e", "f", "g", "h", "i"] "z")).resolveDotted
        "b.f" 0 = some ⟨1, 2⟩ ∧
      (ofModules (relayTable ["a", "b", "c", "d", "e", "f", "g", "h", "i"] "z")).resolveDotted
        "a.f" 0 = some ⟨2, noSymbol⟩ := by
  have hids : (relayTable ["a", "b", "c", "d", "e", "f", "g", "h", "i"] "z").DistinctIds := by
    decide +kernel
  constructor
  · exact (resolveDotted_closed_form hids "b.f").2.1
      ["c.f", "d.f", "e.f", "f.f", "g.f", "h.f", "i.f", "z.f"] "z.f" ⟨1, 2⟩
      (by decide +kernel) (by decide) rfl (by decide +kernel) (by decide)
  · rw [(resolveDotted_closed_form hids "a.f").2.2
      ["b.f", "c.f", "d.f", "e.f", "f.f", "g.f", "h.f", "i.f"] "i.f"
      (by decide +kernel) rfl rfl (by decide +kernel)]
    decide +kernel

end CallResolver

end CodeAtlas
