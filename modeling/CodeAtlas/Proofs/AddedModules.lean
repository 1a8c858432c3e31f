import CodeAtlas.Proofs.Containment
import CodeAtlas.Proofs.DottedName
import CodeAtlas.Proofs.IndexSearch
import Mathlib.Logic.Relation

/-! # Modules that are added elsewhere

A module that is added to a table can take a name from its owner, own a longer
leading part of a name, offer a name in the place of another package, or have
the number of another module. If it offers nothing and has a number of its own,
then only the first two are left, and both need a module whose name is a
leading part of the name that is looked up. So a name stands for the same as
before, unless the name of an added module is a leading part of it or of a name
that offers lead to. -/
namespace CodeAtlas

open Text

namespace ModuleTable

/-- The modules of a table that another one does not have. -/
def added (t t' : ModuleTable) : List (String × ModuleRecord) :=
  t'.toList.filter fun e => !t.contains e.1

/-- A table grows by modules that have numbers of their own and offer nothing. -/
structure Grows (t t' : ModuleTable) : Prop where
  keeps : ∀ e ∈ t.toList, t'.get? e.1 = some e.2
  numbered : ∀ e ∈ t.added t', ∀ other ∈ t'.toList, other.1 ≠ e.1 → other.2.id ≠ e.2.id
  plain : ∀ e ∈ t.added t', e.2.reexports = {}

instance (t t' : ModuleTable) : Decidable (t.Grows t') :=
  decidable_of_iff ((∀ e ∈ t.toList, t'.get? e.1 = some e.2) ∧
      (∀ e ∈ t.added t', ∀ other ∈ t'.toList, other.1 ≠ e.1 → other.2.id ≠ e.2.id) ∧
      ∀ e ∈ t.added t', e.2.reexports = {})
    ⟨fun h => ⟨h.1, h.2.1, h.2.2⟩, fun h => ⟨h.keeps, h.numbered, h.plain⟩⟩

/-- No name of an added module is a leading part of a name. -/
def Unrelated (t t' : ModuleTable) (name : String) : Prop :=
  ∀ e ∈ t.added t', ¬split '.' e.2.dotted <+: split '.' name

instance (t t' : ModuleTable) (name : String) : Decidable (t.Unrelated t' name) :=
  inferInstanceAs (Decidable (∀ e ∈ t.added t', ¬split '.' e.2.dotted <+: split '.' name))

/-- An offer of a package leads from a name to another. -/
def Offered (t : ModuleTable) (name origin : String) : Prop :=
  (ReexportMap.build t).origin name = some origin

/-- Added modules have to do neither with a name nor with any name that offers
lead to from it. -/
def Undisturbed (t t' : ModuleTable) (name : String) : Prop :=
  ∀ reached, Relation.ReflTransGen t.Offered name reached → t.Unrelated t' reached

theorem Undisturbed.offered {t t' : ModuleTable} {name origin : String} (h : t.Undisturbed t' name)
    (ho : t.Offered name origin) : t.Undisturbed t' origin := by
  intro reached hreached
  exact h reached (hreached.head ho)

/-- It is enough to look at names among which offers stay. -/
theorem undisturbed_of_closed {t t' : ModuleTable} {name : String} (names : List String)
    (hname : name ∈ names) (hclosed : ∀ a ∈ names, ∀ b ∈ (ReexportMap.build t).origin a, b ∈ names)
    (hfree : ∀ a ∈ names, t.Unrelated t' a) : t.Undisturbed t' name := by
  intro reached hreached
  apply hfree
  induction hreached with
  | refl => exact hname
  | tail _ hoffered ih => exact hclosed _ ih _ hoffered

variable {t t' : ModuleTable}

theorem mem_added {e : String × ModuleRecord} :
    e ∈ t.added t' ↔ t'.get? e.1 = some e.2 ∧ t.get? e.1 = none := by
  rw [added, List.mem_filter, Dict.mem_toList]
  simp [Dict.contains]

theorem Grows.get? (h : t.Grows t') {k : String} {m : ModuleRecord} (hm : t.get? k = some m) :
    t'.get? k = some m :=
  h.keeps (k, m) (Dict.mem_toList.mpr hm)

/-- The table from before is what is left without the added modules. -/
theorem Grows.toList_eq (h : t.Grows t') :
    t'.toList.filter (fun e => t.contains e.1) = t.toList := by
  -- tables are compared entry by entry, so the list is made a table first
  have hrest : (⟨t'.entries.filter fun e => t.contains e.1, t'.sorted.filter _⟩ : ModuleTable) =
      t := by
    apply Dict.ext_get?
    intro k
    apply Option.ext
    intro m
    rw [Dict.get?_eq_some_iff]
    show (k, m) ∈ t'.toList.filter _ ↔ _
    rw [List.mem_filter, Dict.mem_toList]
    constructor
    · intro hm
      obtain ⟨old, hold⟩ := Option.isSome_iff_exists.mp hm.2
      rw [hold, ← hm.1, h.get? hold]
    · intro hm
      exact ⟨h.get? hm, by simp [Dict.contains, hm]⟩
  exact congrArg Dict.toList hrest

theorem Grows.distinctIds (h : t.Grows t') (hids : t.DistinctIds) : t'.DistinctIds := by
  apply distinctIds_of_key_eq
  intro k k' m m' hm hm' hid
  by_contra hne
  cases hk : t.get? k with
  | none =>
    exact h.numbered (k, m) (mem_added.mpr ⟨hm, hk⟩) (k', m') (Dict.mem_toList.mpr hm')
      (Ne.symm hne) hid.symm
  | some old =>
    cases hk' : t.get? k' with
    | none =>
      exact h.numbered (k', m') (mem_added.mpr ⟨hm', hk'⟩) (k, m) (Dict.mem_toList.mpr hm) hne hid
    | some old' =>
      cases hm.symm.trans (h.get? hk)
      cases hm'.symm.trans (h.get? hk')
      exact hne (hids.key_eq hk hk' hid)

theorem Grows.byId_eq (h : t.Grows t') (hids : t.DistinctIds) {m : ModuleRecord}
    (hm : m ∈ t.values) : t'.byId m.id = t.byId m.id := by
  obtain ⟨k, hk⟩ := Dict.mem_values.mp hm
  rw [(byId_eq_some_iff hids).mpr ⟨hm, rfl⟩,
    (byId_eq_some_iff (h.distinctIds hids)).mpr ⟨Dict.mem_values_of_get? (h.get? hk), rfl⟩]

/-! ## What the index and the offers say -/

theorem flatMap_filter_of_nil {α β : Type} {p : α → Bool} {f : α → List β} {l : List α}
    (h : ∀ x ∈ l, p x = false → f x = []) : (l.filter p).flatMap f = l.flatMap f := by
  induction l with
  | nil => rfl
  | cons x rest ih =>
    obtain ⟨hx, hrest⟩ := List.forall_mem_cons.mp h
    cases hp : p x with
    | false =>
      rw [List.filter_cons_of_neg (by simp [hp]), List.flatMap_cons, hx hp, List.nil_append,
        ih hrest]
    | true => rw [List.filter_cons_of_pos hp, List.flatMap_cons, List.flatMap_cons, ih hrest]

theorem Grows.reexports_eq (h : t.Grows t') : ReexportMap.build t' = ReexportMap.build t := by
  rw [ReexportMap.build_eq, ReexportMap.build_eq, ← h.toList_eq, flatMap_filter_of_nil]
  intro e he hnew
  rw [h.plain e (List.mem_filter.mpr ⟨he, by simp [hnew]⟩)]
  rfl

/-- A name that no added module has stays with its owner. -/
theorem Grows.pathForDotted_eq (h : t.Grows t') {dotted : String}
    (hnone : ∀ e ∈ t.added t', e.2.dotted ≠ dotted) :
    (RepoIndex.build t').pathForDotted dotted = (RepoIndex.build t).pathForDotted dotted := by
  by_cases hempty : dotted = ""
  · rw [hempty, RepoIndex.pathForDotted_build_empty, RepoIndex.pathForDotted_build_empty]
  · have hnamed : t'.named dotted = t.named dotted := by
      unfold named
      rw [← h.toList_eq, List.filter_filter]
      apply List.filter_congr
      intro e he
      by_cases hdotted : e.2.dotted = dotted
      · have hold : t.contains e.1 = true := by
          by_contra hnew
          exact hnone e (List.mem_filter.mpr ⟨he, by simp [hnew]⟩) hdotted
        simp [hdotted, hold]
      · simp [hdotted]
    rw [RepoIndex.pathForDotted_build t' hempty, RepoIndex.pathForDotted_build t hempty, hnamed]

theorem longestPrefixOf_congr {index index' : RepoIndex} {segments : List String} {len : Nat}
    (h : ∀ n, 0 < n → index'.pathForDotted (join "." (segments.take n)) =
      index.pathForDotted (join "." (segments.take n))) :
    index'.longestPrefixOf segments len = index.longestPrefixOf segments len := by
  induction len with
  | zero => rfl
  | succ len ih => simp only [RepoIndex.longestPrefixOf, h (len + 1) (Nat.succ_pos len), ih]

theorem Grows.longestPrefixModule_eq (h : t.Grows t') {name : String}
    (hname : t.Unrelated t' name) :
    (RepoIndex.build t').longestPrefixModule name =
      (RepoIndex.build t).longestPrefixModule name := by
  apply longestPrefixOf_congr
  intro n hn
  apply h.pathForDotted_eq
  intro e he hdotted
  apply hname e he
  have hsplit : split '.' (join "." ((split '.' name).take n)) = (split '.' name).take n := by
    apply split_join_dots
    · intro hnil
      rcases List.take_eq_nil_iff.mp hnil with hzero | hnone
      · omega
      · exact split_ne_nil '.' name hnone
    · intro s hs
      exact not_mem_of_mem_split (List.mem_of_mem_take hs)
  rw [hdotted, hsplit]
  exact List.take_prefix n _

end ModuleTable

/-! ## What names stand for -/

def Target.InTable (t : ModuleTable) (target : Target) : Prop :=
  ∃ m ∈ t.values, m.id = target.module

namespace CallResolver

open ModuleTable

variable {t t' : ModuleTable} {name : String}

theorem tryDirect_inTable {target : Target} (h : (ofModules t).tryDirect name = some target) :
    target.InTable t := by
  obtain ⟨path, used, m, _, hm, rfl⟩ := tryDirect_eq_some_iff.mp h
  exact ⟨m, Dict.mem_values_of_get? hm, rfl⟩

theorem tryDirect_grows (h : t.Grows t') (hname : t.Unrelated t' name) :
    (ofModules t').tryDirect name = (ofModules t).tryDirect name := by
  have hindex : (ofModules t').index.longestPrefixModule name =
      (ofModules t).index.longestPrefixModule name :=
    h.longestPrefixModule_eq hname
  unfold tryDirect
  rw [hindex]
  cases hfound : (ofModules t).index.longestPrefixModule name with
  | none => rfl
  | some found =>
    obtain ⟨path, used⟩ := found
    obtain ⟨_, _, howner, _⟩ := RepoIndex.longestPrefixOf_eq_some_iff.mp hfound
    obtain ⟨_, m, hm, _⟩ := RepoIndex.owner_dotted howner
    show (t'.get? path).bind _ = (t.get? path).bind _
    rw [hm, h.get? hm]

theorem mayLeadFurther_grows (h : t.Grows t') (hids : t.DistinctIds) {found : Option Target}
    (hfound : ∀ target, found = some target → target.InTable t) :
    (ofModules t').mayLeadFurther found = (ofModules t).mayLeadFurther found := by
  cases found with
  | none => rfl
  | some target =>
    obtain ⟨m, hm, hid⟩ := hfound target rfl
    simp only [mayLeadFurther, isPackageInit]
    show (_ && ((t'.byId target.module).map _).getD false) =
      (_ && ((t.byId target.module).map _).getD false)
    rw [← hid, h.byId_eq hids hm]

theorem chase_grows (h : t.Grows t') (hids : t.DistinctIds) (hops : Nat)
    (hname : t.Undisturbed t' name) :
    (ofModules t').chase hops name = (ofModules t).chase hops name := by
  have hreexports : (ofModules t').reexports = (ofModules t).reexports := h.reexports_eq
  induction hops generalizing name with
  | zero => exact tryDirect_grows h (hname name .refl)
  | succ hops ih =>
    simp only [chase, tryDirect_grows h (hname name .refl), hreexports,
      mayLeadFurther_grows h hids fun _ => tryDirect_inTable]
    cases horigin : (ofModules t).reexports.origin name with
    | none => rfl
    | some next => rw [Option.bind_some, Option.bind_some, ih (hname.offered horigin)]

theorem isProperty_grows (h : t.Grows t') (hids : t.DistinctIds) {target : Target}
    (htarget : target.InTable t) :
    (ofModules t').isProperty target = (ofModules t).isProperty target := by
  obtain ⟨m, hm, hid⟩ := htarget
  unfold isProperty
  show (_ && (((t'.byId target.module).bind _).map _).getD false) =
    (_ && (((t.byId target.module).bind _).map _).getD false)
  rw [← hid, h.byId_eq hids hm]

theorem resolveCallee_grows (h : t.Grows t') (hids : t.DistinctIds) {m : ModuleRecord}
    {callee : Callee}
    (hcallee : ∀ head rest, callee = .qualified (head :: rest) →
      t.Undisturbed t' (expand m head rest)) :
    (ofModules t').resolveCallee m callee = (ofModules t).resolveCallee m callee := by
  match callee with
  | .plain _ | .qualified [] => rfl
  | .qualified (head :: rest) => exact chase_grows h hids _ (hcallee head rest rfl)

theorem resolveCallee_inTable {k : String} {m : ModuleRecord} (hm : t.get? k = some m)
    {callee : Callee} {target : Target} (h : (ofModules t).resolveCallee m callee = some target) :
    target.InTable t := by
  match callee with
  | .plain name =>
    obtain ⟨id, _, rfl⟩ := Option.map_eq_some_iff.mp h
    exact ⟨m, Dict.mem_values_of_get? hm, rfl⟩
  | .qualified [] => cases h
  | .qualified (head :: rest) =>
    obtain ⟨name, hname⟩ := exists_tryDirect_of_chase h
    exact tryDirect_inTable hname

/-- **Modules that are added elsewhere change nothing.** Let a table grow by
modules that have numbers of their own and offer nothing. A name stands for the
same as before, whatever number of hops has been made, if the name of no
added module is a leading part of it or of any name that offers lead to from
it. So a call site of a module from before gets the same edge, or none as
before, if its callee is a plain name or means such a name. -/
theorem resolution_survives_added_modules (hids : t.DistinctIds) (h : t.Grows t') :
    (∀ name, t.Undisturbed t' name → ∀ hops,
      (ofModules t').resolveDotted name hops = (ofModules t).resolveDotted name hops) ∧
    ∀ k m, t.get? k = some m → ∀ site : CallSite,
      (∀ head rest, site.callee = .qualified (head :: rest) →
        t.Undisturbed t' (expand m head rest)) →
        (ofModules t').resolveSite m site = (ofModules t).resolveSite m site := by
  refine ⟨fun name hname hops => chase_grows h hids _ hname, ?_⟩
  intro k m hm site hsite
  unfold resolveSite
  rw [resolveCallee_grows h hids hsite]
  cases htarget : (ofModules t).resolveCallee m site.callee with
  | none => rfl
  | some target =>
    simp only [Option.bind_eq_bind, Option.bind_some,
      isProperty_grows h hids (resolveCallee_inTable hm htarget)]

/-- A package offers a function, and a module is added whose name goes on from
the name of the offer. -/
theorem call_through_package_beside_added_module :
    ∃ main e, offeringTable.get? "main.py" = some main ∧ e.targetSymbol = 2 ∧
      (ofModules offeringTable).resolveSite main ⟨some "run", .qualified ["pkg", "f"], 3⟩ = some e ∧
      (ofModules (offeringTable.insert "pkg/f/g.py"
          ((ModuleRecord.skeleton 4 "pkg/f/g.py" "pkg.f.g" "py" {}).withFunction "f"))).resolveSite
        main ⟨some "run", .qualified ["pkg", "f"], 3⟩ = some e := by
  have hmain : offeringTable.get? "main.py" =
      some ((ModuleRecord.skeleton 1 "main.py" "main" "py" {}).withFunction "run") := by
    decide +kernel
  have hids : offeringTable.DistinctIds := by decide +kernel
  have hgrows : offeringTable.Grows (offeringTable.insert "pkg/f/g.py"
      ((ModuleRecord.skeleton 4 "pkg/f/g.py" "pkg.f.g" "py" {}).withFunction "f")) := by
    decide +kernel
  have hedge : (ofModules offeringTable).resolveSite
      ((ModuleRecord.skeleton 1 "main.py" "main" "py" {}).withFunction "run")
      ⟨some "run", .qualified ["pkg", "f"], 3⟩ = some ⟨2, 3, 2⟩ := by
    decide +kernel
  refine ⟨_, _, hmain, rfl, hedge, ?_⟩
  rw [(resolution_survives_added_modules hids hgrows).2 "main.py" _ hmain _ ?_, hedge]
  intro head rest hcallee
  cases hcallee
  exact undisturbed_of_closed ["pkg.f", "pkg.core.f"] (by decide +kernel) (by decide +kernel)
    (by decide +kernel)

end CallResolver

end CodeAtlas
