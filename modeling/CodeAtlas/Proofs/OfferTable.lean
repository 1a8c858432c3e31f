import CodeAtlas.Proofs.Offers

/-! # The table of names that a package offers

The table is filled twice over: with every name that an import binds, and then
with the names that the package lists. A listed name is looked up among the
imports first and only then among the definitions of the package, so every
entry that comes in, from either source, says of a name what the look-up says
of it. Full names of different names are different, so no entry takes the place
of one that says something else, and the table has just the entries that
came in. What a list of names adds are names of the package's own definitions,
which stand for themselves. -/
namespace CodeAtlas

/-- The full name of a name in a package. The root package has no name, and
there a name is its own full name. -/
inductive FullName : String → String → String → Prop
  | root (name : String) : FullName "" name name
  | inside {package : String} (name : String) : package ≠ "" →
      FullName package name (package ++ "." ++ name)

theorem fullName_iff {package name full : String} :
    FullName package name full ↔ full = qualify package name := by
  unfold qualify
  constructor
  · intro h
    cases h with
    | root => rfl
    | inside _ hne => rw [if_neg hne]
  · rintro rfl
    split
    · rename_i hroot
      rw [hroot]
      exact .root name
    · rename_i hne
      exact .inside name hne

namespace ModuleRecord

variable {m : ModuleRecord} {listed : List String} {full origin : String}

/-- A class or function of this name is defined in the module, and is not a
member of a class. -/
def DefinesName (m : ModuleRecord) (name : String) : Prop :=
  ∃ s ∈ m.symbols, (s.kind = .classDef ∨ s.kind = .function) ∧ '.' ∉ s.name.toList ∧ s.name = name

theorem mem_topLevelDefinitions {name : String} :
    name ∈ m.topLevelDefinitions ↔ m.DefinesName name := by
  simp only [topLevelDefinitions, DefinesName, List.mem_map, List.mem_filter, decide_eq_true_eq,
    and_assoc]

/-- A package that lists these names offers a full name, which stands for the
other one: an import binds the name, or the name is listed, no import binds it
and the package defines it. -/
inductive Offer (m : ModuleRecord) (listed : List String) : String → String → Prop
  | bound {name origin full : String} : m.importAliases.get? name = some origin →
      FullName m.dotted name full →
      Offer m listed full origin
  | own {name full : String} : name ∈ listed → m.importAliases.get? name = none →
      m.DefinesName name →
      FullName m.dotted name full → Offer m listed full full

/-- The entries from which the table of offered names is made. -/
def offerEntries (m : ModuleRecord) (listed : List String) : List (String × String) :=
  (m.importAliases.toList.map fun e => (qualify m.dotted e.1, e.2)) ++
    listed.filterMap fun name => (m.exportOrigin name).map (qualify m.dotted name, ·)

theorem offered_eq (m : ModuleRecord) (listed : List String) :
    m.offered listed = .ofList (m.offerEntries listed) := rfl

theorem exportOrigin_of_bound {name : String} (h : m.importAliases.get? name = some origin) :
    m.exportOrigin name = some origin := by
  simp only [exportOrigin, h]

theorem exportOrigin_of_unbound {name : String} (h : m.importAliases.get? name = none) :
    m.exportOrigin name = some origin ↔ m.DefinesName name ∧ origin = qualify m.dotted name := by
  simp only [exportOrigin, h, List.contains_iff_mem, mem_topLevelDefinitions,
    Option.ite_none_right_eq_some, Option.some.injEq, eq_comm (a := qualify m.dotted name)]

/-- Every entry says of a name what the look-up says of it. -/
theorem exportOrigin_of_mem {e : String × String} (he : e ∈ m.offerEntries listed) :
    ∃ name, e.1 = qualify m.dotted name ∧ m.exportOrigin name = some e.2 := by
  rcases List.mem_append.mp he with hbound | hnamed
  · obtain ⟨⟨name, origin⟩, hentry, rfl⟩ := List.mem_map.mp hbound
    exact ⟨name, rfl, exportOrigin_of_bound (Dict.mem_toList.mp hentry)⟩
  · obtain ⟨name, _, hentry⟩ := List.mem_filterMap.mp hnamed
    obtain ⟨origin, horigin, rfl⟩ := Option.map_eq_some_iff.mp hentry
    exact ⟨name, rfl, horigin⟩

/-- No entry takes the place of one that says something else. -/
theorem offerEntries_agree :
    ∀ e ∈ m.offerEntries listed, ∀ e' ∈ m.offerEntries listed, e.1 = e'.1 → e.2 = e'.2 := by
  intro e he e' he' hkey
  obtain ⟨name, hname, horigin⟩ := exportOrigin_of_mem he
  obtain ⟨name', hname', horigin'⟩ := exportOrigin_of_mem he'
  obtain rfl : name = name' := qualify_injective (hname.symm.trans (hkey.trans hname'))
  exact Option.some.inj (horigin.symm.trans horigin')

theorem mem_offerEntries_iff :
    (full, origin) ∈ m.offerEntries listed ↔ m.Offer listed full origin := by
  constructor
  · intro h
    rcases List.mem_append.mp h with hbound | hnamed
    · obtain ⟨⟨name, _⟩, hentry, heq⟩ := List.mem_map.mp hbound
      cases heq
      exact .bound (Dict.mem_toList.mp hentry) (fullName_iff.mpr rfl)
    · obtain ⟨name, hlisted, hentry⟩ := List.mem_filterMap.mp hnamed
      obtain ⟨_, horigin, heq⟩ := Option.map_eq_some_iff.mp hentry
      cases heq
      cases halias : m.importAliases.get? name with
      | some target =>
        obtain rfl : target = origin :=
          Option.some.inj ((exportOrigin_of_bound halias).symm.trans horigin)
        exact .bound halias (fullName_iff.mpr rfl)
      | none =>
        obtain ⟨hdefined, rfl⟩ := (exportOrigin_of_unbound halias).mp horigin
        exact .own hlisted halias hdefined (fullName_iff.mpr rfl)
  · intro h
    cases h with
    | @bound name _ _ halias hfull =>
      rw [fullName_iff.mp hfull]
      exact List.mem_append_left _
        (List.mem_map.mpr ⟨(name, origin), Dict.mem_toList.mpr halias, rfl⟩)
    | @own name _ hlisted halias hdefined hfull =>
      rw [fullName_iff.mp hfull]
      refine List.mem_append_right _ (List.mem_filterMap.mpr ⟨name, hlisted, ?_⟩)
      rw [(exportOrigin_of_unbound halias).mpr ⟨hdefined, rfl⟩]
      rfl

/-- The table has exactly the offers. -/
theorem offered_get?_iff :
    (m.offered listed).get? full = some origin ↔ m.Offer listed full origin := by
  rw [offered_eq, Dict.get?_ofList_iff_of_agree offerEntries_agree, mem_offerEntries_iff]

theorem Offer.mono {listed' : List String} (h : m.Offer listed full origin)
    (hsub : ∀ name ∈ listed, name ∈ listed') : m.Offer listed' full origin := by
  cases h with
  | bound halias hfull => exact .bound halias hfull
  | own hlisted halias hdefined hfull => exact .own (hsub _ hlisted) halias hdefined hfull

/-- A name that does not stand for itself is offered because an import binds
it, whatever is listed. -/
theorem offer_elsewhere_iff (hne : full ≠ origin) :
    m.Offer listed full origin ↔ m.Offer [] full origin := by
  constructor
  · intro h
    cases h with
    | bound halias hfull => exact .bound halias hfull
    | own => exact absurd rfl hne
  · intro h
    exact h.mono fun _ hname => absurd hname List.not_mem_nil

theorem offered_congr {listed' : List String} (h : ∀ name, name ∈ listed ↔ name ∈ listed') :
    m.offered listed = m.offered listed' := by
  refine Dict.ext_get? fun key => Option.ext fun value => ?_
  rw [offered_get?_iff, offered_get?_iff]
  exact ⟨fun hoffer => hoffer.mono fun name => (h name).mp,
    fun hoffer => hoffer.mono fun name => (h name).mpr⟩

theorem trackReexports_of_init (h : m.isPackageInit = true) (listed : Option (List String)) :
    m.trackReexports listed = { m with reexports := m.offered (listed.getD []) } := if_pos h

theorem trackReexports_of_plain (h : m.isPackageInit = false) (listed : Option (List String)) :
    m.trackReexports listed = m := if_neg (by simp [h])

/-- **What a package offers.** A module that is no package stays as it is. In a
package nothing but the table of offered names changes, and its entries are the
full names of all names that imports bind, with what they stand for, and the
full names of those listed classes and functions of the package that no import
binds, which stand for themselves. So neither the order of listed names nor
repetitions matter, the table of an earlier time has no part in the new one,
and a list changes nothing about names that stand for other names. -/
theorem trackReexports_records_offers (m : ModuleRecord) (listed : Option (List String)) :
    (m.isPackageInit = false → m.trackReexports listed = m) ∧
    (m.isPackageInit = true →
      ∃ table : Dict String, m.trackReexports listed = { m with reexports := table } ∧
      ∀ full origin, table.get? full = some origin ↔ m.Offer (listed.getD []) full origin) ∧
    (∀ names names' : List String, (∀ name, name ∈ names ↔ name ∈ names') →
      m.trackReexports (some names) = m.trackReexports (some names')) ∧
    (∀ earlier, (m.trackReexports earlier).trackReexports listed = m.trackReexports listed) ∧
    ∀ full origin, full ≠ origin → ((m.trackReexports listed).reexports.get? full = some origin ↔
      (m.trackReexports none).reexports.get? full = some origin) := by
  cases hinit : m.isPackageInit with
  | false =>
    have hsame := trackReexports_of_plain hinit
    refine ⟨fun _ => hsame listed, nofun, ?_, ?_, ?_⟩
    · intro names names' _
      rw [hsame, hsame]
    · intro earlier
      rw [hsame earlier]
    · intro full origin _
      rw [hsame, hsame]
  | true =>
    have htrack := trackReexports_of_init hinit
    refine ⟨nofun, fun _ => ⟨_, htrack listed, fun full origin => offered_get?_iff⟩, ?_, ?_, ?_⟩
    · intro names names' hsame
      rw [htrack, htrack, Option.getD_some, Option.getD_some, offered_congr hsame]
    · intro earlier
      rw [htrack earlier, htrack listed]
      -- the table of the earlier time is not looked at, only replaced
      exact trackReexports_of_init (m := { m with reexports := m.offered (earlier.getD []) })
        hinit listed
    · intro full origin hne
      rw [htrack, htrack]
      exact offered_get?_iff.trans ((offer_elsewhere_iff hne).trans offered_get?_iff.symm)

/-- A package that imports a function from one of its modules and defines
another one itself. -/
def versionedPackage : ModuleRecord :=
  { (ModuleRecord.skeleton 1 "pkg/__init__.py" "pkg" "py" {}).withFunction "version" with
    importAliases := .ofList [("load", "pkg.io.load")] }

/-- A name of the package's own is offered if it is listed, in whatever order
and how often; an import goes first, and a name that nothing defines is not
offered. -/
theorem versionedPackage_offers : versionedPackage.isPackageInit = true ∧
    versionedPackage.trackReexports (some ["version", "load", "ghost", "version"]) =
      versionedPackage.trackReexports (some ["ghost", "version", "load"]) ∧
    (versionedPackage.trackReexports (some ["ghost", "version", "load"])).reexports.toList =
      [("pkg.load", "pkg.io.load"), ("pkg.version", "pkg.version")] ∧
    versionedPackage.Offer ["ghost", "version", "load"] "pkg.version" "pkg.version" := by
  have hinit : versionedPackage.isPackageInit = true := by decide +kernel
  obtain ⟨_, hexact, horder, _⟩ :=
    trackReexports_records_offers versionedPackage (some ["ghost", "version", "load"])
  obtain ⟨table, htable, hoffers⟩ := hexact hinit
  have htable' : table = versionedPackage.offered ["ghost", "version", "load"] := by
    rw [trackReexports_of_init hinit] at htable
    exact (congrArg reexports htable).symm
  refine ⟨hinit, horder _ _ (by grind), by decide +kernel, (hoffers _ _).mp ?_⟩
  rw [htable']
  decide +kernel

end ModuleRecord

end CodeAtlas
