import CodeAtlas.Proofs.DottedName

/-! # Names that a package offers

A package offers every name that its imports bind. Asking for such a name by
the package's own dotted name leads to what the import meant: a callable of the
package itself goes first, and else the origin of the import is looked up. The
conditions are the ways to lose this: a module with the name itself, another
package that offers the same name, a name that stands for itself, and
another module that owns the name of the package. -/
namespace CodeAtlas

open Text

theorem qualify_injective {package a b : String} (h : qualify package a = qualify package b) :
    a = b := by
  unfold qualify at h
  split at h
  · exact h
  · apply String.toList_injective
    have hchars := congrArg String.toList h
    simpa only [String.toList_append, List.append_cancel_left_eq] using hchars

/-- A key is found by its one value, wherever in the list it stands. -/
theorem lookup_of_unique {α : Type} {l : List (String × α)} {k : String} {v : α} (hmem : (k, v) ∈ l)
    (hone : ∀ e ∈ l, e.1 = k → e.2 = v) : l.lookup k = some v := by
  cases hl : l.lookup k with
  | none => exact absurd (List.lookup_eq_none_iff.mp hl (k, v) hmem) (by simp)
  | some w =>
    obtain ⟨front, back, he, _⟩ := List.lookup_eq_some_iff.mp hl
    rw [← hone (k, w) (by simp [he]) rfl]

namespace ModuleRecord

/-- A package offers what an import binds, and a list of names to offer cannot
change that. -/
theorem offered_of_alias {m : ModuleRecord} {name origin : String}
    (h : m.importAliases.get? name = some origin) (listed : List String) :
    (m.offered listed).get? (qualify m.dotted name) = some origin := by
  unfold offered
  rw [Dict.get?_ofList]
  apply lookup_of_unique
  · refine List.mem_reverse.mpr (List.mem_append_left _ ?_)
    exact List.mem_map.mpr ⟨(name, origin), Dict.mem_toList.mpr h, rfl⟩
  · intro e he hkey
    rcases List.mem_append.mp (List.mem_reverse.mp he) with hbound | hnamed
    · obtain ⟨⟨other, origin'⟩, hentry, rfl⟩ := List.mem_map.mp hbound
      have hsame : other = name := qualify_injective hkey
      have hget := Dict.mem_toList.mp hentry
      rw [hsame, h] at hget
      exact (Option.some.inj hget).symm
    · obtain ⟨other, _, hentry⟩ := List.mem_filterMap.mp hnamed
      obtain ⟨origin', horigin, rfl⟩ := Option.map_eq_some_iff.mp hentry
      have hsame : other = name := qualify_injective hkey
      rw [hsame] at horigin
      simp only [exportOrigin, h] at horigin
      exact (Option.some.inj horigin).symm

end ModuleRecord

/-- What one module alone offers is what the merged table says. -/
theorem ReexportMap.entry_of_one {t : ModuleTable} {k : String} {m : ModuleRecord}
    {name origin : String} (hm : t.get? k = some m) (h : m.reexports.get? name = some origin)
    (hother : ∀ e ∈ t.toList, e.1 ≠ k → e.2.reexports.get? name = none) :
    (build t).entries.get? name = some origin := by
  unfold build
  rw [Dict.get?_ofList]
  apply lookup_of_unique
  · refine List.mem_reverse.mpr (List.mem_flatMap.mpr ⟨m, Dict.mem_values_of_get? hm, ?_⟩)
    exact Dict.mem_toList.mpr h
  · intro e he hkey
    obtain ⟨m', hm', hentry⟩ := List.mem_flatMap.mp (List.mem_reverse.mp he)
    obtain ⟨k', hk'⟩ := Dict.mem_values.mp hm'
    have hget := Dict.mem_toList.mp hentry
    rw [hkey] at hget
    by_cases hk : k' = k
    · rw [hk, hm] at hk'
      cases hk'
      rw [h] at hget
      exact (Option.some.inj hget).symm
    · rw [hother (k', m') (Dict.mem_toList.mpr hk') hk] at hget
      cases hget

/-- The table in which every package records what it offers, given the names
that each one lists. -/
def ModuleTable.tracked (t : ModuleTable) (listed : String → Option (List String)) : ModuleTable :=
  t.map fun k m => m.trackReexports (listed k)

theorem ModuleTable.tracked_reexports {t : ModuleTable} {listed : String → Option (List String)}
    {k : String} {m : ModuleRecord} (hm : (t.tracked listed).get? k = some m)
    (hinit : m.isPackageInit = true) : m.reexports = m.offered ((listed k).getD []) := by
  unfold tracked at hm
  rw [Dict.get?_map] at hm
  obtain ⟨m₀, _, rfl⟩ := Option.map_eq_some_iff.mp hm
  have hinit₀ : m₀.isPackageInit = true := by
    obtain ⟨table, htable, _⟩ := ModuleRecord.trackReexports_eq m₀ (listed k)
    rw [htable] at hinit
    exact hinit
  unfold ModuleRecord.trackReexports
  rw [if_pos hinit₀]
  rfl

/-- A package owns its dotted name and binds a name to an origin, and nothing
stands in the way of asking for it by its full name: no module has that name,
no other module offers it, and it does not stand for itself. -/
structure ModuleTable.Offers (t : ModuleTable) (k : String) (package : ModuleRecord)
    (name origin : String) : Prop where
  package_at : t.get? k = some package
  isInit : package.isPackageInit = true
  owner : (RepoIndex.build t).pathForDotted package.dotted = some k
  bound : package.importAliases.get? name = some origin
  undotted : '.' ∉ name.toList
  elsewhere : origin ≠ package.dotted ++ "." ++ name
  noModule : ∀ m ∈ t.values, m.dotted ≠ package.dotted ++ "." ++ name
  noRival : ∀ e ∈ t.toList, e.1 ≠ k → e.2.reexports.get? (package.dotted ++ "." ++ name) = none

instance (t : ModuleTable) (k : String) (package : ModuleRecord) (name origin : String) :
    Decidable (t.Offers k package name origin) :=
  decidable_of_iff (t.get? k = some package ∧ package.isPackageInit = true ∧
      (RepoIndex.build t).pathForDotted package.dotted = some k ∧
        package.importAliases.get? name = some origin ∧
      '.' ∉ name.toList ∧ origin ≠ package.dotted ++ "." ++ name ∧
      (∀ m ∈ t.values, m.dotted ≠ package.dotted ++ "." ++ name) ∧
      ∀ e ∈ t.toList, e.1 ≠ k → e.2.reexports.get? (package.dotted ++ "." ++ name) = none)
    ⟨fun ⟨hk, hi, ho, hb, hu, he, hm, hr⟩ => ⟨hk, hi, ho, hb, hu, he, hm, hr⟩,
      fun h => ⟨h.package_at, h.isInit, h.owner, h.bound, h.undotted, h.elsewhere, h.noModule,
        h.noRival⟩⟩

namespace CallResolver

/-- One hop through a package that is found only as a whole leads to the symbol
behind the offer. -/
theorem chase_of_offer {r : CallResolver} {dotted origin : String} {anchor found : Target}
    (hops : Nat) (hanchor : r.tryDirect dotted = some anchor)
    (hfurther : r.mayLeadFurther (some anchor) = true)
    (horigin : r.reexports.origin dotted = some origin) (hfound : r.tryDirect origin = some found)
    (hsymbol : found.symbol ≠ noSymbol) : r.chase (hops + 1) dotted = some found := by
  have hnext := chase_of_symbol hops hfound hsymbol
  simp [chase, hanchor, hfurther, horigin, hnext, better, Target.isAnchor, hsymbol]

/-- The segments of a dotted name stand for what the name stands for, unless
an import binds the first one. -/
theorem resolveQualified_split {r : CallResolver} {m : ModuleRecord} {dotted : String}
    (h : m.importAliases.get? ((split '.' dotted).headD "") = none) :
    r.resolveQualified m (split '.' dotted) = r.resolveDotted dotted 0 := by
  have hjoin := join_split_dots dotted
  cases hs : split '.' dotted with
  | nil => exact absurd hs (split_ne_nil '.' dotted)
  | cons head rest =>
    rw [hs] at h hjoin
    have hhead : m.importAliases.get? head = none := h
    rw [resolveQualified_of_unbound rest (by rw [hhead, Option.getD_none]), hjoin]

variable {t : ModuleTable} {k : String} {package : ModuleRecord} {name origin : String}

/-- Asked for directly, an offered name is looked up in the package. -/
theorem tryDirect_offered (h : t.Offers k package name origin) :
    (ofModules t).tryDirect (package.dotted ++ "." ++ name) =
      some ⟨package.id, (package.lookupCallable name).getD noSymbol⟩ := by
  have hfull : join "." (split '.' package.dotted ++ [name]) = package.dotted ++ "." ++ name := by
    rw [join_append (split_ne_nil _ _) (by simp), join_split_dots, join_singleton]
  rw [← hfull]
  apply tryDirect_of_owner
  · intro s hs
    rcases List.mem_append.mp hs with hs | hs
    · exact not_mem_of_mem_split hs
    · rw [List.mem_singleton.mp hs]
      exact h.undotted
  · exact split_ne_nil _ _
  · rw [join_split_dots]
    exact h.owner
  · exact h.package_at
  · intro extra hne hprefix
    rcases List.prefix_cons_iff.mp hprefix with hnil | ⟨more, hcons, hmore⟩
    · exact absurd hnil hne
    · rw [hcons, List.prefix_nil.mp hmore, hfull]
      exact RepoIndex.no_owner h.noModule

theorem mayLeadFurther_package (hids : t.DistinctIds) (h : t.Offers k package name origin) :
    (ofModules t).mayLeadFurther (some ⟨package.id, noSymbol⟩) = true := by
  have hinit : (ofModules t).isPackageInit package.id = true :=
    (isPackageInit_of_get? hids h.package_at).trans h.isInit
  simp [mayLeadFurther, Target.isAnchor, hinit]

theorem origin_offered (h : t.Offers k package name origin) {listed : List String}
    (htracked : package.reexports = package.offered listed) :
    (ofModules t).reexports.origin (package.dotted ++ "." ++ name) = some origin := by
  have hnamed : qualify package.dotted name = package.dotted ++ "." ++ name :=
    if_neg (RepoIndex.owner_dotted h.owner).1
  have hoffered : package.reexports.get? (package.dotted ++ "." ++ name) = some origin := by
    rw [htracked, ← hnamed]
    exact ModuleRecord.offered_of_alias h.bound listed
  have hentry := ReexportMap.entry_of_one h.package_at hoffered h.noRival
  show ((ReexportMap.build t).entries.get? _).filter _ = some origin
  rw [hentry]
  simp [h.elsewhere]

/-- **What a package offers leads back to where it comes from.** Let every
package of a table with distinct numbers record what it offers, whatever names
it lists, and let one of them bind a name by an import. Asked for by its full
name, a callable of the package goes first; if it has none, the answer is what
the import stands for, provided that is a symbol. The same holds for the
segments of the full name in any module whose imports leave the first of them
alone. -/
theorem offered_name_round_trip (t : ModuleTable) (listed : String → Option (List String))
    (hids : (t.tracked listed).DistinctIds) (h : (t.tracked listed).Offers k package name origin) :
    (∀ id, id ≠ noSymbol → package.lookupCallable name = some id →
      (ofModules (t.tracked listed)).resolveDotted (package.dotted ++ "." ++ name) 0 =
        some ⟨package.id, id⟩) ∧
    (package.lookupCallable name = none →
      ∀ found, (ofModules (t.tracked listed)).tryDirect origin = some found →
      found.symbol ≠ noSymbol →
        (ofModules (t.tracked listed)).resolveDotted (package.dotted ++ "." ++ name) 0 =
          (ofModules (t.tracked listed)).tryDirect origin) ∧
    (∀ m : ModuleRecord,
      m.importAliases.get? ((split '.' (package.dotted ++ "." ++ name)).headD "") = none →
      (ofModules (t.tracked listed)).resolveQualified m
        (split '.' (package.dotted ++ "." ++ name)) =
        (ofModules (t.tracked listed)).resolveDotted (package.dotted ++ "." ++ name) 0) := by
  have hdirect := tryDirect_offered h
  refine ⟨?_, ?_, fun m hhead => resolveQualified_split hhead⟩
  · intro id hid hcallable
    rw [hcallable] at hdirect
    exact chase_of_symbol _ hdirect hid
  · intro hnone found hfound hsymbol
    rw [hnone] at hdirect
    have horigin := origin_offered h (ModuleTable.tracked_reexports h.package_at h.isInit)
    rw [hfound]
    exact chase_of_offer 7 hdirect (mayLeadFurther_package hids h) horigin hfound hsymbol

/-- A package that imports a function from one of its modules and gives it
another name. -/
def importingPackage : ModuleRecord :=
  { ModuleRecord.skeleton 1 "pkg/__init__.py" "pkg" "py" {} with
    importAliases := .ofList [("run", "pkg.core.f")] }

def importingTable : ModuleTable := .ofList [("pkg/__init__.py", importingPackage),
  ("pkg/core.py", (ModuleRecord.skeleton 2 "pkg/core.py" "pkg.core" "py" {}).withFunction "f")]

/-- The function is found under the new name in the package, whatever the
package lists. -/
theorem offered_name_renamed :
    (importingTable.tracked fun _ => some ["other"]).Offers "pkg/__init__.py"
        (importingPackage.trackReexports (some ["other"])) "run" "pkg.core.f" ∧
      (ofModules (importingTable.tracked fun _ => some ["other"])).resolveDotted "pkg.run" 0 =
        some ⟨2, 2⟩ := by
  have hids : (importingTable.tracked fun _ => some ["other"]).DistinctIds := by decide +kernel
  have hoffers : (importingTable.tracked fun _ => some ["other"]).Offers "pkg/__init__.py"
      (importingPackage.trackReexports (some ["other"])) "run" "pkg.core.f" := by decide +kernel
  have hfound :
      (ofModules (importingTable.tracked fun _ => some ["other"])).tryDirect "pkg.core.f" =
      some ⟨2, 2⟩ := by
    decide +kernel
  have hround :=
    (offered_name_round_trip importingTable _ hids hoffers).2.1 (by decide +kernel)
      ⟨2, 2⟩ hfound (by decide)
  rw [hfound] at hround
  exact ⟨hoffers, hround⟩

end CallResolver

end CodeAtlas
