import QbsCore.PkgConfig.Requirements

/-!
# Runs of merging

What a run does with the hash, apart from the flags that it merges: no entry is lost, and each
new entry belongs to a package that the run was called for or that was looked up by its name.

Main results:

- Theorem {lit}`PkgConfig.mergeFunc_frame`: entries are kept, and new entries come from the
  package itself or from looking up a name.
- Theorem {lit}`PkgConfig.mergeAll_frame`: the same of merging some packages.
-/

namespace Qbs

namespace PkgConfig

open PcPackage OrderedClosure

variable {packages : List PcPackageVariant} {staticMode : Bool}
  {hash hash' hash'' : MergedHash packages} {i j : PackagePointer packages}

/-! ## Entries of the hash -/

variable {is : List (PackagePointer packages)} {entry : MergedHashEntry packages}
  {failure : Option PcBrokenPackage} {package : PcPackage} {name : StdString}

theorem name_of_packageHash (h : packageHash packages name = some i) :
    i.name = name := by
  have hname := List.find?_some h
  exact of_decide_eq_true hname

theorem packageHash_ne_none (i : PackagePointer packages) : packageHash packages i.name ≠ none := by
  intro h
  have hno := List.find?_eq_none.mp h i (by simp)
  exact hno (by simp [PackagePointer.name])

/-- No entry is changed. -/
def Keeps (hash hash' : MergedHash packages) : Prop :=
  ∀ name entry, hash.lookup name = some entry → hash'.lookup name = some entry

theorem Keeps.trans (h : Keeps hash hash') (h' : Keeps hash' hash'') : Keeps hash hash'' :=
  fun name entry hname => h' name entry (h name entry hname)

theorem Grows.lookup_ne_none (h : Grows hash hash') (hlookup : hash.lookup name ≠ none) :
    hash'.lookup name ≠ none := by
  rw [← Option.isSome_iff_ne_none] at hlookup ⊢
  exact h name hlookup

theorem Keeps.grows (h : Keeps hash hash') : Grows hash hash' := by
  intro name hname
  rcases Option.isSome_iff_exists.mp hname with ⟨entry, hentry⟩
  simp [h name entry hentry]

/-- An entry belongs to a package. -/
structure MergedHashEntry.Belongs (entry : MergedHashEntry packages)
    (i : PackagePointer packages) : Prop where
  filePath : entry.package.getFilePath = (packages.get i).getFilePath
  name : entry.package.getBaseFileName = i.name

/-- An error belongs to a package. -/
structure PcBrokenPackage.Belongs (broken : PcBrokenPackage) (package : PcPackage) : Prop where
  filePath : broken.filePath = package.filePath
  name : broken.baseFileName = package.baseFileName

/-- What a run changes in the hash: no entry changes, there is an entry for the package in the
end, and new entries belong to the package itself or to one that is looked up. -/
structure Frame (i : PackagePointer packages) (hash : MergedHash packages)
    (entry : MergedHashEntry packages) (hash' : MergedHash packages) : Prop where
  keeps : Keeps hash hash'
  result : hash'.lookup i.name = some entry
  fresh : ∀ name new, hash.lookup name = none → hash'.lookup name = some new →
    ∃ j, new.Belongs j ∧ if name = i.name then j = i else packageHash packages name = some j

/-- What the loop over dependencies changes in the hash. The entry of the package that is being
merged may change. -/
structure LoopFrame (package : PcPackage) (hash : MergedHash packages)
    (failure : Option PcBrokenPackage) (hash' : MergedHash packages) : Prop where
  keeps : ∀ name entry, name ≠ package.baseFileName → hash.lookup name = some entry →
    hash'.lookup name = some entry
  fresh : ∀ name new, name ≠ package.baseFileName → hash.lookup name = none →
    hash'.lookup name = some new → ∃ j, new.Belongs j ∧ packageHash packages name = some j
  belongs : ∀ broken, failure = some broken → PcBrokenPackage.Belongs broken package

theorem lookup_modifyDeps_of_ne {other : StdString} (hne : other ≠ name)
    (f : List (PackagePointer packages) → List (PackagePointer packages)) :
    (modifyDeps hash name f).lookup other = hash.lookup other := by
  rw [modifyDeps, AssocMap.lookup_modify, if_neg hne]

theorem depsOf_modifyDeps (hash : MergedHash packages) (name : StdString)
    (f : List (PackagePointer packages) → List (PackagePointer packages)) :
    depsOf (modifyDeps hash name f) name = f (depsOf hash name) := by
  rw [depsOf, modifyDeps, AssocMap.lookup_modify, if_pos rfl, depsOf]
  cases hash.lookup name <;> simp

/-- The first run of a loop, followed by what else the loop does. -/
theorem LoopFrame.of_frame (hi : packageHash packages name = some i) (h : Frame i hash entry hash')
    (h' : LoopFrame package hash' failure hash'') :
    LoopFrame package hash failure hash'' := by
  refine ⟨?_, ?_, h'.belongs⟩
  · intro name old hne hname
    exact h'.keeps name old hne (h.keeps name old hname)
  · intro other new hne hnone hnew
    cases hmid : hash'.lookup other with
    | none => exact h'.fresh other new hne hmid hnew
    | some mid =>
        rw [h'.keeps other mid hne hmid, Option.some.injEq] at hnew
        rcases h.fresh other mid hnone hmid with ⟨j, hbelongs, hj⟩
        refine ⟨j, hnew ▸ hbelongs, ?_⟩
        split at hj
        · rename_i heq
          rw [heq, hj, name_of_packageHash hi, hi]
        · exact hj

theorem LoopFrame.refl (package : PcPackage) (hash : MergedHash packages)
    (hfailure : ∀ broken, failure = some broken → PcBrokenPackage.Belongs broken package) :
    LoopFrame package hash failure hash := by
  refine ⟨fun name entry _ hname => hname, ?_, hfailure⟩
  intro name new _ hnone hnew
  simp [hnone] at hnew

/-- The entry of the package that is being merged may change. -/
theorem LoopFrame.of_modifyDeps
    {f : List (PackagePointer packages) → List (PackagePointer packages)}
    (h : LoopFrame package (modifyDeps hash package.baseFileName f) failure hash') :
    LoopFrame package hash failure hash' := by
  refine ⟨?_, ?_, h.belongs⟩
  · intro name entry hne hname
    apply h.keeps name entry hne
    rwa [lookup_modifyDeps_of_ne hne]
  · intro name new hne hnone hnew
    apply h.fresh name new hne ?_ hnew
    rwa [lookup_modifyDeps_of_ne hne]

variable
  {merge : MergedHash packages → PackagePointer packages → Option (MergedHashEntry packages × MergedHash packages)}

/-- What a loop does at a dependency that is there. -/
theorem mergeLoop_cons {package : PcPackage} {dependency : RequiredVersion}
    {dependencies : List RequiredVersion} {child : PackagePointer packages}
    {failure : Option PcBrokenPackage} (hchild : packageHash packages dependency.name = some child)
    (hrun : mergeLoop merge package hash (dependency :: dependencies) = some (failure, hash')) :
    ∃ entry hash₁, merge hash child = some (entry, hash₁) ∧
      ((∃ broken, entry.package = .brokenPackage broken ∧
          failure = some (makeBrokenDependency package dependency) ∧ hash' = hash₁) ∨
        ∃ merged, entry.package = .package merged ∧
          (versionTest dependency.comparison merged.version dependency.version = false ∧
              failure = some (makeVersionMismatchDependency package merged dependency) ∧
              hash' = hash₁ ∨
            versionTest dependency.comparison merged.version dependency.version = true ∧
              mergeLoop merge package
                (modifyDeps hash₁ package.baseFileName fun deps =>
                  OrderedClosure.appendNew deps entry.deps)
                dependencies = some (failure, hash'))) := by
  unfold mergeLoop at hrun
  rw [hchild] at hrun
  simp only [Option.bind_eq_bind, Option.bind_eq_some_iff, Prod.exists] at hrun
  rcases hrun with ⟨entry, hash₁, hcall, hrun⟩
  refine ⟨entry, hash₁, hcall, ?_⟩
  cases hentry : entry.package with
  | brokenPackage broken =>
      simp only [hentry, Option.some.injEq, Prod.mk.injEq] at hrun
      exact Or.inl ⟨broken, rfl, hrun.1.symm, hrun.2.symm⟩
  | package merged =>
      simp only [hentry] at hrun
      refine Or.inr ⟨merged, rfl, ?_⟩
      split at hrun
      · rename_i hversion
        exact Or.inr ⟨hversion, hrun⟩
      · rename_i hversion
        simp only [Option.some.injEq, Prod.mk.injEq] at hrun
        exact Or.inl ⟨by simpa using hversion, hrun.1.symm, hrun.2.symm⟩

/-- The loop, from what the calls in it do. -/
theorem mergeLoop_frame
    (hmerge : ∀ hash i entry hash', merge hash i = some (entry, hash') → Frame i hash entry hash')
    (package : PcPackage) (dependencies : List RequiredVersion) {failure : Option PcBrokenPackage}
    (hrun : mergeLoop merge package hash dependencies = some (failure, hash')) :
    LoopFrame package hash failure hash' := by
  induction dependencies generalizing hash with
  | nil =>
      simp only [mergeLoop, Option.some.injEq, Prod.mk.injEq] at hrun
      rcases hrun with ⟨rfl, rfl⟩
      exact LoopFrame.refl package hash (by simp)
  | cons dependency dependencies ih =>
      cases hchild : packageHash packages dependency.name with
      | none =>
          simp only [mergeLoop, hchild, Option.some.injEq, Prod.mk.injEq] at hrun
          rcases hrun with ⟨rfl, rfl⟩
          refine LoopFrame.refl package hash ?_
          simpa using PcBrokenPackage.Belongs.mk (by simp [makeMissingDependency])
            (by simp [makeMissingDependency])
      | some child =>
          rcases mergeLoop_cons hchild hrun with ⟨entry, hash₁, hcall, hrest⟩
          refine LoopFrame.of_frame hchild (hmerge hash child entry hash₁ hcall) ?_
          rcases hrest with ⟨broken, -, rfl, rfl⟩ | ⟨merged, -, ⟨-, rfl, rfl⟩ | ⟨-, hrun⟩⟩
          · refine LoopFrame.refl package _ ?_
            simpa using PcBrokenPackage.Belongs.mk (by simp [makeBrokenDependency])
              (by simp [makeBrokenDependency])
          · refine LoopFrame.refl package _ ?_
            simpa using PcBrokenPackage.Belongs.mk (by simp [makeVersionMismatchDependency])
              (by simp [makeVersionMismatchDependency])
          · exact (ih hrun).of_modifyDeps

theorem finishedEntry_belongs {deps : List (PackagePointer packages)}
    (hpackage : packages.get i = .package package)
    (hfailure : ∀ broken, failure = some broken → PcBrokenPackage.Belongs broken package) :
    (finishedEntry package i deps failure).Belongs i := by
  have hname := PackagePointer.name_of_package hpackage
  cases failure with
  | none =>
      constructor
      · rw [hpackage]
        simp [finishedEntry, PcPackageVariant.getFilePath, mergedPackage]
      · rw [hname]
        simp [finishedEntry, PcPackageVariant.getBaseFileName, mergedPackage]
  | some broken =>
      have hbroken := hfailure broken rfl
      constructor
      · rw [hpackage]
        simpa [finishedEntry, PcPackageVariant.getFilePath] using hbroken.filePath
      · rw [hname]
        simpa [finishedEntry, PcPackageVariant.getBaseFileName] using hbroken.name

/-- A package whose entry is put into the hash. -/
theorem Frame.insert {entry : MergedHashEntry packages} (hnone : hash.lookup i.name = none)
    (hbelongs : entry.Belongs i)
    (hkeeps : ∀ name old, name ≠ i.name → hash.lookup name = some old →
      hash'.lookup name = some old)
    (hfresh : ∀ name new, name ≠ i.name → hash.lookup name = none →
      hash'.lookup name = some new → ∃ j, new.Belongs j ∧ packageHash packages name = some j) :
    Frame i hash entry (AList.insert i.name entry hash') := by
  refine ⟨?_, AList.lookup_insert hash', ?_⟩
  · intro name old hname
    have hne : name ≠ i.name := by
      intro heq
      rw [heq, hnone] at hname
      simp at hname
    rw [AList.lookup_insert_ne hne]
    exact hkeeps name old hne hname
  · intro name new hname hnew
    by_cases heq : name = i.name
    · rw [heq, AList.lookup_insert, Option.some.injEq] at hnew
      exact ⟨i, hnew ▸ hbelongs, by simp [heq]⟩
    · rw [AList.lookup_insert_ne heq] at hnew
      simpa [heq] using hfresh name new heq hname hnew

/-- Entries are kept, and new ones belong to the package itself or to one that is looked up. -/
theorem mergeFunc_frame (fuel : Nat) (hash : MergedHash packages) (i : PackagePointer packages)
    (entry : MergedHashEntry packages) (hash' : MergedHash packages)
    (hrun : mergeFunc staticMode fuel hash i = some (entry, hash')) : Frame i hash entry hash' := by
  induction fuel generalizing hash i entry hash' with
  | zero =>
      unfold mergeFunc at hrun
      cases hlookup : hash.lookup i.name with
      | none => simp [hlookup] at hrun
      | some old =>
          simp only [hlookup, Option.some.injEq, Prod.mk.injEq] at hrun
          rcases hrun with ⟨rfl, rfl⟩
          exact ⟨fun name entry hname => hname, hlookup, by simp_all⟩
  | succ fuel ih =>
      unfold mergeFunc at hrun
      cases hlookup : hash.lookup i.name with
      | some old =>
          simp only [hlookup, Option.some.injEq, Prod.mk.injEq] at hrun
          rcases hrun with ⟨rfl, rfl⟩
          exact ⟨fun name entry hname => hname, hlookup, by simp_all⟩
      | none =>
          simp only [hlookup] at hrun
          cases hpackage : packages.get i with
          | brokenPackage broken =>
              simp only [hpackage, Option.some.injEq, Prod.mk.injEq] at hrun
              rcases hrun with ⟨rfl, rfl⟩
              apply Frame.insert hlookup
              · constructor
                · rw [hpackage]
                · rw [PackagePointer.name, hpackage]
              · exact fun name old _ hname => hname
              · intro name new _ hnone hnew
                simp [hnone] at hnew
          | package package =>
              simp only [hpackage, Option.bind_eq_bind, Option.bind_eq_some_iff, Prod.exists,
                Option.some.injEq, Prod.mk.injEq] at hrun
              rcases hrun with ⟨failure, hash₁, hloop, rfl, rfl⟩
              have h := mergeLoop_frame ih package _ hloop
              have hname := PackagePointer.name_of_package hpackage
              apply Frame.insert hlookup (finishedEntry_belongs hpackage h.belongs)
              · intro name old hne hold
                exact h.keeps name old (hname ▸ hne) (by rwa [AList.lookup_insert_ne hne])
              · intro name new hne hnone hnew
                exact h.fresh name new (hname ▸ hne) (by rwa [AList.lookup_insert_ne hne]) hnew

theorem mergeAll_cons {fuel : Nat} (hrun : mergeAll staticMode fuel hash (i :: is) = some hash') :
    ∃ entry hash₁, mergeFunc staticMode fuel hash i = some (entry, hash₁) ∧
      mergeAll staticMode fuel hash₁ is = some hash' := by
  unfold mergeAll at hrun ⊢
  simp only [List.foldlM_cons, Option.bind_eq_bind, Option.bind_eq_some_iff,
    Option.map_eq_some_iff, Prod.exists, exists_eq_right] at hrun
  rcases hrun with ⟨hash₁, ⟨entry, hcall⟩, hrest⟩
  exact ⟨entry, hash₁, hcall, hrest⟩

theorem mergeAll_append {fuel : Nat} {js : List (PackagePointer packages)}
    (hrun : mergeAll staticMode fuel hash (is ++ js) = some hash') :
    ∃ hash₁, mergeAll staticMode fuel hash is = some hash₁ ∧
      mergeAll staticMode fuel hash₁ js = some hash' := by
  unfold mergeAll at hrun ⊢
  rwa [List.foldlM_append, Option.bind_eq_bind, Option.bind_eq_some_iff] at hrun

/-- What merging some packages changes in the hash. -/
structure RunFrame (is : List (PackagePointer packages)) (hash hash' : MergedHash packages) :
    Prop where
  keeps : Keeps hash hash'
  result : ∀ i, i ∈ is → hash'.lookup i.name ≠ none
  fresh : ∀ name new, hash.lookup name = none → hash'.lookup name = some new →
    ∃ j, new.Belongs j ∧ (j ∈ is ∧ j.name = name ∨ packageHash packages name = some j)

theorem mergeAll_frame {fuel : Nat} (hrun : mergeAll staticMode fuel hash is = some hash') :
    RunFrame is hash hash' := by
  induction is generalizing hash with
  | nil =>
      simp only [mergeAll, List.foldlM_nil, Option.pure_def, Option.some.injEq] at hrun
      rw [← hrun]
      refine ⟨fun name entry h => h, by simp, ?_⟩
      intro name new hnone hnew
      simp [hnone] at hnew
  | cons i is ih =>
      rcases mergeAll_cons hrun with ⟨entry, hash₁, hcall, hrest⟩
      have hframe := mergeFunc_frame fuel hash i entry hash₁ hcall
      have h := ih hrest
      refine ⟨hframe.keeps.trans h.keeps, ?_, ?_⟩
      · intro j hj
        rcases List.mem_cons.mp hj with heq | hj
        · rw [heq, h.keeps i.name entry hframe.result]
          simp
        · exact h.result j hj
      · intro name new hnone hnew
        cases hmid : hash₁.lookup name with
        | none =>
            rcases h.fresh name new hmid hnew with ⟨j, hbelongs, ⟨hj, hname⟩ | hj⟩
            · exact ⟨j, hbelongs, Or.inl ⟨List.mem_cons_of_mem i hj, hname⟩⟩
            · exact ⟨j, hbelongs, Or.inr hj⟩
        | some mid =>
            rw [h.keeps name mid hmid, Option.some.injEq] at hnew
            rcases hframe.fresh name mid hnone hmid with ⟨j, hbelongs, hj⟩
            rw [hnew] at hbelongs
            split at hj
            · rename_i heq
              exact ⟨j, hbelongs, Or.inl (by simp [hj, heq])⟩
            · exact ⟨j, hbelongs, Or.inr hj⟩

/-! ## The hash of all packages -/

theorem mergeAll_mergedHash (staticMode : Bool) (packages : List PcPackageVariant) :
    mergeAll staticMode packages.length ∅ (List.finRange packages.length) =
      some (mergedHash staticMode packages) := by
  simp [mergedHash]

/-- An entry belongs to a package with the name of the entry. -/
theorem exists_belongs (h : (mergedHash staticMode packages).lookup name = some entry) :
    ∃ i, entry.Belongs i ∧ i.name = name := by
  rcases (mergeAll_frame (mergeAll_mergedHash staticMode packages)).fresh name entry (by simp) h
    with ⟨i, hbelongs, ⟨-, hname⟩ | hi⟩
  · exact ⟨i, hbelongs, hname⟩
  · exact ⟨i, hbelongs, name_of_packageHash hi⟩

theorem name_of_mergedHash (h : (mergedHash staticMode packages).lookup name = some entry) :
    entry.package.getBaseFileName = name := by
  rcases exists_belongs h with ⟨i, hbelongs, hname⟩
  rw [hbelongs.name, hname]

theorem mergedHash_lookup_ne_none (i : PackagePointer packages) :
    (mergedHash staticMode packages).lookup i.name ≠ none :=
  (mergeAll_frame (mergeAll_mergedHash staticMode packages)).result i (List.mem_finRange i)

/-- The names of the merged packages are those of the entries. -/
theorem map_getBaseFileName_mergeDependencies (staticMode : Bool)
    (packages : List PcPackageVariant) :
    (mergeDependencies staticMode packages).map PcPackageVariant.getBaseFileName =
      (mergedHash staticMode packages).keys := by
  rw [mergeDependencies, List.map_map, AList.keys, List.keys]
  apply List.map_congr_left
  intro e he
  exact name_of_mergedHash (AList.mem_lookup_iff.mpr he)

theorem mem_mergeDependencies {package : PcPackageVariant} :
    package ∈ mergeDependencies staticMode packages ↔
      ∃ entry, (mergedHash staticMode packages).lookup package.getBaseFileName = some entry ∧
        entry.package = package := by
  rw [mergeDependencies, List.mem_map]
  constructor
  · intro h
    rcases h with ⟨e, he, heq⟩
    have hlookup := AList.mem_lookup_iff.mpr he
    have hname := name_of_mergedHash hlookup
    rw [heq] at hname
    rw [hname]
    exact ⟨e.2, hlookup, heq⟩
  · intro h
    rcases h with ⟨entry, hlookup, heq⟩
    exact ⟨⟨_, entry⟩, AList.mem_lookup_iff.mp hlookup, heq⟩

end PkgConfig

end Qbs
