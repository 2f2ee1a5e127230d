import QbsCore.PkgConfig.MergeRuns

/-!
# Merging computes the merged packages

A package is chosen for each name.  As long as a run looks up chosen packages only, the
entries of the hash are the merged packages, and everything that a package with an entry
looks at has an entry, too.

Main results:

- Theorem {lit}`PkgConfig.mergeAll_simulates`: merging some packages makes right entries, or it
  leaves an entry for a package that is not the chosen one.
-/

namespace Qbs

namespace PkgConfig

open PcPackage OrderedClosure

/-- One of the packages for each name. -/
structure Choice (packages : List PcPackageVariant) where
  find : StdString → Option (PackagePointer packages)
  name_eq : ∀ name i, find name = some i → i.name = name
  exists_find : ∀ i : PackagePointer packages, ∃ j, find i.name = some j

variable {packages : List PcPackageVariant} {staticMode : Bool}
  {hash hash' hash'' : MergedHash packages} {i j : PackagePointer packages}

/-- The chosen packages. -/
def Choice.database (c : Choice packages) : Database :=
  fun name => (c.find name).map packages.get

variable {c : Choice packages}
  (hwf : WellFounded fun other name => c.database.Looks staticMode name other)

/-- An entry for a name is right if it is what the chosen package becomes. -/
structure Correct (name : StdString) (entry : MergedHashEntry packages) : Prop where
  merged : Database.merged hwf name = some entry.package
  order : ¬c.database.Broken staticMode name →
    entry.deps.map PackagePointer.name = Database.order hwf name
  chosen : ¬c.database.Broken staticMode name → ∀ i, i ∈ entry.deps → c.find i.name = some i

/-- The entries are right, except for those of packages that are being merged, and they come
with entries for everything that is looked at. -/
structure Simulates (inProgress : Set StdString) (hash : MergedHash packages) : Prop where
  correct : ∀ name entry, name ∉ inProgress → hash.lookup name = some entry →
    Correct hwf name entry
  closed : ∀ name, name ∉ inProgress → hash.lookup name ≠ none →
    ∀ other, c.database.Looks staticMode name other → c.find other ≠ none →
      hash.lookup other ≠ none

variable (c) in
/-- The entry for a name belongs to a package that was looked up and is not the chosen one. -/
def Misplaced (hash : MergedHash packages) (name : StdString) : Prop :=
  ∃ entry i, hash.lookup name = some entry ∧ entry.Belongs i ∧
    packageHash packages name = some i ∧ c.find name ≠ some i

variable {hwf} {inProgress : Set StdString} {name other : StdString}

/-! ## The chosen packages -/

theorem Choice.database_eq (h : c.find name = some i) :
    c.database name = some (packages.get i) := by
  simp [database, h]

/-- If there is no package with a name, none is chosen. -/
theorem Choice.find_eq_none (h : packageHash packages name = none) : c.find name = none := by
  by_contra hne
  rcases Option.ne_none_iff_exists'.mp hne with ⟨i, hi⟩
  have hname := c.name_eq name i hi
  rw [← hname] at h
  exact packageHash_ne_none i h

theorem Choice.exists_find_of_packageHash (h : packageHash packages name = some i) :
    ∃ j, c.find name = some j := by
  have hfind := c.exists_find i
  rwa [name_of_packageHash h] at hfind

variable {deps : List (PackagePointer packages)} {childEntry : MergedHashEntry packages}
  {package : PcPackage}

/-- The chosen packages of a list, from their names. -/
theorem Choice.filterMap_packageOf (h : ∀ i, i ∈ deps → c.find i.name = some i)
    (hpackage : ∀ i, i ∈ deps → ∃ package, c.database i.name = some (.package package)) :
    (deps.map PackagePointer.name).filterMap c.database.packageOf =
      deps.map PackagePointer.asPackage := by
  induction deps with
  | nil => simp
  | cons i deps ih =>
      rcases hpackage i (by simp) with ⟨package, hi⟩
      have hget : packages.get i = .package package := by
        rw [Choice.database_eq (h i (by simp))] at hi
        simpa using hi
      have hof : c.database.packageOf i.name = some i.asPackage := by
        simp only [Database.packageOf, hi, PackagePointer.asPackage, hget]
      rw [List.map_cons, List.filterMap_cons, hof, List.map_cons,
        ih (fun j hj => h j (by simp [hj])) fun j hj => hpackage j (by simp [hj])]

/-- Chosen packages with the same name are the same. -/
theorem Choice.eq_of_name_eq (hi : c.find i.name = some i) (hj : c.find j.name = some j)
    (h : i.name = j.name) : i = j := by
  rw [h, hj, Option.some.injEq] at hi
  exact hi.symm

/-- The names of the packages after one more dependency. -/
theorem Choice.map_name_appendNew {childDeps : List (PackagePointer packages)}
    (h : ∀ i, i ∈ deps → c.find i.name = some i)
    (hchild : ∀ i, i ∈ childDeps → c.find i.name = some i) :
    (appendNew deps childDeps).map PackagePointer.name =
      appendNew (deps.map PackagePointer.name) (childDeps.map PackagePointer.name) := by
  have hchosen : ∀ i, i ∈ deps ∨ i ∈ childDeps → c.find i.name = some i := by
    intro i hi
    rcases hi with hi | hi
    · exact h i hi
    · exact hchild i hi
  apply map_appendNew
  intro i hi j hj heq
  exact Choice.eq_of_name_eq (hchosen i hi) (hchosen j hj) heq

/-! ## Steps of the simulation -/

theorem Misplaced.keeps (h : Misplaced c hash name)
    (hkeeps : ∀ entry, hash.lookup name = some entry → hash'.lookup name = some entry) :
    Misplaced c hash' name := by
  rcases h with ⟨entry, i, hlookup, hrest⟩
  exact ⟨entry, i, hkeeps entry hlookup, hrest⟩

/-- The entry of a package that is being merged may be anything. -/
theorem Simulates.insert_inProgress (h : Simulates hwf inProgress hash) (hname : name ∈ inProgress)
    (entry : MergedHashEntry packages) :
    Simulates hwf inProgress (AList.insert name entry hash) := by
  constructor
  · intro other old hother hlookup
    have hne : other ≠ name := fun heq => hother (heq ▸ hname)
    rw [AList.lookup_insert_ne hne] at hlookup
    exact h.correct other old hother hlookup
  · intro other hother hlookup last hlooks hlast
    have hne : other ≠ name := fun heq => hother (heq ▸ hname)
    rw [AList.lookup_insert_ne hne] at hlookup
    by_cases heq : last = name
    · rw [heq, AList.lookup_insert]
      simp
    · rw [AList.lookup_insert_ne heq]
      exact h.closed other hother hlookup last hlooks hlast

/-- Merging of a package begins. -/
theorem Simulates.begin (h : Simulates hwf inProgress hash) (name : StdString) :
    Simulates hwf (insert name inProgress) hash := by
  constructor
  · intro other entry hother
    exact h.correct other entry fun hmem => hother (Or.inr hmem)
  · intro other hother
    exact h.closed other fun hmem => hother (Or.inr hmem)

variable {before : List RequiredVersion} {entry : MergedHashEntry packages}
  {dependency : RequiredVersion}

/-- A package was merged. -/
theorem Simulates.finish {entry : MergedHashEntry packages}
    (h : Simulates hwf (insert name inProgress) hash) (hcorrect : Correct hwf name entry)
    (hclosed : ∀ other, c.database.Looks staticMode name other → c.find other ≠ none →
      hash.lookup other ≠ none) :
    Simulates hwf inProgress (AList.insert name entry hash) := by
  have hgrow : ∀ other, hash.lookup other ≠ none →
      (AList.insert name entry hash).lookup other ≠ none := by
    intro other hother
    by_cases heq : other = name
    · rw [heq, AList.lookup_insert]
      simp
    · rwa [AList.lookup_insert_ne heq]
  constructor
  · intro other old hother hlookup
    by_cases heq : other = name
    · rw [heq, AList.lookup_insert, Option.some.injEq] at hlookup
      rwa [heq, ← hlookup]
    · rw [AList.lookup_insert_ne heq] at hlookup
      exact h.correct other old (by simp [heq, hother]) hlookup
  · intro other hother hlookup last hlooks hlast
    apply hgrow
    by_cases heq : other = name
    · rw [heq] at hlooks
      exact hclosed last hlooks hlast
    · rw [AList.lookup_insert_ne heq] at hlookup
      exact h.closed other (by simp [heq, hother]) hlookup last hlooks hlast

/-! ## Runs -/

/-- Nothing is looked at behind the first dependency that is not fine. -/
theorem looks_cases {db : Database} {dependencies : List RequiredVersion}
    (hsplit : db.dependencies staticMode name = before ++ dependency :: dependencies)
    (hno : ¬db.Fine staticMode dependency) (h : db.Looks staticMode name other) :
    (∃ d, d ∈ before ∧ d.name = other) ∨ dependency.name = other := by
  rcases h with ⟨first, d, last, heq, hname, hfine⟩
  rw [hsplit] at heq
  rcases List.append_eq_append_iff.mp heq with ⟨middle, hfirst, hrest⟩ | ⟨middle, hbefore, hrest⟩
  · cases middle with
    | nil =>
        simp only [List.nil_append, List.cons.injEq] at hrest
        exact Or.inr (hrest.1 ▸ hname)
    | cons d' middle =>
        simp only [List.cons_append, List.cons.injEq] at hrest
        exact absurd (hfine dependency (by simp [hfirst, hrest.1])) hno
  · cases middle with
    | nil =>
        simp only [List.nil_append, List.cons.injEq] at hrest
        exact Or.inr (hrest.1 ▸ hname)
    | cons d' middle =>
        simp only [List.cons_append, List.cons.injEq] at hrest
        exact Or.inl ⟨d, by simp [hbefore, hrest.1], hname⟩

variable (hwf) in
/-- What a loop has to do: the dependencies that were looked at are fine, they have entries, and
their packages are gathered. -/
structure LoopState (inProgress : Set StdString) (i : PackagePointer packages)
    (before : List RequiredVersion) (hash : MergedHash packages) : Prop where
  simulates : Simulates hwf inProgress hash
  present : hash.lookup i.name ≠ none
  fine : ∀ d, d ∈ before → c.database.Fine staticMode d
  visited : ∀ d, d ∈ before → hash.lookup d.name ≠ none
  gathered : (depsOf hash i.name).map PackagePointer.name =
    gather (fun d => Database.order hwf d.name) before
  chosen : ∀ j, j ∈ depsOf hash i.name → c.find j.name = some j

variable (hwf) in
/-- The result of a loop: the first error, and if there is none, the gathered packages. -/
structure LoopResult (inProgress : Set StdString) (i : PackagePointer packages)
    (package : PcPackage) (failure : Option PcBrokenPackage) (hash : MergedHash packages) :
    Prop where
  simulates : Simulates hwf inProgress hash
  closed : ∀ other, c.database.Looks staticMode i.name other → c.find other ≠ none →
    hash.lookup other ≠ none
  failed : ∀ broken, failure = some broken → ∃ before dependency after,
    allDependencies staticMode package = before ++ dependency :: after ∧
      (∀ d, d ∈ before → c.database.Fine staticMode d) ∧
      ¬c.database.Fine staticMode dependency ∧
      broken = c.database.failureOf staticMode package dependency
  merged : failure = none → LoopState hwf inProgress i (allDependencies staticMode package) hash

/-- A loop that ends with an error at a dependency. -/
theorem LoopState.failed {after : List RequiredVersion} {broken : PcBrokenPackage}
    (h : LoopState hwf inProgress i before hash)
    (hpackage : c.database i.name = some (.package package))
    (hsplit : allDependencies staticMode package = before ++ dependency :: after)
    (hno : ¬c.database.Fine staticMode dependency)
    (hvisited : c.find dependency.name ≠ none → hash.lookup dependency.name ≠ none)
    (hbroken : broken = c.database.failureOf staticMode package dependency) :
    LoopResult hwf inProgress i package (some broken) hash := by
  constructor
  · exact h.simulates
  · intro other hlooks hother
    rw [← Database.dependencies_eq hpackage] at hsplit
    rcases looks_cases hsplit hno hlooks with ⟨d, hd, hname⟩ | hname
    · rw [← hname]
      exact h.visited d hd
    · rw [← hname] at hother ⊢
      exact hvisited hother
  · intro broken' heq
    rw [Option.some.injEq] at heq
    exact ⟨before, dependency, after, hsplit, h.fine, hno, heq ▸ hbroken⟩
  · simp

/-- What is fine is a package that has the right version and is not broken. -/
theorem fine_iff_of_correct {merged : PcPackage} (h : Correct hwf dependency.name entry)
    (hentry : entry.package = .package merged) :
    c.database.Fine staticMode dependency ↔
      versionTest dependency.comparison merged.version dependency.version = true := by
  have hno : ¬c.database.Broken staticMode dependency.name := by
    rw [← Database.isBroken_merged hwf h.merged, hentry]
    simp [PcPackageVariant.isBroken]
  rcases Database.exists_package_of_not_broken hno with ⟨package, hpackage⟩
  have hversion : package.version = merged.version := by
    have hmerged := h.merged
    simp only [Database.merged, hpackage] at hmerged
    split at hmerged
    · rw [hentry] at hmerged
      simp at hmerged
    · rw [hentry, Option.some.injEq, PcPackageVariant.package.injEq] at hmerged
      rw [← hmerged, mergedPackage]
  simp only [Database.Fine, Database.Mismatch, hno, not_false_eq_true, true_and, hpackage,
    Option.some.injEq, PcPackageVariant.package.injEq, exists_eq_left', hversion]
  simp

/-- The failure of a dependency that is there but cannot be merged. -/
theorem failureOf_eq (package : PcPackage) (h : Correct hwf dependency.name entry) :
    (∀ broken, entry.package = .brokenPackage broken →
      ¬c.database.Fine staticMode dependency ∧ makeBrokenDependency package dependency =
        c.database.failureOf staticMode package dependency) ∧
    ∀ merged, entry.package = .package merged →
      versionTest dependency.comparison merged.version dependency.version = false →
        makeVersionMismatchDependency package merged dependency =
          c.database.failureOf staticMode package dependency := by
  have hmerged := h.merged
  have hiff := Database.isBroken_merged hwf hmerged
  constructor
  · intro broken hentry
    rw [hentry] at hiff
    have hbroken := hiff.mp (by simp [PcPackageVariant.isBroken])
    refine ⟨fun hfine => hfine.1 hbroken, ?_⟩
    unfold Database.failureOf
    unfold Database.merged at hmerged
    cases hdb : c.database dependency.name with
    | none => simp [hdb] at hmerged
    | some depPackage =>
        cases depPackage with
        | brokenPackage _ => simp
        | package q => simp [hbroken]
  · intro merged hentry _
    rw [hentry] at hiff
    have hno : ¬c.database.Broken staticMode dependency.name := by
      rw [← hiff]
      simp [PcPackageVariant.isBroken]
    rcases Database.exists_package_of_not_broken hno with ⟨q, hq⟩
    simp only [Database.merged, hq] at hmerged
    split at hmerged
    · rw [hentry] at hmerged
      simp at hmerged
    · rw [hentry, Option.some.injEq, PcPackageVariant.package.injEq] at hmerged
      simp only [Database.failureOf, hq, hno, if_false, ← hmerged, makeVersionMismatchDependency,
        mergedPackage]

/-- A call changes nothing that the loop has made. -/
theorem LoopState.call {child : PackagePointer packages}
    (h : LoopState hwf inProgress i before hash) (hframe : Frame child hash childEntry hash')
    (hsim : Simulates hwf inProgress hash') :
    LoopState hwf inProgress i before hash' := by
  have hgrows := hframe.keeps.grows
  rcases Option.ne_none_iff_exists'.mp h.present with ⟨own, hown⟩
  have hdeps : depsOf hash' i.name = depsOf hash i.name := by
    rw [depsOf, depsOf, hframe.keeps i.name own hown, hown]
  refine ⟨hsim, hgrows.lookup_ne_none h.present, h.fine, ?_, hdeps ▸ h.gathered, hdeps ▸ h.chosen⟩
  intro d hd
  exact hgrows.lookup_ne_none (h.visited d hd)

/-- A fine dependency is gathered. -/
theorem LoopState.next (h : LoopState hwf inProgress i before hash) (hin : i.name ∈ inProgress)
    (hvisited : hash.lookup dependency.name ≠ none)
    (hcorrect : Correct hwf dependency.name childEntry)
    (hfine : c.database.Fine staticMode dependency) :
    LoopState hwf inProgress i (before ++ [dependency])
      (modifyDeps hash i.name fun deps => appendNew deps childEntry.deps) := by
  have hgrows := grows_modifyDeps hash i.name fun deps => appendNew deps childEntry.deps
  constructor
  · exact h.simulates.insert_inProgress hin _
  · exact hgrows.lookup_ne_none h.present
  · intro d hd
    rcases List.mem_append.mp hd with hd | hd
    · exact h.fine d hd
    · rwa [List.mem_singleton.mp hd]
  · intro d hd
    apply hgrows.lookup_ne_none
    rcases List.mem_append.mp hd with hd | hd
    · exact h.visited d hd
    · rwa [List.mem_singleton.mp hd]
  · rw [depsOf_modifyDeps, Choice.map_name_appendNew h.chosen (hcorrect.chosen hfine.1),
      h.gathered, hcorrect.order hfine.1, gather_concat]
  · intro j hj
    rw [depsOf_modifyDeps, mem_appendNew] at hj
    rcases hj with hj | hj
    · exact h.chosen j hj
    · exact hcorrect.chosen hfine.1 j hj

variable (hwf) in
/-- What one call does: it makes right entries, or an entry for a package that is looked up behind
it and not chosen. -/
def Simulating (inProgress : Set StdString)
    (merge : MergedHash packages → PackagePointer packages →
      Option (MergedHashEntry packages × MergedHash packages)) : Prop :=
  ∀ hash i entry hash', Simulates hwf inProgress hash →
    (∀ name, Relation.ReflTransGen (c.database.Looks staticMode) i.name name →
      name ∉ inProgress) →
    (hash.lookup i.name = none → c.find i.name = some i) → merge hash i = some (entry, hash') →
      Correct hwf i.name entry ∧ Simulates hwf inProgress hash' ∨
        ∃ name, Relation.TransGen (c.database.Looks staticMode) i.name name ∧
          hash.lookup name = none ∧ Misplaced c hash' name

/-- The loop over the dependencies, from what the calls in it do. -/
theorem mergeLoop_simulates
    {merge : MergedHash packages → PackagePointer packages →
      Option (MergedHashEntry packages × MergedHash packages)}
    (hmerge : Simulating hwf inProgress merge)
    (hframe : ∀ hash i entry hash', merge hash i = some (entry, hash') → Frame i hash entry hash')
    {package : PcPackage} (hfind : c.find i.name = some i)
    (hpackage : packages.get i = .package package) (hin : i.name ∈ inProgress)
    (hfree : ∀ name, Relation.TransGen (c.database.Looks staticMode) i.name name →
      name ∉ inProgress)
    (before dependencies : List RequiredVersion)
    (hsplit : allDependencies staticMode package = before ++ dependencies)
    (hstate : LoopState hwf inProgress i before hash) {failure : Option PcBrokenPackage}
    (hrun : mergeLoop merge package hash dependencies = some (failure, hash')) :
    LoopResult hwf inProgress i package failure hash' ∨
      ∃ name, Relation.TransGen (c.database.Looks staticMode) i.name name ∧
        hash.lookup name = none ∧ Misplaced c hash' name := by
  have hdb : c.database i.name = some (.package package) := by
    rw [Choice.database_eq hfind, hpackage]
  have hname := PackagePointer.name_of_package hpackage
  induction dependencies generalizing hash before with
  | nil =>
      simp only [mergeLoop, Option.some.injEq, Prod.mk.injEq] at hrun
      rcases hrun with ⟨rfl, rfl⟩
      rw [List.append_nil] at hsplit
      left
      refine ⟨hstate.simulates, ?_, by simp, fun _ => hsplit ▸ hstate⟩
      intro other hlooks _
      rcases Database.looks_requires hlooks with ⟨d, hd, hother⟩
      rw [Database.dependencies_eq hdb, hsplit] at hd
      rw [← hother]
      exact hstate.visited d hd
  | cons dependency dependencies ih =>
      have hlooks : c.database.Looks staticMode i.name dependency.name :=
        ⟨before, dependency, dependencies, by rw [Database.dependencies_eq hdb, hsplit], rfl,
          hstate.fine⟩
      cases hchild : packageHash packages dependency.name with
      | none =>
          simp only [mergeLoop, hchild, Option.some.injEq, Prod.mk.injEq] at hrun
          rcases hrun with ⟨rfl, rfl⟩
          have hnone := c.find_eq_none hchild
          have hmissing : c.database dependency.name = none := by
            simp [Choice.database, hnone]
          left
          refine hstate.failed hdb hsplit ?_ (fun h => absurd hnone h) ?_
          · intro hfine
            exact hfine.1 (Database.broken_of_no_package (by simp [hmissing]))
          · simp [Database.failureOf, hmissing]
      | some child =>
          rcases mergeLoop_cons hchild hrun with ⟨childEntry, hash₁, hcall, hrest⟩
          have hchildName := name_of_packageHash hchild
          have hcallFrame := hframe hash child childEntry hash₁ hcall
          have hrestFrame : ∀ name entry, name ≠ package.baseFileName →
              hash₁.lookup name = some entry → hash'.lookup name = some entry := by
            rcases hrest with ⟨-, -, -, rfl⟩ | ⟨-, -, ⟨-, -, rfl⟩ | ⟨-, hrun⟩⟩
            · exact fun name entry _ h => h
            · exact fun name entry _ h => h
            · exact (mergeLoop_frame hframe package dependencies hrun).of_modifyDeps.keeps
          -- what is misplaced after the call stays so
          have hmisplace : ∀ name, Relation.TransGen (c.database.Looks staticMode) i.name name →
              hash.lookup name = none → Misplaced c hash₁ name →
                ∃ name, Relation.TransGen (c.database.Looks staticMode) i.name name ∧
                  hash.lookup name = none ∧ Misplaced c hash' name := by
            intro name hpath hnone hmisplaced
            have hne : name ≠ package.baseFileName := by
              intro heq
              rw [← hname] at heq
              exact hstate.present (heq ▸ hnone)
            exact ⟨name, hpath, hnone, hmisplaced.keeps fun entry => hrestFrame name entry hne⟩
          by_cases hwrong : hash.lookup dependency.name = none ∧ c.find dependency.name ≠ some child
          · right
            refine hmisplace dependency.name (Relation.TransGen.single hlooks) hwrong.1 ?_
            rw [← hchildName] at hwrong
            rcases hcallFrame.fresh child.name childEntry hwrong.1 hcallFrame.result with
              ⟨j, hbelongs, hj⟩
            rw [if_pos rfl] at hj
            rw [← hchildName] at hchild ⊢
            exact ⟨childEntry, child, hcallFrame.result, hj ▸ hbelongs, hchild, hwrong.2⟩
          · have hchosen : hash.lookup child.name = none → c.find child.name = some child := by
              intro hnone
              rw [hchildName] at hnone ⊢
              by_contra hno
              exact hwrong ⟨hnone, hno⟩
            have hfreeChild : ∀ name,
                Relation.ReflTransGen (c.database.Looks staticMode) child.name name →
                  name ∉ inProgress := by
              intro name hpath
              rw [hchildName] at hpath
              exact hfree name (Relation.TransGen.head' hlooks hpath)
            rcases hmerge hash child childEntry hash₁ hstate.simulates hfreeChild hchosen hcall with
              ⟨hcorrect, hsim⟩ | ⟨name, hpath, hnone, hmisplaced⟩
            · rw [hchildName] at hcorrect
              have hvisited : hash₁.lookup dependency.name ≠ none := by
                rw [← hchildName, hcallFrame.result]
                simp
              have hstate₁ := hstate.call hcallFrame hsim
              rcases hrest with ⟨broken, hentry, rfl, rfl⟩ | ⟨merged, hentry, hversion⟩
              · have hfailure := (failureOf_eq package hcorrect).1 broken hentry
                exact Or.inl (hstate₁.failed hdb hsplit hfailure.1 (fun _ => hvisited) hfailure.2)
              · have hfine := fine_iff_of_correct hcorrect hentry
                rcases hversion with ⟨hversion, rfl, rfl⟩ | ⟨hversion, hrun⟩
                · have hno : ¬c.database.Fine staticMode dependency := by
                    simp [hfine, hversion]
                  have hfailure := (failureOf_eq package hcorrect).2 merged hentry hversion
                  exact Or.inl (hstate₁.failed hdb hsplit hno (fun _ => hvisited) hfailure)
                · rw [← hname] at hrun
                  have hnext := hstate₁.next hin hvisited hcorrect (hfine.mpr hversion)
                  rcases ih (before ++ [dependency]) (by simp [hsplit]) hnext hrun with
                    hresult | ⟨name, hpath, hnone, hmisplaced⟩
                  · exact Or.inl hresult
                  · right
                    refine ⟨name, hpath, ?_, hmisplaced⟩
                    by_contra hlookup
                    have hgrows := grows_modifyDeps hash₁ i.name fun deps =>
                      appendNew deps childEntry.deps
                    exact (hcallFrame.keeps.grows.trans hgrows).lookup_ne_none hlookup hnone
            · right
              rw [hchildName] at hpath
              exact hmisplace name (Relation.TransGen.head hlooks hpath) hnone hmisplaced

/-- The finished entry of a package is right. -/
theorem correct_finishedEntry {failure : Option PcBrokenPackage} (hfind : c.find i.name = some i)
    (hpackage : packages.get i = .package package)
    (h : LoopResult hwf inProgress i package failure hash) :
    Correct hwf i.name (finishedEntry package i (depsOf hash i.name) failure) := by
  have hdb : c.database i.name = some (.package package) := by
    rw [Choice.database_eq hfind, hpackage]
  cases hfailure : failure with
  | some broken =>
      rcases h.failed broken hfailure with
        ⟨before, dependency, after, hsplit, hbefore, hno, hbroken⟩
      have hbrokenName : c.database.Broken staticMode i.name :=
        (Database.broken_iff hdb).mpr ⟨dependency, by simp [hsplit], hno⟩
      refine ⟨?_, fun hnot => absurd hbrokenName hnot, fun hnot => absurd hbrokenName hnot⟩
      rw [Database.merged_of_not_fine hwf hdb hsplit hbefore hno, hbroken]
      simp [finishedEntry]
  | none =>
      have hstate := h.merged hfailure
      have hnot : ¬c.database.Broken staticMode i.name := by
        rw [Database.broken_iff hdb]
        push Not
        exact hstate.fine
      have horder : (depsOf hash i.name ++ [i]).map PackagePointer.name =
          Database.order hwf i.name := by
        rw [List.map_append, hstate.gathered, Database.order, order_eq,
          Database.next_eq hnot hdb]
        simp [gather, List.foldl_map, Database.order]
      have hchosen : ∀ j, j ∈ depsOf hash i.name ++ [i] → c.find j.name = some j := by
        intro j hj
        rcases List.mem_append.mp hj with hj | hj
        · exact hstate.chosen j hj
        · rwa [List.mem_singleton.mp hj]
      refine ⟨?_, fun _ => horder, fun _ => hchosen⟩
      have hpackages : ∀ j, j ∈ depsOf hash i.name ++ [i] →
          ∃ package, c.database j.name = some (.package package) := by
        intro j hj
        have hmem : j.name ∈ Database.order hwf i.name := by
          rw [← horder]
          exact List.mem_map_of_mem hj
        rw [Database.order, mem_order, Database.edges_iff hnot] at hmem
        exact Database.exists_package_of_not_broken (Database.not_broken_of_path hnot hmem)
      rw [Database.merged_of_fine hwf hdb hstate.fine, ← horder,
        Choice.filterMap_packageOf hchosen hpackages]
      simp [finishedEntry]

/-- A call that looks up chosen packages only makes right entries. -/
theorem mergeFunc_simulates (fuel : Nat) (inProgress : Set StdString) :
    Simulating hwf inProgress (mergeFunc staticMode fuel) := by
  induction fuel generalizing inProgress with
  | zero =>
      intro hash i entry hash' hsim hfree hi hrun
      unfold mergeFunc at hrun
      cases hlookup : hash.lookup i.name with
      | none => simp [hlookup] at hrun
      | some old =>
          simp only [hlookup, Option.some.injEq, Prod.mk.injEq] at hrun
          rcases hrun with ⟨rfl, rfl⟩
          exact Or.inl ⟨hsim.correct i.name old (hfree i.name Relation.ReflTransGen.refl) hlookup,
            hsim⟩
  | succ fuel ih =>
      intro hash i entry hash' hsim hfree hi hrun
      unfold mergeFunc at hrun
      cases hlookup : hash.lookup i.name with
      | some old =>
          simp only [hlookup, Option.some.injEq, Prod.mk.injEq] at hrun
          rcases hrun with ⟨rfl, rfl⟩
          exact Or.inl ⟨hsim.correct i.name old (hfree i.name Relation.ReflTransGen.refl) hlookup,
            hsim⟩
      | none =>
          have hfind := hi hlookup
          simp only [hlookup] at hrun
          cases hpackage : packages.get i with
          | brokenPackage broken =>
              simp only [hpackage, Option.some.injEq, Prod.mk.injEq] at hrun
              rcases hrun with ⟨rfl, rfl⟩
              have hdb : c.database i.name = some (.brokenPackage broken) := by
                rw [Choice.database_eq hfind, hpackage]
              have hbroken : c.database.Broken staticMode i.name :=
                Database.broken_of_no_package (by simp [hdb])
              have hcorrect : Correct hwf i.name ⟨.brokenPackage broken, []⟩ :=
                ⟨Database.merged_brokenPackage hwf hdb, fun hnot => absurd hbroken hnot,
                  fun hnot => absurd hbroken hnot⟩
              left
              refine ⟨hcorrect, (hsim.begin i.name).finish hcorrect ?_⟩
              intro other hlooks
              rcases Database.exists_package_of_requires (Database.looks_requires hlooks) with
                ⟨package, hno⟩
              simp [hdb] at hno
          | package package =>
              simp only [hpackage, Option.bind_eq_bind, Option.bind_eq_some_iff, Prod.exists,
                Option.some.injEq, Prod.mk.injEq] at hrun
              rcases hrun with ⟨failure, hash₁, hloop, rfl, rfl⟩
              have hname := PackagePointer.name_of_package hpackage
              have hfreeLoop : ∀ name,
                  Relation.TransGen (c.database.Looks staticMode) i.name name →
                    name ∉ insert i.name inProgress := by
                intro name hpath hmem
                rcases hmem with heq | hmem
                · rw [heq, ← Relation.transGen_swap] at hpath
                  exact hwf.transGen.irrefl.irrefl _ hpath
                · exact hfree name hpath.to_reflTransGen hmem
              have hstate : LoopState hwf (insert i.name inProgress) i []
                  (AList.insert i.name ⟨default, []⟩ hash) := by
                refine ⟨(hsim.begin i.name).insert_inProgress (Set.mem_insert _ _) _, ?_, ?_, ?_,
                  ?_, ?_⟩
                · rw [AList.lookup_insert]
                  simp
                · simp
                · simp
                · rw [depsOf, AList.lookup_insert]
                  simp [gather]
                · rw [depsOf, AList.lookup_insert]
                  simp
              rcases mergeLoop_simulates (ih (insert i.name inProgress)) (mergeFunc_frame fuel) hfind
                hpackage (Set.mem_insert _ _) hfreeLoop [] _ rfl hstate hloop with
                hresult | ⟨name, hpath, hnone, hmisplaced⟩
              · have hcorrect := correct_finishedEntry hfind hpackage hresult
                exact Or.inl ⟨hcorrect, hresult.simulates.finish hcorrect hresult.closed⟩
              · right
                have hne : name ≠ i.name := by
                  intro heq
                  exact hfreeLoop name hpath (Or.inl heq)
                rw [AList.lookup_insert_ne hne] at hnone
                refine ⟨name, hpath, hnone, hmisplaced.keeps ?_⟩
                intro entry hentry
                rwa [AList.lookup_insert_ne hne]

/-- Merging some packages makes right entries, or an entry for a package that is not the chosen
one. The packages that are not chosen have to be behind one with the same name. -/
theorem mergeAll_simulates {fuel : Nat} {is : List (PackagePointer packages)}
    (hsim : Simulates hwf ∅ hash)
    (hi : ∀ before i after, is = before ++ i :: after → c.find i.name = some i ∨
      hash.lookup i.name ≠ none ∨ ∃ j, j ∈ before ∧ j.name = i.name)
    (hrun : mergeAll staticMode fuel hash is = some hash') :
    Simulates hwf ∅ hash' ∨ ∃ before i after name, is = before ++ i :: after ∧
      c.find i.name = some i ∧ Relation.TransGen (c.database.Looks staticMode) i.name name ∧
        hash.lookup name = none ∧ (∀ j, j ∈ before → j.name ≠ name) ∧ Misplaced c hash' name := by
  induction is generalizing hash with
  | nil =>
      simp only [mergeAll, List.foldlM_nil, Option.pure_def, Option.some.injEq] at hrun
      exact Or.inl (hrun ▸ hsim)
  | cons i is ih =>
      rcases mergeAll_cons hrun with ⟨entry, hash₁, hcall, hrest⟩
      have hframe := mergeFunc_frame fuel hash i entry hash₁ hcall
      have hfind : hash.lookup i.name = none → c.find i.name = some i := by
        intro hnone
        rcases hi [] i is rfl with hfind | hlookup | ⟨j, hj, -⟩
        · exact hfind
        · exact absurd hnone hlookup
        · simp at hj
      rcases mergeFunc_simulates fuel ∅ hash i entry hash₁ hsim (by simp) hfind hcall with
        ⟨-, hsim₁⟩ | ⟨name, hpath, hnone, hmisplaced⟩
      · have hi₁ : ∀ before j after, is = before ++ j :: after → c.find j.name = some j ∨
            hash₁.lookup j.name ≠ none ∨ ∃ k, k ∈ before ∧ k.name = j.name := by
          intro before j after hsplit
          rcases hi (i :: before) j after (by simp [hsplit]) with hj | hj | ⟨k, hk, hname⟩
          · exact Or.inl hj
          · exact Or.inr (Or.inl (hframe.keeps.grows.lookup_ne_none hj))
          · rcases List.mem_cons.mp hk with heq | hk
            · rw [← hname, heq, hframe.result]
              simp
            · exact Or.inr (Or.inr ⟨k, hk, hname⟩)
        rcases ih hsim₁ hi₁ hrest with hsim' | ⟨before, j, after, name, hsplit, hj, hpath, hnone,
          hbefore, hmisplaced⟩
        · exact Or.inl hsim'
        · right
          refine ⟨i :: before, j, after, name, by simp [hsplit], hj, hpath, ?_, ?_, hmisplaced⟩
          · by_contra hlookup
            exact hframe.keeps.grows.lookup_ne_none hlookup hnone
          · intro k hk
            rcases List.mem_cons.mp hk with heq | hk
            · intro hname
              rw [← hname, heq, hframe.result] at hnone
              simp at hnone
            · exact hbefore k hk
      · right
        have hown : hash.lookup i.name = none := by
          by_contra hlookup
          rcases Option.ne_none_iff_exists'.mp hlookup with ⟨old, hold⟩
          have hsame : hash₁ = hash := by
            unfold mergeFunc at hcall
            simp only [hold, Option.some.injEq, Prod.mk.injEq] at hcall
            exact hcall.2.symm
          rcases hmisplaced with ⟨new, -, hnew, -⟩
          rw [hsame, hnone] at hnew
          simp at hnew
        exact ⟨[], i, is, name, rfl, hfind hown, hpath, hnone, by simp,
          hmisplaced.keeps ((mergeAll_frame hrest).keeps name)⟩

end PkgConfig

end Qbs
