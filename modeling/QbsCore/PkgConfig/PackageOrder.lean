import QbsCore.PkgConfig.FindPackages

/-!
# The order of package files

The files of a directory are listed in any order.  A package that is required by its name is
looked up among all files, where the last one with the name is found, whereas for the packages
that are merged later the one that was merged first counts.

Main results:

- Theorem {lit}`PkgConfig.packageOrder_independent_iff`: if packages do not look at themselves, the order
  does not matter, and the first file with a name is always used, exactly if no package that is
  looked at too early has several files.
-/

namespace Qbs

namespace PkgConfig

open PcPackage OrderedClosure

/-! ## Orders of files -/

/-- The same files in the same directories, listed in another order. -/
structure PcFiles.Reordered (files files' : PcFiles) : Prop where
  read : files'.read = files.read
  listing : ∀ searchPath, (files'.listing searchPath).Perm (files.listing searchPath)

/-- The files of a directory have different names, and no file is in two search paths; in particular
no directory with package files is listed twice. -/
structure Distinct (options : Options) (files : PcFiles) : Prop where
  names : ∀ searchPath, searchPath ∈ allSearchPaths options →
    ((usedFiles options files searchPath).map baseName).Nodup
  paths : (getPcFilePaths options files).Nodup

/-- The file with a base name in the first search path that has one. -/
def firstFile (options : Options) (files : PcFiles) (name : StdString) : Option StdString :=
  (getPcFilePaths options files).find? fun path => baseName path = name

/-- Each package, also where it is required, is the one from the first file with its name. -/
def UsesFirst (options : Options) (files : PcFiles) : Prop :=
  ∀ name entry,
    (mergedHash options.staticMode (unmergedPackages options files)).lookup name = some entry →
      firstFile options files name = some entry.package.getFilePath ∧
        (entry.package.isBroken = false → ∀ i, i ∈ entry.deps →
          firstFile options files i.name =
            some ((unmergedPackages options files).get i).getFilePath)

/-- In every order of the files the first files are used, and the packages are the same. -/
def OrderIndependent (options : Options) (files : PcFiles) : Prop :=
  ∀ files', files.Reordered files' → UsesFirst options files' ∧
    ∀ name, getPackage (findPackages options files') name =
      getPackage (findPackages options files) name

/-- The packages from the first files. -/
def firstPackages (options : Options) (files : PcFiles) : Database :=
  Database.ofList (unmergedPackages options files)

/-- A file is in the same or a later search path. -/
def NotAfter (options : Options) (files : PcFiles) (path other : StdString) : Prop :=
  ∃ before searchPath after, allSearchPaths options = before ++ searchPath :: after ∧
    path ∈ usedFiles options files searchPath ∧
      ∃ later, later ∈ searchPath :: after ∧ other ∈ usedFiles options files later

/-- No package looks at itself, not even through others. -/
def Acyclic (options : Options) (files : PcFiles) : Prop :=
  ∀ name, ¬Relation.TransGen ((firstPackages options files).Looks options.staticMode) name name

/-- A package that is looked at from a search path that is not behind its own has one file only. -/
def NoneHidden (options : Options) (files : PcFiles) : Prop :=
  ∀ name other path otherPath,
    Relation.TransGen ((firstPackages options files).Looks options.staticMode) name other →
      firstFile options files name = some path → firstFile options files other = some otherPath →
        NotAfter options files path otherPath →
          ∀ file, file ∈ getPcFilePaths options files → baseName file = other → file = otherPath

/-! ## First and last files -/

/-- The packages that come first. -/
def firstChoice (packages : List PcPackageVariant) : Choice packages where
  find name := (List.finRange packages.length).find? fun i => i.name = name
  name_eq name i h := by
    have hname := List.find?_some h
    exact of_decide_eq_true hname
  exists_find i := by
    apply Option.ne_none_iff_exists'.mp
    intro h
    have hno := List.find?_eq_none.mp h i (by simp)
    simp at hno

variable {packages : List PcPackageVariant} {i j : PackagePointer packages} {name : StdString}

/-- What is before and behind a position. -/
theorem mem_of_finRange_eq {n : Nat} {before after : List (Fin n)} {i : Fin n}
    (h : List.finRange n = before ++ i :: after) (j : Fin n) :
    (j < i → j ∈ before) ∧ (i < j → j ∈ after) ∧ (j ∈ before → j < i) := by
  have hmem : j ∈ before ++ i :: after := h ▸ List.mem_finRange j
  have hpairwise := List.pairwise_lt_finRange n
  rw [h, List.pairwise_append, List.pairwise_cons] at hpairwise
  rcases hpairwise with ⟨-, ⟨hafter, -⟩, hbefore⟩
  have hlt : j ∈ before → j < i := fun hj => hbefore j hj i (by simp)
  rw [List.mem_append, List.mem_cons] at hmem
  refine ⟨?_, ?_, hlt⟩
  · intro hji
    rcases hmem with hj | heq | hj
    · exact hj
    · omega
    · have hij := hafter j hj
      omega
  · intro hij
    rcases hmem with hj | heq | hj
    · have hji := hlt hj
      omega
    · omega
    · exact hj

theorem firstChoice_le (h : (firstChoice packages).find name = some i) (hj : j.name = name) :
    i ≤ j := by
  rcases List.find?_eq_some_iff_append.mp h with ⟨-, before, after, hsplit, hbefore⟩
  by_contra hlt
  have hmem := (mem_of_finRange_eq hsplit j).1 (not_le.mp hlt)
  have hno := hbefore j hmem
  simp [hj] at hno

theorem packageHash_le (h : packageHash packages name = some i) (hj : j.name = name) : j ≤ i := by
  rcases List.find?_eq_some_iff_append.mp h with ⟨-, before, after, hsplit, hbefore⟩
  rw [List.reverse_eq_iff, List.reverse_append, List.reverse_cons, List.append_assoc,
    List.singleton_append] at hsplit
  by_contra hlt
  have hmem := (mem_of_finRange_eq hsplit j).2.1 (not_le.mp hlt)
  have hno := hbefore j (List.mem_reverse.mp hmem)
  rw [Bool.not_eq_true', decide_eq_false_iff_not] at hno
  exact hno hj

theorem firstChoice_database : (firstChoice packages).database = Database.ofList packages := by
  funext name
  have hmap : (List.finRange packages.length).map packages.get = packages := by
    simp
  calc (firstChoice packages).database name
      = ((List.finRange packages.length).map packages.get).find?
          fun package => package.getBaseFileName = name := by
        rw [List.find?_map]
        rfl
    _ = Database.ofList packages name := by
        rw [hmap, Database.ofList]

/-! ## Reordered files -/

variable {options : Options} {files files' : PcFiles}

/-- What is found first does not depend on the order of lists with at most one match. -/
theorem find?_eq_of_perm {α : Type} {p : α → Bool} {l l' : List α} (hperm : l'.Perm l)
    (hunique : ∀ a, a ∈ l → ∀ b, b ∈ l → p a = true → p b = true → a = b) :
    l'.find? p = l.find? p := by
  cases hfind : l.find? p with
  | none =>
      rw [List.find?_eq_none] at hfind ⊢
      intro a ha
      exact hfind a (hperm.mem_iff.mp ha)
  | some a =>
      have ha := List.mem_of_find?_eq_some hfind
      cases hfind' : l'.find? p with
      | none =>
          have hno := List.find?_eq_none.mp hfind' a (hperm.mem_iff.mpr ha)
          exact absurd (List.find?_some hfind) hno
      | some b =>
          have hb := hperm.mem_iff.mp (List.mem_of_find?_eq_some hfind')
          rw [hunique a ha b hb (List.find?_some hfind) (List.find?_some hfind')]

theorem PcFiles.Reordered.usedFiles_perm (h : files.Reordered files') (searchPath : StdString) :
    (usedFiles options files' searchPath).Perm (usedFiles options files searchPath) :=
  (h.listing searchPath).filter _

theorem PcFiles.Reordered.getPcFilePaths_perm (h : files.Reordered files') :
    (getPcFilePaths options files').Perm (getPcFilePaths options files) :=
  List.Perm.flatMap_left _ fun searchPath _ => h.usedFiles_perm searchPath

theorem PcFiles.Reordered.firstFile_eq (h : files.Reordered files') (hdistinct : Distinct options files)
    (name : StdString) : firstFile options files' name = firstFile options files name := by
  have hfind : ∀ searchPaths : List StdString,
      (∀ searchPath, searchPath ∈ searchPaths → searchPath ∈ allSearchPaths options) →
        (searchPaths.flatMap (usedFiles options files')).find?
            (fun path => baseName path = name) =
          (searchPaths.flatMap (usedFiles options files)).find?
            fun path => baseName path = name := by
    intro searchPaths
    induction searchPaths with
    | nil => simp
    | cons searchPath searchPaths ih =>
        intro hsub
        have hnames := hdistinct.names searchPath (hsub searchPath (by simp))
        rw [List.flatMap_cons, List.flatMap_cons, List.find?_append, List.find?_append,
          ih fun d hd => hsub d (by simp [hd]),
          find?_eq_of_perm (h.usedFiles_perm searchPath)]
        intro a ha b hb hname hname'
        rw [decide_eq_true_eq] at hname hname'
        exact List.inj_on_of_nodup_map hnames ha hb (hname.trans hname'.symm)
  exact hfind _ fun _ hd => hd

theorem PcFiles.Reordered.distinct (h : files.Reordered files') (hdistinct : Distinct options files) :
    Distinct options files' := by
  constructor
  · intro searchPath hsearchPath
    rw [((h.usedFiles_perm searchPath).map baseName).nodup_iff]
    exact hdistinct.names searchPath hsearchPath
  · rw [(h.getPcFilePaths_perm).nodup_iff]
    exact hdistinct.paths

/-- The first package with a name comes from the first file with the name. -/
theorem firstPackages_apply (name : StdString) :
    firstPackages options files name =
      (firstFile options files name).map (foundPackage options files) := by
  unfold firstPackages Database.ofList unmergedPackages firstFile
  rw [List.find?_map]
  congr 2
  funext path
  simp [foundPackage_names]

theorem PcFiles.Reordered.firstPackages_eq (h : files.Reordered files') (hdistinct : Distinct options files) :
    firstPackages options files' = firstPackages options files := by
  funext name
  have hfound : foundPackage options files' = foundPackage options files := by
    funext path
    simp [foundPackage, parsePackageFile, h.read]
  rw [firstPackages_apply, firstPackages_apply, h.firstFile_eq hdistinct, hfound]

/-! ## Pointers and files -/

/-- The file of a package. -/
def PackagePointer.path (i : PackagePointer packages) : StdString :=
  (packages.get i).getFilePath

theorem map_path_finRange :
    (List.finRange (unmergedPackages options files).length).map PackagePointer.path =
      getPcFilePaths options files := by
  rw [← map_getFilePath_unmergedPackages]
  apply List.ext_getElem
  · simp
  · intro n h h'
    simp [PackagePointer.path]

theorem name_eq_baseName (i : PackagePointer (unmergedPackages options files)) :
    i.name = baseName i.path := by
  rcases List.mem_map.mp (List.get_mem (unmergedPackages options files) i) with ⟨path, -, hpath⟩
  rw [PackagePointer.name, PackagePointer.path, ← hpath, (foundPackage_names path).1,
    (foundPackage_names path).2]

theorem path_mem (i : PackagePointer (unmergedPackages options files)) :
    i.path ∈ getPcFilePaths options files := by
  rw [← map_path_finRange]
  exact List.mem_map_of_mem (List.mem_finRange i)

variable {i : PackagePointer (unmergedPackages options files)} {name other path : StdString}

/-- Different packages come from different files. -/
theorem eq_of_path_eq (hdistinct : Distinct options files)
    {j : PackagePointer (unmergedPackages options files)} (h : i.path = j.path) : i = j := by
  have hpaths := hdistinct.paths
  rw [← map_path_finRange] at hpaths
  exact List.inj_on_of_nodup_map hpaths (List.mem_finRange i) (List.mem_finRange j) h

theorem baseName_of_firstFile (h : firstFile options files name = some path) :
    baseName path = name := by
  have hname := List.find?_some h
  exact of_decide_eq_true hname

/-- The first package with a name comes from the first file. -/
theorem firstFile_eq_some (h : (firstChoice (unmergedPackages options files)).find name = some i) :
    firstFile options files name = some i.path := by
  unfold firstFile
  rw [← map_path_finRange, List.find?_map]
  have hfind : (List.finRange (unmergedPackages options files).length).find?
      ((fun path => decide (baseName path = name)) ∘ PackagePointer.path) = some i := by
    rw [← h]
    congr
    funext j
    simp [name_eq_baseName]
  rw [hfind]
  simp

/-- A package that is the first one of its name, from the file. -/
theorem find_eq_some (hdistinct : Distinct options files)
    (h : firstFile options files name = some i.path) :
    (firstChoice (unmergedPackages options files)).find name = some i := by
  have hname := baseName_of_firstFile h
  rw [← name_eq_baseName] at hname
  rcases (firstChoice (unmergedPackages options files)).exists_find i with ⟨j, hj⟩
  rw [hname] at hj
  have hpath := firstFile_eq_some hj
  rw [h, Option.some.injEq] at hpath
  rw [hj, eq_of_path_eq hdistinct hpath]

/-- In a run over all packages or the first ones, a package that is not the first of its name is
behind one that is. -/
theorem firstChoice_before {l rest : List (PackagePointer packages)}
    (hsplit : List.finRange packages.length = l ++ rest)
    (before : List (PackagePointer packages)) (i : PackagePointer packages)
    (after : List (PackagePointer packages)) (hl : l = before ++ i :: after) :
    (firstChoice packages).find i.name = some i ∨ ∃ j, j ∈ before ∧ j.name = i.name := by
  rcases (firstChoice packages).exists_find i with ⟨j, hj⟩
  rcases lt_or_eq_of_le (firstChoice_le hj rfl) with hlt | heq
  · rw [hl, List.append_assoc, List.cons_append] at hsplit
    exact Or.inr ⟨j, (mem_of_finRange_eq hsplit j).1 hlt, (firstChoice packages).name_eq _ j hj⟩
  · rw [heq] at hj
    exact Or.inl hj

/-- What comes later is in the same or a later search path. -/
theorem notAfter_of_split {before after : List StdString}
    (h : getPcFilePaths options files = before ++ path :: after) (hother : other ∈ after) :
    NotAfter options files path other := by
  have hsplit : ∀ (searchPaths : List StdString) (before : List StdString),
      searchPaths.flatMap (usedFiles options files) = before ++ path :: after →
        ∃ earlier searchPath rest, searchPaths = earlier ++ searchPath :: rest ∧
          path ∈ usedFiles options files searchPath ∧
            ∃ later, later ∈ searchPath :: rest ∧ other ∈ usedFiles options files later := by
    intro searchPaths
    induction searchPaths with
    | nil => simp
    | cons searchPath searchPaths ih =>
        intro before heq
        rw [List.flatMap_cons] at heq
        rcases List.append_eq_append_iff.mp heq with ⟨middle, -, hrest⟩ | ⟨middle, hfirst, hrest⟩
        · rcases ih middle hrest with ⟨earlier, d, rest, hpaths, hpath, hlater⟩
          exact ⟨searchPath :: earlier, d, rest, by simp [hpaths], hpath, hlater⟩
        · cases middle with
          | nil =>
              rcases ih [] hrest.symm with ⟨earlier, d, rest, hpaths, hpath, hlater⟩
              exact ⟨searchPath :: earlier, d, rest, by simp [hpaths], hpath, hlater⟩
          | cons p middle =>
              simp only [List.cons_append, List.cons.injEq] at hrest
              refine ⟨[], searchPath, searchPaths, rfl, by simp [hfirst, hrest.1], ?_⟩
              rw [hrest.2, List.mem_append] at hother
              rcases hother with hmem | hmem
              · exact ⟨searchPath, by simp, by simp [hfirst, hmem]⟩
              · rcases List.mem_flatMap.mp hmem with ⟨d, hd, hmem⟩
                exact ⟨d, by simp [hd], hmem⟩
  exact hsplit _ before h

/-! ## Runs over all packages -/

variable {staticMode : Bool}

/-- The merged packages are what is reported, if the entries of the hash are right. -/
theorem Simulates.reportedPackage_eq {c : Choice (unmergedPackages options files)}
    {hwf : WellFounded fun other name => c.database.Looks options.staticMode name other}
    (h : Simulates hwf ∅ (mergedHash options.staticMode (unmergedPackages options files)))
    (name : StdString) : reportedPackage options files name = Database.merged hwf name := by
  unfold reportedPackage
  cases hlookup : (mergedHash options.staticMode (unmergedPackages options files)).lookup name with
  | some entry => simp [(h.correct name entry (by simp) hlookup).merged]
  | none =>
      have hnone : c.database name = none := by
        by_contra hne
        rcases Option.ne_none_iff_exists'.mp hne with ⟨v, hv⟩
        rcases Option.map_eq_some_iff.mp hv with ⟨i, hi, -⟩
        have hpresent : (mergedHash options.staticMode _).lookup (PackagePointer.name i) ≠ none :=
          mergedHash_lookup_ne_none i
        rw [c.name_eq name i hi] at hpresent
        exact hpresent hlookup
      simp [Database.merged_missing hwf hnone]

/-- What packages become depends on the database only. -/
theorem Database.merged_congr {db db' : Database} (heq : db' = db)
    (hwf : WellFounded fun other name => db.Looks staticMode name other)
    (hwf' : WellFounded fun other name => db'.Looks staticMode name other) (name : StdString) :
    Database.merged hwf' name = Database.merged hwf name := by
  subst heq
  rfl

theorem wellFounded_of_acyclic_files (h : Acyclic options files) :
    WellFounded fun other name =>
      (firstChoice (unmergedPackages options files)).database.Looks options.staticMode name other := by
  apply Choice.wellFounded_looks
  rw [firstChoice_database]
  exact h

/-- If no package that is looked at too early has several files, a run uses the first files. -/
theorem simulates_of_noneHidden (hdistinct : Distinct options files) (hacyclic : Acyclic options files)
    (hnone : NoneHidden options files) :
    Simulates (wellFounded_of_acyclic_files hacyclic) ∅
      (mergedHash options.staticMode (unmergedPackages options files)) := by
  have hrun := mergeAll_mergedHash options.staticMode (unmergedPackages options files)
  have hbefore := firstChoice_before
    (List.append_nil (List.finRange (unmergedPackages options files).length)).symm
  rcases mergeAll_simulates (simulates_empty (wellFounded_of_acyclic_files hacyclic))
    (fun before i after hsplit => (hbefore before i after hsplit).imp_right Or.inr) hrun with
    hsim | ⟨before, i, after, name, hsplit, hi, hpath, -, hno, entry, k, -, -, hk, hwrong⟩
  · exact hsim
  · rcases (firstChoice _).exists_find_of_packageHash hk with ⟨j, hj⟩
    have hjname := (firstChoice _).name_eq name j hj
    rw [firstChoice_database] at hpath
    have hafter : j ∈ after := by
      have hmem := List.mem_finRange j
      rw [hsplit, List.mem_append, List.mem_cons] at hmem
      rcases hmem with hmem | heq | hmem
      · exact absurd hjname (hno j hmem)
      · rw [← hjname, heq] at hpath
        exact absurd hpath (hacyclic _)
      · exact hmem
    have hpaths : getPcFilePaths options files =
        before.map PackagePointer.path ++ i.path :: after.map PackagePointer.path := by
      rw [← map_path_finRange, hsplit, List.map_append, List.map_cons]
    have hnotAfter := notAfter_of_split hpaths (List.mem_map_of_mem hafter)
    have hkj := hnone i.name name i.path j.path hpath (firstFile_eq_some hi) (firstFile_eq_some hj)
      hnotAfter k.path (path_mem k) (by rw [← name_eq_baseName, name_of_packageHash hk])
    rw [eq_of_path_eq hdistinct hkj] at hwrong
    exact absurd hj hwrong

/-- Right entries come from the first files. -/
theorem usesFirst_of_simulates
    (hacyclic : Acyclic options files)
    (h : Simulates (wellFounded_of_acyclic_files hacyclic) ∅
      (mergedHash options.staticMode (unmergedPackages options files))) :
    UsesFirst options files := by
  intro name entry hlookup
  have hcorrect := h.correct name entry (by simp) hlookup
  constructor
  · rcases Database.getFilePath_merged _ hcorrect.merged with ⟨v, hv, hpath⟩
    rcases Option.map_eq_some_iff.mp hv with ⟨i, hi, hget⟩
    rw [firstFile_eq_some hi, hpath, ← hget, PackagePointer.path]
  · intro hno i hi
    have hnotBroken : ¬(firstChoice (unmergedPackages options files)).database.Broken
        options.staticMode name := by
      rw [← Database.isBroken_merged _ hcorrect.merged, hno]
      simp
    rw [firstFile_eq_some (hcorrect.chosen hnotBroken i hi), PackagePointer.path]

/-- Without files that are hidden, every order of the files gives the same packages. -/
theorem orderIndependent_of_noneHidden (hmerge : options.mergeDependencies = true)
    (hdistinct : Distinct options files) (hacyclic : Acyclic options files)
    (hnone : NoneHidden options files) : OrderIndependent options files := by
  intro files' hreordered
  have hdistinct' := hreordered.distinct hdistinct
  have hfirst := hreordered.firstPackages_eq hdistinct
  have hacyclic' : Acyclic options files' := by
    unfold Acyclic
    rw [hfirst]
    exact hacyclic
  have hnone' : NoneHidden options files' := by
    intro name other path otherPath hpath hfile hother hnotAfter file hmem hname
    rw [hfirst] at hpath
    rw [hreordered.firstFile_eq hdistinct] at hfile hother
    rcases hnotAfter with ⟨before, searchPath, after, hpaths, hin, later, hlater, hin'⟩
    refine hnone name other path otherPath hpath hfile hother ?_ file
      (hreordered.getPcFilePaths_perm.mem_iff.mp hmem) hname
    exact ⟨before, searchPath, after, hpaths,
      (hreordered.usedFiles_perm searchPath).mem_iff.mp hin, later, hlater,
      (hreordered.usedFiles_perm later).mem_iff.mp hin'⟩
  have hsim := simulates_of_noneHidden hdistinct hacyclic hnone
  have hsim' := simulates_of_noneHidden hdistinct' hacyclic' hnone'
  refine ⟨usesFirst_of_simulates hacyclic' hsim', ?_⟩
  intro name
  have hdatabase : (firstChoice (unmergedPackages options files')).database =
      (firstChoice (unmergedPackages options files)).database := by
    rw [firstChoice_database, firstChoice_database]
    exact hfirst
  rw [getPackage_findPackages hmerge, getPackage_findPackages hmerge, hsim.reportedPackage_eq,
    hsim'.reportedPackage_eq, Database.merged_congr hdatabase]

/-! ## Files that are hidden -/

/-- List a file first in its directory. -/
def PcFiles.listFirst (files : PcFiles) (path : StdString) : PcFiles where
  listing searchPath :=
    if path ∈ files.listing searchPath then path :: (files.listing searchPath).erase path
    else files.listing searchPath
  read := files.read

theorem reordered_listFirst (files : PcFiles) (path : StdString) :
    files.Reordered (files.listFirst path) := by
  refine ⟨by simp [PcFiles.listFirst], ?_⟩
  intro searchPath
  unfold PcFiles.listFirst
  dsimp only
  split
  · rename_i hmem
    exact (List.perm_cons_erase hmem).symm
  · exact List.Perm.refl _

/-- Files of the same or a later search path come after the file that is listed first. -/
theorem exists_split_listFirst (hne : other ≠ path) (h : NotAfter options files path other) :
    ∃ before after, getPcFilePaths options (files.listFirst path) = before ++ path :: after ∧
      other ∈ after := by
  rcases h with ⟨before, searchPath, after, hpaths, hpath, later, hlater, hother⟩
  have hmem := List.mem_filter.mp hpath
  have hfirst : usedFiles options (files.listFirst path) searchPath =
      path :: ((files.listing searchPath).erase path).filter (isUsed options) := by
    simp [usedFiles, PcFiles.listFirst, hmem.1, hmem.2]
  have hother' : other ∈ usedFiles options (files.listFirst path) later :=
    ((reordered_listFirst files path).usedFiles_perm later).mem_iff.mpr hother
  refine ⟨before.flatMap (usedFiles options (files.listFirst path)),
    ((files.listing searchPath).erase path).filter (isUsed options) ++
      after.flatMap (usedFiles options (files.listFirst path)), ?_, ?_⟩
  · simp [getPcFilePaths, hpaths, hfirst]
  · rw [List.mem_append]
    rcases List.mem_cons.mp hlater with heq | hlater
    · rw [heq, hfirst, List.mem_cons] at hother'
      exact Or.inl (hother'.resolve_left hne)
    · exact Or.inr (List.mem_flatMap.mpr ⟨later, hlater, hother'⟩)

/-- If the first files are used everywhere, no entry is in the wrong place. -/
theorem not_misplaced_of_usesFirst (hdistinct : Distinct options files)
    (h : UsesFirst options files) (name : StdString) :
    ¬Misplaced (firstChoice (unmergedPackages options files))
      (mergedHash options.staticMode (unmergedPackages options files)) name := by
  intro hmisplaced
  rcases hmisplaced with ⟨entry, i, hlookup, hbelongs, -, hno⟩
  have hfile := (h name entry hlookup).1
  rw [hbelongs.filePath] at hfile
  exact hno (find_eq_some hdistinct hfile)

/-- Everything that a package with an entry looks at has an entry. -/
theorem lookup_ne_none_of_path {c : Choice packages}
    {hwf : WellFounded fun other name => c.database.Looks staticMode name other}
    {hash : MergedHash packages} (h : Simulates hwf ∅ hash) (hname : hash.lookup name ≠ none)
    (hpath : Relation.TransGen (c.database.Looks staticMode) name other)
    (hother : c.find other ≠ none) : hash.lookup other ≠ none := by
  induction hpath with
  | single hlooks => exact h.closed name (by simp) hname _ hlooks hother
  | @tail second other _ hlooks ih =>
      rcases Database.exists_package_of_requires (Database.looks_requires hlooks) with
        ⟨package, hpackage⟩
      have hfind : c.find second ≠ none := by
        intro hnone
        rw [Choice.database, hnone] at hpackage
        simp at hpackage
      exact h.closed _ (by simp) (ih hfind) _ hlooks hother

/-- If a package looks at another one that comes later, and the first files are used everywhere,
the other one has one file only. -/
theorem eq_of_usesFirst (hdistinct : Distinct options files) (hacyclic : Acyclic options files)
    (h : UsesFirst options files) {otherPath : StdString}
    (hpath : Relation.TransGen ((firstPackages options files).Looks options.staticMode) name other)
    (hother : firstFile options files other = some otherPath) {before after : List StdString}
    (hsplit : getPcFilePaths options files = before ++ path :: after) (hname : baseName path = name)
    (hafter : otherPath ∈ after) {file : StdString} (hfile : file ∈ getPcFilePaths options files)
    (hfileName : baseName file = other) :
    file = otherPath := by
  -- the run up to the package that looks at the other one
  rw [← map_path_finRange] at hsplit
  rcases List.map_eq_append_iff.mp hsplit with ⟨l, rest, hrange, -, hrest⟩
  rcases List.map_eq_cons_iff.mp hrest with ⟨i, l', hcons, hi, hl'⟩
  rw [← hl'] at hafter
  rcases List.mem_map.mp hafter with ⟨j, hj, hjpath⟩
  have hrun := mergeAll_mergedHash options.staticMode (unmergedPackages options files)
  rw [hrange, hcons, ← List.singleton_append, ← List.append_assoc] at hrun
  rcases mergeAll_append hrun with ⟨hash, hfirst, hlast⟩
  have hkeeps := (mergeAll_frame hlast).keeps
  have hframe := mergeAll_frame hfirst
  rw [hcons] at hrange
  have hsplit' : List.finRange (unmergedPackages options files).length = (l ++ [i]) ++ l' := by
    simp [hrange]
  have hnot := not_misplaced_of_usesFirst hdistinct h
  have hsim : Simulates (wellFounded_of_acyclic_files hacyclic) ∅ hash := by
    rcases mergeAll_simulates (simulates_empty (wellFounded_of_acyclic_files hacyclic))
      (fun b k a hl => (firstChoice_before hsplit' b k a hl).imp_right Or.inr) hfirst with
      hsim | ⟨-, -, -, wrong, -, -, -, -, -, hmisplaced⟩
    · exact hsim
    · exact absurd (hmisplaced.keeps (hkeeps wrong)) (hnot wrong)
  -- the other one has an entry by then, which is that of its first file
  have hjfind := find_eq_some hdistinct (hother.trans (congrArg some hjpath.symm))
  have hpresent : hash.lookup other ≠ none := by
    apply lookup_ne_none_of_path hsim (hframe.result i (by simp))
    · rw [firstChoice_database, name_eq_baseName, hi, hname]
      exact hpath
    · simp [hjfind]
  rcases Option.ne_none_iff_exists'.mp hpresent with ⟨entry, hentry⟩
  rcases hframe.fresh other entry (by simp) hentry with ⟨k, hbelongs, hk⟩
  have hkj : k = j := by
    have hpathEq := (h other entry (hkeeps other entry hentry)).1
    rw [hother, hbelongs.filePath, Option.some.injEq, ← hjpath] at hpathEq
    exact eq_of_path_eq hdistinct hpathEq.symm
  rw [hkj] at hk
  rcases hk with ⟨hmem, -⟩ | hhash
  · have hnodup := List.nodup_finRange (unmergedPackages options files).length
    rw [hsplit', List.nodup_append] at hnodup
    exact absurd rfl (hnodup.2.2 j hmem j hj)
  · rw [← map_path_finRange] at hfile
    rcases List.mem_map.mp hfile with ⟨m, -, hm⟩
    have hmname : m.name = other := by
      rw [name_eq_baseName, hm, hfileName]
    have heq := le_antisymm (packageHash_le hhash hmname) (firstChoice_le hjfind hmname)
    rw [← hm, heq, hjpath]

/-- In every order of the files, the first files are used and the packages are the same, exactly if
no package that is looked at too early has several files. -/
theorem packageOrder_independent_iff (hmerge : options.mergeDependencies = true)
    (hdistinct : Distinct options files) :
    Acyclic options files ∧ OrderIndependent options files ↔
      Acyclic options files ∧ NoneHidden options files := by
  refine and_congr_right fun hacyclic => ⟨?_, orderIndependent_of_noneHidden hmerge hdistinct hacyclic⟩
  intro h name other path otherPath hpath hfile hother hnotAfter file hmem hname
  have hreordered := reordered_listFirst files path
  have hfirst := hreordered.firstPackages_eq hdistinct
  have hpathName := baseName_of_firstFile hfile
  have hotherName := baseName_of_firstFile hother
  have hne : otherPath ≠ path := by
    intro heq
    rw [← hpathName, ← hotherName, heq] at hpath
    exact hacyclic _ hpath
  rcases exists_split_listFirst hne hnotAfter with ⟨before, after, hsplit, hafter⟩
  have hacyclic' : Acyclic options (files.listFirst path) := by
    unfold Acyclic
    rw [hfirst]
    exact hacyclic
  refine eq_of_usesFirst (hreordered.distinct hdistinct) hacyclic' (h _ hreordered).1 ?_ ?_ hsplit
    hpathName hafter (hreordered.getPcFilePaths_perm.mem_iff.mpr hmem) hname
  · rw [hfirst]
    exact hpath
  · rw [hreordered.firstFile_eq hdistinct]
    exact hother

/-- Two search paths. -/
def sampleOptions : Options where
  libDirs := ["d1".toList, "d2".toList]
  extraPaths := []
  sysroot := []
  systemLibraryPaths := []
  disableUninstalled := true
  staticMode := false
  mergeDependencies := true
  allowSystemLibraryPaths := false

/-- The first search path has a package and one that it requires, which is in the second one, too. -/
def sampleFiles : PcFiles where
  listing searchPath :=
    if searchPath = "d1".toList then ["d1/a.pc".toList, "d1/b.pc".toList]
    else if searchPath = "d2".toList then ["d2/b.pc".toList]
    else []
  read path :=
    .ok { PcPackage.empty with
      requiresPublic :=
        if path = "d1/a.pc".toList then [⟨"b".toList, .alwaysMatch, []⟩] else [] }

theorem distinct_sampleFiles : Distinct sampleOptions sampleFiles := by
  constructor
  · decide
  · decide

/-- The required package is taken from the second search path. -/
theorem not_orderIndependent_sample :
    sampleOptions.mergeDependencies = true ∧ Distinct sampleOptions sampleFiles ∧
      ¬OrderIndependent sampleOptions sampleFiles := by
  refine ⟨by decide, distinct_sampleFiles, ?_⟩
  intro h
  have hreordered : sampleFiles.Reordered sampleFiles := ⟨by simp, fun _ => List.Perm.refl _⟩
  have hpath : ((mergedHash sampleOptions.staticMode (unmergedPackages sampleOptions sampleFiles)).lookup
      "b".toList).map (fun entry => entry.package.getFilePath) = some "d2/b.pc".toList := by
    decide
  rcases Option.map_eq_some_iff.mp hpath with ⟨entry, hentry, heq⟩
  have hfirst := ((h sampleFiles hreordered).1 _ entry hentry).1
  rw [heq] at hfirst
  exact absurd hfirst (by decide)

/-- The required package is only in the second search path. -/
def separateFiles : PcFiles where
  listing searchPath :=
    if searchPath = "d1".toList then ["d1/a.pc".toList]
    else if searchPath = "d2".toList then ["d2/b.pc".toList]
    else []
  read := sampleFiles.read

/-- Then the order of files does not matter. -/
theorem packageOrder_independent_iff_sample : OrderIndependent sampleOptions separateFiles := by
  have hlooks : ∀ name other, (firstPackages sampleOptions separateFiles).Looks false name other →
      name = "a".toList ∧ other = "b".toList := by
    intro name other h
    rcases Database.looks_requires h with ⟨dependency, hmem, rfl⟩
    unfold Database.dependencies at hmem
    rw [firstPackages_apply] at hmem
    cases hfile : firstFile sampleOptions separateFiles name with
    | none =>
        rw [hfile] at hmem
        cases hmem
    | some path =>
        have hpath : path ∈ ["d1/a.pc".toList, "d2/b.pc".toList] := List.mem_of_find?_eq_some hfile
        rw [hfile] at hmem
        rw [← baseName_of_firstFile hfile]
        rcases List.mem_cons.mp hpath with rfl | hpath
        · rw [List.mem_singleton.mp hmem]
          exact ⟨by decide, rfl⟩
        · rw [List.mem_singleton.mp hpath] at hmem
          cases hmem
  refine ((packageOrder_independent_iff (by decide) ⟨by decide, by decide⟩).mpr ⟨?_, ?_⟩).2
  · intro name h
    rcases Relation.TransGen.head'_iff.mp h with ⟨first, hfirst, -⟩
    rcases Relation.TransGen.tail'_iff.mp h with ⟨last, -, hlast⟩
    rw [(hlooks _ _ hfirst).1] at hlast
    exact absurd (hlooks _ _ hlast).2 (by decide)
  · intro name other path otherPath h _ hother _ file hfile hname
    rcases Relation.TransGen.tail'_iff.mp h with ⟨last, -, hlast⟩
    have hb := (hlooks _ _ hlast).2
    have hfiles : ∀ file ∈ getPcFilePaths sampleOptions separateFiles,
        baseName file = "b".toList → file = "d2/b.pc".toList := by
      decide
    rw [hfiles file hfile (hname.trans hb), hfiles otherPath (List.mem_of_find?_eq_some hother)
      ((baseName_of_firstFile hother).trans hb)]

end PkgConfig

end Qbs
