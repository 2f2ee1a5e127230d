import QbsCore.Language.SourceWildCards

/-!
# Changed wildcard matches

The directories that are searched for the files of a group are stored with their time stamps.  If
one of them is newer when the project is loaded again, the patterns are expanded once more, and
the files are compared.

Main results:

- Theorem {lit}`SourceWildCards.directory_mem_expandSteps_iff`: the directories that are remembered.
- Theorem {lit}`BuildGraphLoader.hasProductFileChanged_iff`: when products count as changed.
- Theorem {lit}`SourceWildCards.changesNoticed_iff`: when all later changes of files are noticed.

Current gaps:

- Directories do not come or go after resolving; files do.
- The list of changed products is left out of the result, as are the build system files.
-/

namespace Qbs

namespace SourceWildCards

/-! ## Remembering directories -/

/-- A directory tree at some time, and when each directory was last modified until then. -/
structure Snapshot where
  tree : FileSystem
  time : Nat
  lastModified : List PathText → Nat
  lastModified_le : ∀ dir, lastModified dir ≤ time

/-- What is stored with a group that has patterns. -/
structure Stored where
  wildcards : Wildcards
  baseDir : Place
  dirTimeStamps : List (Place × Nat)
  files : List PathText

/-- A directory with its time stamp. -/
def Found.stamp? (lastModified : List PathText → Nat) : Found → Option (Place × Nat)
  | .directory dir timeStampOf => some (dir, lastModified timeStampOf.position)
  | .file _ => none

section Store

variable (matchesName : PathText → PathText → Bool) (buildDir homePath : PathText)

/-- The directories that are remembered when the patterns are expanded. -/
def dirTimeStamps (snapshot : Snapshot) (wildcards : Wildcards) (baseDir : Place) :
    List (Place × Nat) :=
  ((expandList snapshot.tree matchesName buildDir homePath wildcards.groupPrefix
      wildcards.patterns baseDir) ++
    expandList snapshot.tree matchesName buildDir homePath wildcards.groupPrefix
      wildcards.excludePatterns baseDir).filterMap (Found.stamp? snapshot.lastModified)

/-- What is stored after resolving. -/
def stored (snapshot : Snapshot) (wildcards : Wildcards) (baseDir : Place) : Stored :=
  ⟨wildcards, baseDir, dirTimeStamps matchesName buildDir homePath snapshot wildcards baseDir,
    expandPatterns snapshot.tree matchesName buildDir homePath wildcards baseDir⟩

end Store

end SourceWildCards

namespace BuildGraphLoader

open SourceWildCards (Snapshot Stored expandPatterns)

/-- A product of the project that has been restored. -/
structure RestoredProduct where
  name : String
  /-- When the file of the product was last modified, if there still is one. -/
  lastModified : Option Nat
  missingSourceFiles : List PathText
  groups : List Stored

section

variable (matchesName : PathText → PathText → Bool) (buildDir homePath : PathText)

def reExpansionRequired (now : Snapshot) (group : Stored) : Bool :=
  group.dirTimeStamps.any fun pair => pair.2 < now.lastModified pair.1.position

/-- Sets of files are compared. -/
def sameFiles (files others : List PathText) : Bool :=
  files.all (fun file => file ∈ others) && others.all fun file => file ∈ files

def hasGroupChanged (now : Snapshot) (group : Stored) : Bool :=
  reExpansionRequired now group &&
    !sameFiles (expandPatterns now.tree matchesName buildDir homePath group.wildcards
      group.baseDir) group.files

variable (fileExists : PathText → Bool)

/-- Whether there are changes so far, and the products for which new files have been found. -/
def checkProduct (referenceTime : Nat) (now : Snapshot) (result : Bool × List String)
    (product : RestoredProduct) : Bool × List String :=
  match product.lastModified with
  | none => (true, result.2)
  | some time =>
      if referenceTime < time then (true, result.2)
      else if product.name ∈ result.2 then result
      else if product.missingSourceFiles.any fileExists ||
          product.groups.any (hasGroupChanged matchesName buildDir homePath now) then
        (true, result.2 ++ [product.name])
      else result

def hasProductFileChanged (referenceTime : Nat) (now : Snapshot)
    (products : List RestoredProduct) : Bool :=
  (products.foldl (checkProduct matchesName buildDir homePath fileExists referenceTime now)
    (false, [])).1

/-! ## Reported changes -/

/-- A product is removed, or changed, or has other files. -/
def RestoredProduct.IsChanged (referenceTime : Nat) (now : Snapshot)
    (product : RestoredProduct) : Prop :=
  (∀ time, product.lastModified = some time → referenceTime < time) ∨
    (∃ file ∈ product.missingSourceFiles, fileExists file = true) ∨
    ∃ group ∈ product.groups, hasGroupChanged matchesName buildDir homePath now group = true

variable {matchesName buildDir homePath fileExists} {referenceTime : Nat} {now : Snapshot}

/-- Products are only listed if something has changed. -/
theorem checkProduct_iff {result : Bool × List String} (hresult : result.2 ≠ [] → result.1 = true)
    (product : RestoredProduct) :
    let after := checkProduct matchesName buildDir homePath fileExists referenceTime now result
      product
    (after.2 ≠ [] → after.1 = true) ∧ (after.1 = true ↔ result.1 = true ∨
      product.IsChanged matchesName buildDir homePath fileExists referenceTime now) := by
  intro after
  have hafter : after = checkProduct matchesName buildDir homePath fileExists referenceTime now
    result product := rfl
  unfold checkProduct at hafter
  cases htime : product.lastModified with
  | none =>
      rw [htime] at hafter
      rw [hafter]
      refine ⟨fun _ => rfl, iff_of_true rfl (Or.inr (Or.inl fun time h => ?_))⟩
      rw [htime] at h
      cases h
  | some time =>
      rw [htime] at hafter
      dsimp only at hafter
      split_ifs at hafter with hnewer hlisted hfound
      · rw [hafter]
        refine ⟨fun _ => rfl, iff_of_true rfl (Or.inr (Or.inl fun time' h => ?_))⟩
        rw [htime] at h
        cases h
        exact hnewer
      · rw [hafter]
        have hchanged := hresult (List.ne_nil_of_mem hlisted)
        exact ⟨hresult, iff_of_true hchanged (Or.inl hchanged)⟩
      · rw [hafter]
        rw [Bool.or_eq_true, List.any_eq_true, List.any_eq_true] at hfound
        exact ⟨fun _ => rfl, iff_of_true rfl (Or.inr (Or.inr hfound))⟩
      · rw [hafter]
        rw [Bool.or_eq_true, List.any_eq_true, List.any_eq_true] at hfound
        refine ⟨hresult, (or_iff_left ?_).symm⟩
        rintro (h | h)
        · exact hnewer (h time htime)
        · exact hfound h

/-- Changes are reported if there is a changed product. -/
theorem hasProductFileChanged_iff {products : List RestoredProduct} :
    hasProductFileChanged matchesName buildDir homePath fileExists referenceTime now products =
        true ↔
      ∃ product ∈ products,
        product.IsChanged matchesName buildDir homePath fileExists referenceTime now := by
  suffices h : ∀ result : Bool × List String, (result.2 ≠ [] → result.1 = true) →
      ((products.foldl (checkProduct matchesName buildDir homePath fileExists referenceTime now)
        result).1 = true ↔ result.1 = true ∨ ∃ product ∈ products,
          product.IsChanged matchesName buildDir homePath fileExists referenceTime now) by
    refine (h (false, []) fun hne => absurd rfl hne).trans (or_iff_right ?_)
    exact Bool.false_ne_true
  induction products with
  | nil => exact fun result _ => (or_iff_left (by simp)).symm
  | cons product products ih =>
      intro result hresult
      rcases checkProduct_iff hresult product with ⟨hafter, hiff⟩
      rw [List.foldl_cons, ih _ hafter, hiff, List.exists_mem_cons_iff, or_assoc]

theorem sameFiles_iff {files others : List PathText} :
    sameFiles files others = true ↔ ∀ file, file ∈ files ↔ file ∈ others := by
  unfold sameFiles
  rw [Bool.and_eq_true, List.all_eq_true, List.all_eq_true]
  simp only [decide_eq_true_iff]
  exact ⟨fun h file => ⟨h.1 file, h.2 file⟩, fun h => ⟨fun file => (h file).mp,
    fun file => (h file).mpr⟩⟩

end

end BuildGraphLoader

namespace SourceWildCards

open FileInfo (cleanPath components IsName)
open BuildGraphLoader (reExpansionRequired hasGroupChanged sameFiles sameFiles_iff)

/-! ## Which directories are remembered -/

section Remembered

variable (fs : FileSystem) (matchesName : PathText → PathText → Bool)

/-- A directory is remembered if a part is searched in it, and also if a file is found in it below
the directory in which the last part is searched. In that case it has the time stamp of the latter
one. -/
inductive Remembered : List (Bool × PathText) → Place → Place → Place → Prop
  | searched {step : Bool × PathText} {rest : List (Bool × PathText)} {base : Place} :
      Remembered (step :: rest) base base base
  | found {recursive : Bool} {filePattern : PathText} {base : Place} {e : Entry} :
      e ∈ iterate fs matchesName filePattern false recursive base → e.isDir = false →
      e.parent.text ≠ base.text → Remembered [(recursive, filePattern)] base e.parent base
  | behind {recursive : Bool} {filePattern : PathText} {step : Bool × PathText}
      {rest : List (Bool × PathText)} {base dir timeStampOf : Place} {e : Entry} :
      e ∈ iterate fs matchesName filePattern true recursive base →
      Remembered (step :: rest) e.place dir timeStampOf →
      Remembered ((recursive, filePattern) :: step :: rest) base dir timeStampOf

variable {fs matchesName} {steps : List (Bool × PathText)} {base dir timeStampOf : Place}

theorem Remembered.prefix_text (h : Remembered fs matchesName steps base dir timeStampOf) :
    base.text <+: dir.text := by
  induction h with
  | searched => exact List.prefix_rfl
  | found he _ _ => exact prefix_of_mem_iterate he
  | behind he _ ih => exact ((prefix_of_mem_iterate he).trans (prefix_entryPath _ _)).trans ih

/-- The directories that are remembered when a pattern is expanded. -/
theorem directory_mem_expandSteps_iff {buildDir : PathText} :
    .directory dir timeStampOf ∈ expandSteps fs matchesName buildDir steps base ↔
      Remembered fs matchesName steps base dir timeStampOf ∧ ¬ buildDir <+: dir.text := by
  induction steps generalizing base with
  | nil => exact iff_of_false List.not_mem_nil fun h => by cases h.1
  | cons step rest ih =>
      rcases step with ⟨recursive, filePattern⟩
      cases rest with
      | nil =>
          rw [mem_expandSteps_last_iff]
          constructor
          · rintro ⟨hbase, hfound | ⟨e, he, hparent, hdir, ⟨htext, hfound⟩ | hfound⟩⟩
            · cases hfound
              exact ⟨Remembered.searched, hbase⟩
            · cases hfound
              exact ⟨Remembered.found he hdir htext, hparent⟩
            · cases hfound
          · rintro ⟨h, hnot⟩
            refine ⟨fun hbase => hnot (hbase.trans h.prefix_text), ?_⟩
            cases h with
            | searched => exact Or.inl rfl
            | found he hdir htext =>
                exact Or.inr ⟨_, he, hnot, hdir, Or.inl ⟨htext, rfl⟩⟩
      | cons step rest =>
          rw [mem_expandSteps_cons_iff]
          constructor
          · rintro ⟨hbase, hfound | ⟨e, he, -, hfound⟩⟩
            · cases hfound
              exact ⟨Remembered.searched, hbase⟩
            · rw [ih] at hfound
              exact ⟨Remembered.behind he hfound.1, hfound.2⟩
          · rintro ⟨h, hnot⟩
            refine ⟨fun hbase => hnot (hbase.trans h.prefix_text), ?_⟩
            cases h with
            | searched => exact Or.inl rfl
            | behind he h =>
                have hbegins := (prefix_entryPath _ _).trans h.prefix_text
                exact Or.inr ⟨_, he, fun hparent => hnot (hparent.trans hbegins),
                  ih.mpr ⟨h, hnot⟩⟩

/-- Where a file is found, the directory is remembered. -/
theorem Leads.remembered {parent : Place} {n : PathText}
    (h : Leads fs matchesName steps base parent n) :
    ∃ timeStampOf, Remembered fs matchesName steps base parent timeStampOf := by
  induction steps generalizing base with
  | nil => exact h.elim
  | cons step rest ih =>
      rcases step with ⟨recursive, filePattern⟩
      rcases h with ⟨e, he, h⟩
      cases rest with
      | nil =>
          rcases h with ⟨hdir, rfl, rfl⟩
          by_cases htext : e.parent.text = base.text
          · have hparent : e.parent = base := by
              rcases mem_iterate_iff.mp he with ⟨d, hd, he⟩
              rw [parent_of_mem_entryList he] at htext ⊢
              cases recursive with
              | true => exact FileSystem.Below.eq_of_text_eq hd htext
              | false => exact hd
            exact ⟨e.parent, hparent ▸ Remembered.searched⟩
          · exact ⟨base, Remembered.found he hdir htext⟩
      | cons step rest =>
          rcases ih h with ⟨timeStampOf, hremembered⟩
          exact ⟨timeStampOf, Remembered.behind he hremembered⟩

end Remembered

/-! ## Ways in trees with the same directories -/

section Ways

variable {fs fs' : FileSystem} {matchesName : PathText → PathText → Bool}
  {parts : List PathText} {base parent : Place} {n : PathText}

theorem Way.entry (h : Way fs matchesName parts base parent n) :
    (n, false) ∈ fs.entries parent.position := by
  induction h with
  | file _ hentry _ _ => exact hentry
  | directory _ _ _ _ _ ih => exact ih
  | dot _ ih => exact ih
  | dotDot _ ih => exact ih
  | noDirectory _ ih => exact ih
  | someDirectory _ _ _ ih => exact ih
  | allFiles _ ih => exact ih

theorem Way.proper (h : Way fs matchesName parts base parent n) (hbase : base.Proper) :
    parent.Proper := by
  induction h with
  | file _ _ _ _ => exact hbase
  | directory _ hentry _ _ _ ih => exact ih (hbase.child (fs.isName _ _ hentry))
  | dot _ ih => exact ih hbase.dot
  | dotDot _ ih => exact ih hbase.dotDot
  | noDirectory _ ih => exact ih hbase
  | someDirectory hentry _ _ ih => exact ih (hbase.child (fs.isName _ _ hentry))
  | allFiles _ ih => exact ih hbase

/-- The ways to a file depend on the directories. -/
theorem Way.transfer (hsame : fs.SameDirectories fs')
    (h : Way fs matchesName parts base parent n)
    (hentry : (n, false) ∈ fs'.entries parent.position) :
    Way fs' matchesName parts base parent n := by
  induction h with
  | file hpart _ hmatches hvisible => exact Way.file hpart hentry hmatches hvisible
  | directory hpart hdir hmatches hvisible _ ih =>
      exact Way.directory hpart ((hsame _ _).mp hdir) hmatches hvisible (ih hentry)
  | dot _ ih => exact Way.dot (ih hentry)
  | dotDot _ ih => exact Way.dotDot (ih hentry)
  | noDirectory _ ih => exact Way.noDirectory (ih hentry)
  | someDirectory hdir hvisible _ ih =>
      exact Way.someDirectory ((hsame _ _).mp hdir) hvisible (ih hentry)
  | allFiles _ ih => exact Way.allFiles (ih hentry)

theorem remembered_behind {part next : PathText} {dir : Place} (e : Entry)
    (hpart : part ≠ doubleStar) (he : e ∈ entryList fs matchesName part true base)
    (h : Remembered fs matchesName (stepsOf (next :: parts)) e.place dir dir) :
    Remembered fs matchesName (stepsOf (part :: next :: parts)) base dir dir := by
  rcases stepsOf_cons next parts with ⟨r, p, rest, hsteps, -⟩
  rw [hsteps] at h
  rw [stepsOf, if_neg hpart, hsteps]
  exact Remembered.behind (mem_iterate_iff.mpr ⟨base, rfl, he⟩) h

/-- Without double stars, a file is found in a directory in which a part is searched. -/
theorem Way.searched (hsame : fs.SameDirectories fs')
    (h : Way fs' matchesName parts base parent n) (hstars : doubleStar ∉ parts) :
    Remembered fs matchesName (stepsOf parts) base parent parent := by
  induction h with
  | @file part _ _ hpart _ _ _ =>
      rw [stepsOf, if_neg hpart]
      exact Remembered.searched
  | @directory _ _ name _ _ base _ hpart hdir hmatches hvisible _ ih =>
      refine remembered_behind ⟨base, name, true, base.position ++ [name]⟩ hpart ?_
        (ih fun h => hstars (List.mem_cons_of_mem _ h))
      exact mem_entryList_iff.mpr (Or.inr ⟨(hsame _ _).mpr hdir, hmatches,
        hvisible.imp_left hiddenFilter_directory_iff.mpr, fun _ => rfl, rfl, rfl⟩)
  | @dot _ _ _ base _ _ ih =>
      refine remembered_behind ⟨base, ['.'], true, base.position⟩ (by decide) ?_
        (ih fun h => hstars (List.mem_cons_of_mem _ h))
      exact mem_entryList_iff.mpr (Or.inl (mem_dotEntries_iff.mpr (Or.inl ⟨rfl, rfl⟩)))
  | @dotDot _ _ _ base _ _ ih =>
      refine remembered_behind ⟨base, Qbs.dotDot, true, base.position.dropLast⟩ (by decide) ?_
        (ih fun h => hstars (List.mem_cons_of_mem _ h))
      exact mem_entryList_iff.mpr (Or.inl (mem_dotEntries_iff.mpr (Or.inr ⟨rfl, rfl⟩)))
  | noDirectory => exact absurd List.mem_cons_self hstars
  | someDirectory => exact absurd List.mem_cons_self hstars
  | allFiles => exact absurd List.mem_cons_self hstars

variable {homePath groupPrefix : PathText} {patterns : List PathText}

theorem Reaches.entry (h : Reaches fs matchesName homePath groupPrefix patterns base parent n) :
    (n, false) ∈ fs.entries parent.position := by
  rcases h with ⟨pattern, -, hway⟩
  exact hway.entry

theorem Reaches.isName (h : Reaches fs matchesName homePath groupPrefix patterns base parent n) :
    IsName n :=
  fs.isName _ _ h.entry

theorem Reaches.proper (h : Reaches fs matchesName homePath groupPrefix patterns base parent n)
    (hbase : base.Proper) : parent.Proper := by
  rcases h with ⟨pattern, -, hway⟩
  refine hway.proper ?_
  unfold startPlace
  split_ifs
  · exact proper_placeOf ⟨[], FileInfo.CleanPath.names_nil⟩
  · exact hbase

theorem Reaches.transfer (hsame : fs.SameDirectories fs')
    (h : Reaches fs matchesName homePath groupPrefix patterns base parent n)
    (hentry : (n, false) ∈ fs'.entries parent.position) :
    Reaches fs' matchesName homePath groupPrefix patterns base parent n := by
  rcases h with ⟨pattern, hpattern, hway⟩
  exact ⟨pattern, hpattern, hway.transfer hsame hentry⟩

end Ways

/-! ## Noticed changes -/

section Changes

/-- Files have been created, deleted or renamed, which makes their directories newer. -/
structure LaterChange (before now : Snapshot) : Prop where
  directories : before.tree.SameDirectories now.tree
  grows : ∀ dir, before.lastModified dir ≤ now.lastModified dir
  newer : ∀ dir name, ¬ ((name, false) ∈ before.tree.entries dir ↔
    (name, false) ∈ now.tree.entries dir) → before.time < now.lastModified dir

variable (matchesName : PathText → PathText → Bool) (buildDir homePath : PathText)
  (wildcards : Wildcards) (baseDir : Place) (before : Snapshot)

/-- If the patterns expand to other files now, a stored directory has become newer. -/
def ChangesNoticed : Prop :=
  ∀ now, LaterChange before now →
    sameFiles (expandPatterns now.tree matchesName buildDir homePath wildcards baseDir)
      (stored matchesName buildDir homePath before wildcards baseDir).files = false →
    reExpansionRequired now (stored matchesName buildDir homePath before wildcards baseDir) = true

/-- A directory is remembered for one of the patterns or exclude patterns. -/
def IsRemembered (dir timeStampOf : Place) : Prop :=
  ∃ pattern ∈ (wildcards.patterns ++ wildcards.excludePatterns).map
      (fullPattern homePath wildcards.groupPrefix),
    Remembered before.tree matchesName (stepsOf (components pattern))
        (startPlace pattern baseDir) dir timeStampOf ∧
      ¬ buildDir <+: dir.text

/-- A directory is newer than the one with whose time stamp it is remembered. -/
def ExpandedAlways : Prop :=
  ∃ dir timeStampOf,
    IsRemembered matchesName buildDir homePath wildcards baseDir before dir timeStampOf ∧
      before.lastModified timeStampOf.position < before.lastModified dir.position

/-- The directories in which a new file would be one of the files of the group are remembered. -/
def NewFilesCovered : Prop :=
  ∀ (dir : Place) (name : PathText) (hname : IsName name)
    (hnew : ∀ isDir, (name, isDir) ∉ before.tree.entries dir.position),
    let tree := before.tree.withFile dir.position name hname hnew
    Reaches tree matchesName homePath wildcards.groupPrefix wildcards.patterns baseDir dir name →
    ¬ buildDir <+: dir.text →
    ¬ IsKept tree matchesName homePath buildDir wildcards.groupPrefix wildcards.excludePatterns
      baseDir (cleanPath (entryPath dir.text name)) →
    ∃ dir' timeStampOf,
      IsRemembered matchesName buildDir homePath wildcards baseDir before dir' timeStampOf ∧
        dir'.position = dir.position

variable {matchesName buildDir homePath wildcards baseDir before}

theorem mem_dirTimeStamps_iff {pair : Place × Nat} :
    pair ∈ dirTimeStamps matchesName buildDir homePath before wildcards baseDir ↔
      ∃ timeStampOf,
        IsRemembered matchesName buildDir homePath wildcards baseDir before pair.1 timeStampOf ∧
          pair.2 = before.lastModified timeStampOf.position := by
  have hstamp (found : List Found) :
      pair ∈ found.filterMap (Found.stamp? before.lastModified) ↔
        ∃ timeStampOf, .directory pair.1 timeStampOf ∈ found ∧
          pair.2 = before.lastModified timeStampOf.position := by
    rw [List.mem_filterMap]
    constructor
    · rintro ⟨f, hf, h⟩
      cases f with
      | directory dir timeStampOf =>
          cases h
          exact ⟨timeStampOf, hf, rfl⟩
      | file path => cases h
    · rintro ⟨timeStampOf, hf, h⟩
      exact ⟨_, hf, congrArg some (Prod.ext rfl h.symm)⟩
  unfold dirTimeStamps IsRemembered
  rw [hstamp]
  refine exists_congr fun timeStampOf => and_congr_left fun _ => ?_
  unfold expandList
  rw [← List.flatMap_append, List.mem_flatMap]
  simp only [directory_mem_expandSteps_iff, List.mem_map, exists_exists_and_eq_and]

variable {patterns : List PathText} {n path : PathText} {now : Snapshot}

theorem reExpansionRequired_iff :
    reExpansionRequired now (stored matchesName buildDir homePath before wildcards baseDir) = true ↔
      ∃ dir timeStampOf,
        IsRemembered matchesName buildDir homePath wildcards baseDir before dir timeStampOf ∧
          before.lastModified timeStampOf.position < now.lastModified dir.position := by
  unfold reExpansionRequired stored
  rw [List.any_eq_true]
  constructor
  · rintro ⟨pair, hpair, h⟩
    rcases mem_dirTimeStamps_iff.mp hpair with ⟨timeStampOf, hremembered, htime⟩
    rw [decide_eq_true_iff, htime] at h
    exact ⟨pair.1, timeStampOf, hremembered, h⟩
  · rintro ⟨dir, timeStampOf, hremembered, h⟩
    exact ⟨(dir, _), mem_dirTimeStamps_iff.mpr ⟨timeStampOf, hremembered, rfl⟩,
      decide_eq_true h⟩

/-- A change in a directory that is remembered is noticed. -/
theorem noticed_of_changed {now : Snapshot} (hlater : LaterChange before now)
    {dir timeStampOf : Place}
    (hremembered :
      IsRemembered matchesName buildDir homePath wildcards baseDir before dir timeStampOf)
    {name : PathText} (hchanged : ¬ ((name, false) ∈ before.tree.entries dir.position ↔
      (name, false) ∈ now.tree.entries dir.position)) :
    reExpansionRequired now (stored matchesName buildDir homePath before wildcards baseDir) =
      true :=
  reExpansionRequired_iff.mpr ⟨dir, timeStampOf, hremembered,
    Nat.lt_of_le_of_lt (before.lastModified_le _) (hlater.newer _ _ hchanged)⟩

/-- That a file is gone is noticed. -/
theorem noticed_of_gone {now : Snapshot} (hlater : LaterChange before now)
    {patterns : List PathText}
    (hpatterns : patterns ⊆ wildcards.patterns ++ wildcards.excludePatterns)
    {path : PathText}
    (hkept : IsKept before.tree matchesName homePath buildDir wildcards.groupPrefix patterns baseDir
      path)
    (hgone : ¬ IsKept now.tree matchesName homePath buildDir wildcards.groupPrefix patterns baseDir
      path) :
    reExpansionRequired now (stored matchesName buildDir homePath before wildcards baseDir) =
      true := by
  rcases hkept with ⟨parent, n, hreaches, hbuild, hpath⟩
  have hnow : (n, false) ∉ now.tree.entries parent.position := fun hentry =>
    hgone ⟨parent, n, hreaches.transfer hlater.directories hentry, hbuild, hpath⟩
  have hentry := hreaches.entry
  rcases hreaches with ⟨pattern, hpattern, hway⟩
  rcases (leads_stepsOf_iff.mpr hway).remembered with ⟨timeStampOf, hremembered⟩
  exact noticed_of_changed hlater
    ⟨pattern, List.map_subset _ hpatterns hpattern, hremembered, hbuild⟩
    fun hiff => hnow (hiff.mp hentry)

/-- Only one file has the path. -/
theorem entry_of_isKept {fs : FileSystem} {parent : Place} (hbase : baseDir.Proper)
    (hparent : parent.Proper) (hn : IsName n)
    (hkept : IsKept fs matchesName homePath buildDir wildcards.groupPrefix patterns baseDir path)
    (hpath : path = cleanPath (entryPath parent.text n)) :
    (n, false) ∈ fs.entries parent.position := by
  rcases hkept with ⟨parent', n', hreaches, -, hpath'⟩
  rcases eq_of_cleanPath_entryPath (hreaches.proper hbase) hparent hreaches.isName hn
    (hpath'.symm.trans hpath) with ⟨hposition, rfl⟩
  exact hposition ▸ hreaches.entry

/-- Whether a path belongs to some patterns depends on the directories and on the file. -/
theorem IsKept.transfer {fs fs' : FileSystem} {parent : Place} (hbase : baseDir.Proper)
    (hparent : parent.Proper) (hn : IsName n) (hsame : fs.SameDirectories fs')
    (hkept : IsKept fs matchesName homePath buildDir wildcards.groupPrefix patterns baseDir path)
    (hpath : path = cleanPath (entryPath parent.text n))
    (hentry : (n, false) ∈ fs'.entries parent.position) :
    IsKept fs' matchesName homePath buildDir wildcards.groupPrefix patterns baseDir path := by
  rcases hkept with ⟨parent', n', hreaches, hbuild, hpath'⟩
  rcases eq_of_cleanPath_entryPath (hreaches.proper hbase) hparent hreaches.isName hn
    (hpath'.symm.trans hpath) with ⟨hposition, rfl⟩
  exact ⟨parent', n', hreaches.transfer hsame (hposition ▸ hentry), hbuild, hpath'⟩

/-- If new files are covered, other files than before are noticed. -/
theorem noticed_of_newFilesCovered {now : Snapshot} (hbase : baseDir.Proper)
    (hcovered : NewFilesCovered matchesName buildDir homePath wildcards baseDir before)
    (hlater : LaterChange before now) {path : PathText}
    (hpath : ¬ (path ∈ expandPatterns now.tree matchesName buildDir homePath wildcards baseDir ↔
      path ∈ expandPatterns before.tree matchesName buildDir homePath wildcards baseDir)) :
    reExpansionRequired now (stored matchesName buildDir homePath before wildcards baseDir) =
      true := by
  rw [mem_expandPatterns_iff, mem_expandPatterns_iff] at hpath
  by_contra hnot
  have hpatterns {path : PathText}
      (hkept : IsKept before.tree matchesName homePath buildDir wildcards.groupPrefix
        wildcards.patterns baseDir path) :
      IsKept now.tree matchesName homePath buildDir wildcards.groupPrefix wildcards.patterns
        baseDir path := by
    by_contra hgone
    exact hnot (noticed_of_gone hlater (List.subset_append_left _ _) hkept hgone)
  have hexclude {path : PathText}
      (hkept : IsKept before.tree matchesName homePath buildDir wildcards.groupPrefix
        wildcards.excludePatterns baseDir path) :
      IsKept now.tree matchesName homePath buildDir wildcards.groupPrefix
        wildcards.excludePatterns baseDir path := by
    by_contra hgone
    exact hnot (noticed_of_gone hlater (List.subset_append_right _ _) hkept hgone)
  refine hpath ⟨fun ⟨hkept, hfree⟩ => ⟨?_, fun h => hfree (hexclude h)⟩,
    fun ⟨hkept, hfree⟩ => ⟨hpatterns hkept, fun h => hfree ?_⟩⟩
  · -- The file belongs to the patterns now. If it did not before, it is new.
    rcases hkept with ⟨parent, n, hreaches, hbuild, rfl⟩
    have hparent := hreaches.proper hbase
    have hn := hreaches.isName
    by_cases hentry : (n, false) ∈ before.tree.entries parent.position
    · exact ⟨parent, n, hreaches.transfer hlater.directories.symm hentry, hbuild, rfl⟩
    · have hnew : ∀ isDir, (n, isDir) ∉ before.tree.entries parent.position := by
        intro isDir
        cases isDir with
        | true => exact fun h =>
            FileSystem.notMem_of_mem ((hlater.directories _ _).mp h) hreaches.entry
        | false => exact hentry
      have hsame : now.tree.SameDirectories (before.tree.withFile parent.position n hn hnew) :=
        hlater.directories.symm.trans (FileSystem.sameDirectories_withFile hn hnew)
      have hcreated := hreaches.transfer hsame
        (FileSystem.mem_withFile_iff.mpr (Or.inr ⟨rfl, rfl⟩))
      rcases hcovered parent n hn hnew hcreated hbuild (fun hexcluded => hfree
        (hexcluded.transfer hbase hparent hn hsame.symm rfl hreaches.entry)) with
        ⟨dir, timeStampOf, hremembered, hposition⟩
      have hchanged : ¬ ((n, false) ∈ before.tree.entries dir.position ↔
          (n, false) ∈ now.tree.entries dir.position) := by
        rw [hposition]
        exact fun hiff => hentry (hiff.mpr hreaches.entry)
      exact absurd (noticed_of_changed hlater hremembered hchanged) hnot
  · -- The file is still there, so it was excluded before if it is excluded now.
    rcases hkept with ⟨parent, n, hreaches, hbuild, hpath⟩
    exact h.transfer hbase (hreaches.proper hbase) hreaches.isName hlater.directories.symm hpath
      hreaches.entry

/-- If new files are not covered, one can be created such that nothing is noticed. -/
theorem newFilesCovered_of_noticed (hbase : baseDir.Proper)
    (hnoticed : ChangesNoticed matchesName buildDir homePath wildcards baseDir before)
    (hstamps : ¬ ExpandedAlways matchesName buildDir homePath wildcards baseDir before) :
    NewFilesCovered matchesName buildDir homePath wildcards baseDir before := by
  intro dir name hname hnew tree hreaches hbuild hexcluded
  by_contra hnot
  let now : Snapshot := {
    tree := tree
    time := before.time + 1
    lastModified := fun d => if d = dir.position then before.time + 1 else before.lastModified d
    lastModified_le := fun d => by
      split_ifs
      · exact Nat.le_refl _
      · exact Nat.le_succ_of_le (before.lastModified_le d) }
  have hlater : LaterChange before now := by
    refine ⟨FileSystem.sameDirectories_withFile hname hnew, fun d => ?_,
      fun d other hchanged => ?_⟩
    · show _ ≤ if d = dir.position then before.time + 1 else before.lastModified d
      split_ifs
      · exact Nat.le_succ_of_le (before.lastModified_le d)
      · exact Nat.le_refl _
    · show _ < if d = dir.position then before.time + 1 else before.lastModified d
      rw [if_pos]
      · exact Nat.lt_succ_self _
      · by_contra hd
        have hiff : (other, false) ∈ tree.entries d ↔ (other, false) ∈ before.tree.entries d :=
          FileSystem.mem_withFile_iff.trans (or_iff_left fun h => hd h.1)
        exact hchanged hiff.symm
  have hdiffers : sameFiles
      (expandPatterns now.tree matchesName buildDir homePath wildcards baseDir)
      (stored matchesName buildDir homePath before wildcards baseDir).files = false := by
    rw [Bool.eq_false_iff]
    intro hsame
    have hpath := (sameFiles_iff.mp hsame (cleanPath (entryPath dir.text name))).mp
      (mem_expandPatterns_iff.mpr ⟨⟨dir, name, hreaches, hbuild, rfl⟩, hexcluded⟩)
    exact hnew false (entry_of_isKept hbase (hreaches.proper hbase) hname
      (mem_expandPatterns_iff.mp hpath).1 rfl)
  rcases reExpansionRequired_iff.mp (hnoticed now hlater hdiffers) with
    ⟨d, timeStampOf, hremembered, htime⟩
  refine hstamps ⟨d, timeStampOf, hremembered, ?_⟩
  have hunchanged : now.lastModified d.position = before.lastModified d.position :=
    if_neg fun h => hnot ⟨d, timeStampOf, hremembered, h⟩
  rwa [hunchanged] at htime

end Changes

/-- All later changes of files that matter are noticed exactly if a directory is stored with a time
stamp that is too old anyway, or if all directories are stored in which a new file would be one of
the files of the group. Without double stars, they are. What is noticed is reported. -/
theorem changesNoticed_iff (matchesName : PathText → PathText → Bool)
    (buildDir homePath : PathText) (wildcards : Wildcards) (dir : FileInfo.CleanPath)
    (before : Snapshot) :
    (ChangesNoticed matchesName buildDir homePath wildcards (placeOf dir) before ↔
      ExpandedAlways matchesName buildDir homePath wildcards (placeOf dir) before ∨
        NewFilesCovered matchesName buildDir homePath wildcards (placeOf dir) before) ∧
    ((∀ pattern ∈ wildcards.patterns.map (fullPattern homePath wildcards.groupPrefix),
        doubleStar ∉ components pattern) →
      ChangesNoticed matchesName buildDir homePath wildcards (placeOf dir) before) ∧
    ∀ (fileExists : PathText → Bool) (referenceTime : Nat) (now : Snapshot)
      (products : List BuildGraphLoader.RestoredProduct), ∀ product ∈ products,
      ∀ group ∈ product.groups, reExpansionRequired now group = true →
      sameFiles (expandPatterns now.tree matchesName buildDir homePath group.wildcards
        group.baseDir) group.files = false →
      BuildGraphLoader.hasProductFileChanged matchesName buildDir homePath fileExists
        referenceTime now products = true := by
  have hbase := proper_placeOf dir
  have hcovers (hcovered : NewFilesCovered matchesName buildDir homePath wildcards (placeOf dir)
      before) : ChangesNoticed matchesName buildDir homePath wildcards (placeOf dir) before := by
    intro now hlater hdiffers
    by_contra hnot
    refine Bool.eq_false_iff.mp hdiffers (sameFiles_iff.mpr fun path => ?_)
    by_contra hpath
    exact hnot (noticed_of_newFilesCovered hbase hcovered hlater hpath)
  refine ⟨⟨fun hnoticed => ?_, ?_⟩, fun hstars => hcovers ?_, ?_⟩
  · exact or_iff_not_imp_left.mpr (newFilesCovered_of_noticed hbase hnoticed)
  · rintro (⟨d, timeStampOf, hremembered, htime⟩ | hcovered)
    · exact fun now hlater _ => reExpansionRequired_iff.mpr
        ⟨d, timeStampOf, hremembered, Nat.lt_of_lt_of_le htime (hlater.grows _)⟩
    · exact hcovers hcovered
  · rintro d name hname hnew tree ⟨pattern, hpattern, hway⟩ hbuild -
    exact ⟨d, d, ⟨pattern, List.map_subset _ (List.subset_append_left _ _) hpattern,
      hway.searched (FileSystem.sameDirectories_withFile hname hnew) (hstars pattern hpattern),
      hbuild⟩, rfl⟩
  · intro fileExists referenceTime now products product hproduct group hgroup hrequired hdiffers
    refine BuildGraphLoader.hasProductFileChanged_iff.mpr
      ⟨product, hproduct, Or.inr (Or.inr ⟨group, hgroup, ?_⟩)⟩
    unfold hasGroupChanged
    rw [hrequired, hdiffers]
    rfl

/-! ## A sample -/

/-- The project directory has one for sources, in which there is nothing yet. -/
def emptySources : Snapshot where
  tree := FileSystem.ofList [([], [("sources".toList, true)])] (by decide)
  time := 1
  lastModified _ := 1
  lastModified_le _ := Nat.le_refl 1

theorem changesNoticed_iff_emptySources :
    (∀ pattern ∈ ["sources/*".toList].map (fullPattern [] []), doubleStar ∉ components pattern) ∧
      ChangesNoticed sampleMatches sampleBuildDir.text [] ⟨[], ["sources/*".toList], []⟩
        (placeOf sampleProject) emptySources := by
  have hstars : ∀ pattern ∈ ["sources/*".toList].map (fullPattern [] []),
      doubleStar ∉ components pattern := by
    decide
  exact ⟨hstars, (changesNoticed_iff sampleMatches sampleBuildDir.text []
    ⟨[], ["sources/*".toList], []⟩ sampleProject emptySources).2.1 hstars⟩

/-- A file that is created in the directory for sources is not noticed. -/
theorem not_changesNoticed_emptySources :
    ¬ ChangesNoticed sampleMatches sampleBuildDir.text [] ⟨[], ["**/x.cpp".toList], []⟩
      (placeOf sampleProject) emptySources := by
  intro hnoticed
  have hcovered := newFilesCovered_of_noticed (proper_placeOf sampleProject) hnoticed
    fun ⟨_, _, _, hlt⟩ => Nat.lt_irrefl 1 hlt
  let dir : Place := ⟨"/sources".toList, ["sources".toList]⟩
  have hname : IsName "x.cpp".toList := by decide
  have hnew : ∀ isDir, ("x.cpp".toList, isDir) ∉ emptySources.tree.entries dir.position := by
    decide
  let tree := emptySources.tree.withFile dir.position "x.cpp".toList hname hnew
  have hdir : ("sources".toList, true) ∈ tree.entries [] :=
    FileSystem.mem_withFile_iff.mpr (Or.inl (by decide))
  have hfile : ("x.cpp".toList, false) ∈ tree.entries ["sources".toList] :=
    FileSystem.mem_withFile_iff.mpr (Or.inr ⟨rfl, rfl⟩)
  have hway : Way tree sampleMatches [doubleStar, "x.cpp".toList] (placeOf sampleProject) dir
      "x.cpp".toList :=
    Way.someDirectory hdir (by decide)
      (Way.noDirectory (Way.file (by decide) hfile (by decide) (by decide)))
  rcases hcovered dir "x.cpp".toList hname hnew ⟨_, List.mem_singleton_self _, hway⟩ (by decide)
    (by
      rintro ⟨_, _, ⟨_, hpattern, _⟩, _⟩
      cases hpattern) with
    ⟨d, timeStampOf, ⟨pattern, hpattern, hremembered, hbuild⟩, hposition⟩
  cases List.mem_singleton.mp hpattern
  have hmem := directory_mem_expandSteps_iff.mpr ⟨hremembered, hbuild⟩
  have honly : expandSteps emptySources.tree sampleMatches sampleBuildDir.text
      (stepsOf (components (fullPattern [] [] "**/x.cpp".toList))) (placeOf sampleProject) =
      [.directory (placeOf sampleProject) (placeOf sampleProject)] := by
    decide
  rw [show startPlace _ (placeOf sampleProject) = placeOf sampleProject from rfl, honly] at hmem
  cases List.mem_singleton.mp hmem
  cases hposition

end SourceWildCards

end Qbs
