import Mathlib.Data.Finset.Card
import QbsCore.Tools.FileTree

/-!
# Removing empty directories

After artifacts were removed, the directories that they were in are removed if they are
empty, and so are the directories above them.  Deep directories come first.  The boundary is
the build directory, with the text of which the paths of the directories have to begin.

Main results:

- Theorem {lit}`EmptyDirectoriesRemover.mem_dirs_removed`: which directories get removed.
- Theorem {lit}`EmptyDirectoriesRemover.removes_emptied_iff`: when these are the ones that were
  emptied inside of the build directory.

Current gaps:

- Directories that cannot be removed for other reasons than what is in them are left out.
-/

namespace Qbs

open FileInfo

/-- The remover with its work list, the directories that it was at, and the warnings. -/
structure EmptyDirectoriesRemover where
  dirsToRemove : List CleanPath
  handledDirs : List CleanPath
  tree : FileTree
  warnings : List PathText

namespace EmptyDirectoriesRemover

def slashes (dirPath : CleanPath) : Nat :=
  dirPath.text.count '/'

/-- The list is sorted so that deeper directories come first. -/
def insertSorted (dirPath : CleanPath) : List CleanPath → List CleanPath
  | [] => [dirPath]
  | cur :: dirs =>
      if dirPath = cur then cur :: dirs
      else if slashes dirPath > slashes cur then dirPath :: cur :: dirs
      else cur :: insertSorted dirPath dirs

/-- The entries that are counted; hidden files are not. -/
def visibleEntries (tree : FileTree) (dirPath : CleanPath) : Finset CleanPath :=
  (tree.entries dirPath).filter fun entry => (entry.segments.getLastD []).head? ≠ some '.'

def cannotRemoveWarning (dirPath : CleanPath) : PathText :=
  "Cannot remove empty directory '".toList ++ dirPath.text ++ "'.".toList

/-- Look at the first directory in the work list. Its parent directory is next, if it was removed. -/
def removeDirIfEmpty (buildDirectory : CleanPath) (r : EmptyDirectoriesRemover) :
    EmptyDirectoriesRemover :=
  match r.dirsToRemove with
  | [] => r
  | dirPath :: dirs =>
      let r := { r with dirsToRemove := dirs, handledDirs := dirPath :: r.handledDirs }
      if !r.tree.fileExists dirPath || !buildDirectory.text.isPrefixOf dirPath.text ||
          decide (dirPath = buildDirectory) then r
      else if visibleEntries r.tree dirPath ≠ ∅ then r
      else
        match r.tree.rmdir dirPath with
        | none => { r with warnings := r.warnings ++ [cannotRemoveWarning dirPath] }
        | some tree =>
            if dirPath.parent ∈ r.handledDirs then { r with tree := tree }
            else
              { r with
                tree := tree
                dirsToRemove := insertSorted dirPath.parent dirs }

/-- Go on until the work list is empty. The loop is cut off by fuel. -/
def run (buildDirectory : CleanPath) : Nat → EmptyDirectoriesRemover → EmptyDirectoriesRemover
  | 0, r => r
  | fuel + 1, r =>
      if r.dirsToRemove = [] then r
      else run buildDirectory fuel (removeDirIfEmpty buildDirectory r)

/-- The work list at the beginning: the directories of the files. -/
def startDirs (artifactFilePaths : List CleanPath) : List CleanPath :=
  artifactFilePaths.foldl (fun dirs filePath => insertSorted filePath.parent dirs) []

/-- The remover at the beginning. -/
def start (tree : FileTree) (artifactFilePaths : List CleanPath) : EmptyDirectoriesRemover where
  dirsToRemove := startDirs artifactFilePaths
  handledDirs := []
  tree := tree
  warnings := []

/-- Remove the directories of some files and the ones above if they are empty. Each directory is
removed once and each removed one puts one more into the list, so that the fuel is enough. -/
def removeEmptyParentDirectories (buildDirectory : CleanPath) (tree : FileTree)
    (artifactFilePaths : List CleanPath) : EmptyDirectoriesRemover :=
  run buildDirectory (tree.dirs.card + artifactFilePaths.length) (start tree artifactFilePaths)

/-! ## What gets removed -/

/-- The directories that get removed: those that contain nothing but directories that get removed,
if they contain any or belong to one of the files. -/
inductive Removed (buildDirectory : CleanPath) (tree : FileTree) (starts : List CleanPath) :
    CleanPath → Prop
  | intro (d : CleanPath) (hdir : d ∈ tree.dirs)
      (hbegins : buildDirectory.text <+: d.text) (hne : d ≠ buildDirectory)
      (hfiles : ∀ node, node ∈ tree.files → ¬node.IsEntryOf d)
      (hdirs : ∀ node, node ∈ tree.dirs → node.IsEntryOf d →
        Removed buildDirectory tree starts node)
      (hreached : d ∈ starts ∨ ∃ node, node ∈ tree.dirs ∧ node.IsEntryOf d) :
      Removed buildDirectory tree starts d

/-- The directories that are emptied: those strictly inside of the build directory on the way to one
of the files that contain nothing but directories that are emptied. -/
inductive Emptied (buildDirectory : CleanPath) (tree : FileTree) (starts : List CleanPath) :
    CleanPath → Prop
  | intro (d : CleanPath) (hdir : d ∈ tree.dirs) (hinside : d.IsBelow buildDirectory)
      (hne : d ≠ buildDirectory) (hancestor : ∃ s, s ∈ starts ∧ s.IsBelow d)
      (hfiles : ∀ node, node ∈ tree.files → ¬node.IsEntryOf d)
      (hdirs : ∀ node, node ∈ tree.dirs → node.IsEntryOf d →
        Emptied buildDirectory tree starts node) :
      Emptied buildDirectory tree starts d

/-- The directories of some files. -/
def directories (artifactFilePaths : List CleanPath) : List CleanPath :=
  artifactFilePaths.map CleanPath.parent

/-- A call ends, and removes just the directories that are emptied. -/
structure RemovesEmptied (buildDirectory : CleanPath) (tree : FileTree)
    (artifactFilePaths : List CleanPath) : Prop where
  ends : (removeEmptyParentDirectories buildDirectory tree artifactFilePaths).dirsToRemove = []
  files : (removeEmptyParentDirectories buildDirectory tree artifactFilePaths).tree.files =
    tree.files
  dirs : ∀ d, d ∈ (removeEmptyParentDirectories buildDirectory tree artifactFilePaths).tree.dirs ↔
    d ∈ tree.dirs ∧ ¬Emptied buildDirectory tree (directories artifactFilePaths) d

/-! ## The work list -/

variable {buildDirectory d node : CleanPath} {tree : FileTree} {starts : List CleanPath}

theorem mem_insertSorted {l : List CleanPath} : node ∈ insertSorted d l ↔ node = d ∨ node ∈ l := by
  induction l with
  | nil => simp [insertSorted]
  | cons cur dirs ih =>
      unfold insertSorted
      split
      · rename_i heq
        simp [heq]
      · split
        · simp
        · simp only [List.mem_cons, ih]
          tauto

theorem length_insertSorted_le (d : CleanPath) (l : List CleanPath) :
    (insertSorted d l).length ≤ l.length + 1 := by
  induction l with
  | nil => simp [insertSorted]
  | cons cur dirs ih =>
      unfold insertSorted
      split
      · simp
      · split
        · simp
        · simpa using ih

/-- Deeper directories come first. -/
def DeepestFirst (l : List CleanPath) : Prop :=
  l.Pairwise fun a b => slashes b ≤ slashes a

theorem DeepestFirst.insertSorted {l : List CleanPath} (h : DeepestFirst l) :
    DeepestFirst (insertSorted d l) := by
  induction l with
  | nil => simp [EmptyDirectoriesRemover.insertSorted, DeepestFirst]
  | cons cur dirs ih =>
      unfold EmptyDirectoriesRemover.insertSorted
      rcases List.pairwise_cons.mp h with ⟨hcur, hdirs⟩
      split
      · exact h
      · split
        · rename_i hlt
          refine List.pairwise_cons.mpr ⟨?_, h⟩
          intro b hb
          rcases List.mem_cons.mp hb with heq | hb
          · rw [heq]
            omega
          · have hle := hcur b hb
            omega
        · rename_i hle
          refine List.pairwise_cons.mpr ⟨?_, ih hdirs⟩
          intro b hb
          rcases mem_insertSorted.mp hb with heq | hb
          · rw [heq]
            omega
          · exact hcur b hb

theorem startDirs_spec (artifactFilePaths : List CleanPath) :
    DeepestFirst (startDirs artifactFilePaths) ∧
      (startDirs artifactFilePaths).length ≤ artifactFilePaths.length ∧
        ∀ d, d ∈ startDirs artifactFilePaths ↔ d ∈ directories artifactFilePaths := by
  unfold startDirs directories
  induction artifactFilePaths using List.reverseRecOn with
  | nil => simp [DeepestFirst]
  | append_singleton filePaths filePath ih =>
      rcases ih with ⟨hsorted, hlength, hmem⟩
      rw [List.foldl_append, List.foldl_cons, List.foldl_nil]
      refine ⟨hsorted.insertSorted, ?_, ?_⟩
      · have hle := length_insertSorted_le filePath.parent
          (filePaths.foldl (fun dirs filePath => insertSorted filePath.parent dirs) [])
        rw [List.length_append, List.length_singleton]
        omega
      · intro d
        rw [mem_insertSorted, hmem, List.map_append, List.mem_append]
        simp [or_comm]

/-! ## How deep directories are -/

theorem slashes_eq (h : d ≠ CleanPath.root) : slashes d = d.segments.length := by
  have hcount : ∀ segments : List PathText, Segments.Separated '/' segments →
      (Segments.joined '/' segments).count '/' = segments.length := by
    intro segments hseparated
    induction segments with
    | nil => simp
    | cons s segments ih =>
        rw [Segments.joined_cons, List.count_cons_self, List.count_append,
          List.count_eq_zero_of_not_mem (hseparated s (by simp)), ih hseparated.cons.2]
        simp
  rw [Ne, CleanPath.eq_root_iff] at h
  rw [slashes, CleanPath.text, pathOf, if_neg h, hcount _ d.separated]

/-- What is below a directory is at least as deep. -/
theorem slashes_le (hroot : d ≠ CleanPath.root) (h : node.IsBelow d) : slashes d ≤ slashes node := by
  have hlength := h.length_le
  have hnode : node ≠ CleanPath.root := by
    intro heq
    rw [heq] at h
    exact hroot (CleanPath.eq_root_iff.mpr (List.prefix_nil.mp h))
  rw [slashes_eq hroot, slashes_eq hnode]
  exact hlength

theorem slashes_lt (hroot : d ≠ CleanPath.root) (h : node.IsEntryOf d) :
    slashes d < slashes node := by
  rw [slashes_eq hroot, slashes_eq h.1, h.length_eq]
  omega

/-- The text of the root directory begins with no other one. -/
theorem ne_root_of_begins (hbegins : buildDirectory.text <+: d.text) (hne : d ≠ buildDirectory) :
    d ≠ CleanPath.root := by
  intro heq
  have hlength := hbegins.length_le
  rw [heq] at hbegins
  apply hne
  rw [heq]
  apply CleanPath.text_injective
  have hroot : CleanPath.root.text = ['/'] := by
    simp [CleanPath.text, CleanPath.root, pathOf]
  rw [hroot] at hbegins ⊢
  rcases hbegins with ⟨rest, hrest⟩
  cases hbuild : buildDirectory.text with
  | nil => exact absurd hbuild (pathOf_ne_nil _)
  | cons c text =>
      rw [hbuild] at hrest
      simp only [List.cons_append, List.cons.injEq, List.append_eq_nil_iff] at hrest
      rw [hrest.1, hrest.2.1]

/-! ## One step -/

theorem Removed.ne_root (h : Removed buildDirectory tree starts d) : d ≠ CleanPath.root := by
  cases h with
  | intro _ _ hbegins hne _ _ _ => exact ne_root_of_begins hbegins hne

theorem Removed.mem_dirs (h : Removed buildDirectory tree starts d) : d ∈ tree.dirs := by
  cases h with
  | intro _ hdir _ _ _ _ _ => exact hdir

/-- What is known of the remover while it runs. -/
structure Invariant (buildDirectory : CleanPath) (tree : FileTree) (starts : List CleanPath)
    (r : EmptyDirectoriesRemover) : Prop where
  sorted : DeepestFirst r.dirsToRemove
  files : r.tree.files = tree.files
  dirs : ∀ d, d ∈ r.tree.dirs ↔
    d ∈ tree.dirs ∧ ¬(d ∈ r.handledDirs ∧ Removed buildDirectory tree starts d)
  covered : ∀ d, d ∈ starts → d ∈ r.dirsToRemove ∨ d ∈ r.handledDirs
  parents : ∀ d, d ∈ r.handledDirs → Removed buildDirectory tree starts d →
    d.parent ∈ r.dirsToRemove ∨ d.parent ∈ r.handledDirs
  reached : ∀ d, d ∈ r.dirsToRemove → d ∈ starts ∨ ∃ node, node ∈ tree.dirs ∧ node.IsEntryOf d

/-- Can be removed right now. -/
structure Removable (buildDirectory : CleanPath) (tree : FileTree) (d : CleanPath) : Prop where
  mem_dirs : d ∈ tree.dirs
  begins : buildDirectory.text <+: d.text
  ne : d ≠ buildDirectory
  entries : tree.entries d = ∅

variable {r : EmptyDirectoriesRemover} {dirs : List CleanPath}

/-- What one step does. -/
theorem removeDirIfEmpty_cases (buildDirectory : CleanPath) (h : r.dirsToRemove = d :: dirs) :
    (removeDirIfEmpty buildDirectory r).handledDirs = d :: r.handledDirs ∧
      ((∃ tree, Removable buildDirectory r.tree d ∧ r.tree.rmdir d = some tree ∧
          (removeDirIfEmpty buildDirectory r).tree = tree ∧
          (d.parent ∈ d :: r.handledDirs ∧
              (removeDirIfEmpty buildDirectory r).dirsToRemove = dirs ∨
            (removeDirIfEmpty buildDirectory r).dirsToRemove = insertSorted d.parent dirs)) ∨
        ¬Removable buildDirectory r.tree d ∧ (removeDirIfEmpty buildDirectory r).tree = r.tree ∧
          (removeDirIfEmpty buildDirectory r).dirsToRemove = dirs) := by
  have hvisible : r.tree.entries d = ∅ → visibleEntries r.tree d = ∅ := by
    intro hempty
    simp [visibleEntries, hempty]
  unfold removeDirIfEmpty
  simp only [h]
  split
  · rename_i hskip
    refine ⟨rfl, Or.inr ⟨?_, rfl, rfl⟩⟩
    intro hremovable
    simp [FileTree.fileExists, hremovable.mem_dirs,
      List.isPrefixOf_iff_prefix.mpr hremovable.begins, hremovable.ne] at hskip
  · rename_i hskip
    simp only [Bool.or_eq_true, Bool.not_eq_true', decide_eq_true_eq, not_or,
      Bool.not_eq_false, List.isPrefixOf_iff_prefix] at hskip
    split
    · rename_i hfull
      refine ⟨rfl, Or.inr ⟨?_, rfl, rfl⟩⟩
      intro hremovable
      exact hfull (hvisible hremovable.entries)
    · split
      · rename_i hrmdir
        refine ⟨rfl, Or.inr ⟨?_, rfl, rfl⟩⟩
        intro hremovable
        rcases FileTree.rmdir_ne_none hremovable.mem_dirs hremovable.entries
          (ne_root_of_begins hremovable.begins hremovable.ne) with ⟨tree, htree⟩
        rw [hrmdir] at htree
        simp at htree
      · rename_i tree hrmdir
        rcases FileTree.rmdir_eq_some hrmdir with ⟨⟨hdir, hempty, -⟩, -, -⟩
        have hremovable : Removable buildDirectory r.tree d :=
          ⟨hdir, hskip.1.2, hskip.2, hempty⟩
        split
        · rename_i hparent
          exact ⟨rfl, Or.inl ⟨tree, hremovable, hrmdir, rfl, Or.inl ⟨hparent, rfl⟩⟩⟩
        · exact ⟨rfl, Or.inl ⟨tree, hremovable, hrmdir, rfl, Or.inr rfl⟩⟩

/-! ## All steps -/

/-- The directories that are still to be removed are above something in the work list. -/
theorem Invariant.pending (h : Invariant buildDirectory tree starts r)
    (hremoved : Removed buildDirectory tree starts d) :
    d ∈ r.handledDirs ∨ ∃ e, e ∈ r.dirsToRemove ∧ e.IsBelow d := by
  have hin : ∀ c, c ∈ r.dirsToRemove ∨ c ∈ r.handledDirs →
      c ∈ r.handledDirs ∨ ∃ e, e ∈ r.dirsToRemove ∧ e.IsBelow c := by
    intro c hc
    rcases hc with hc | hc
    · exact Or.inr ⟨c, hc, CleanPath.isBelow_refl c⟩
    · exact Or.inl hc
  induction hremoved with
  | intro d hdir hbegins hne hfiles hdirs hreached ih =>
      rcases hreached with hstart | ⟨node, hnode, hentry⟩
      · exact hin d (h.covered d hstart)
      · rcases ih node hnode hentry with hhandled | ⟨e, he, hbelow⟩
        · have hparent := h.parents node hhandled (hdirs node hnode hentry)
          rw [hentry.2] at hparent
          exact hin d hparent
        · exact Or.inr ⟨e, he, hbelow.trans hentry.isBelow⟩

/-- The first directory in the work list is empty by now if it is one that gets removed, since what
is below it would come before it. -/
theorem Invariant.removable_iff (h : Invariant buildDirectory tree starts r)
    (hfirst : r.dirsToRemove = d :: dirs) :
    Removable buildDirectory r.tree d ↔
      Removed buildDirectory tree starts d ∧ d ∉ r.handledDirs := by
  constructor
  · intro hremovable
    have hdir := (h.dirs d).mp hremovable.mem_dirs
    have hentries : ∀ node, node.IsEntryOf d → node ∉ r.tree.dirs ∧ node ∉ r.tree.files := by
      intro node hentry
      have hnode : node ∉ r.tree.entries d := by
        rw [hremovable.entries]
        simp
      rw [FileTree.mem_entries] at hnode
      tauto
    have hremoved : Removed buildDirectory tree starts d := by
      refine Removed.intro d hdir.1 hremovable.begins hremovable.ne ?_ ?_ ?_
      · intro node hnode hentry
        rw [← h.files] at hnode
        exact (hentries node hentry).2 hnode
      · intro node hnode hentry
        have hgone := (hentries node hentry).1
        rw [h.dirs] at hgone
        tauto
      · exact h.reached d (by simp [hfirst])
    exact ⟨hremoved, fun hhandled => hdir.2 ⟨hhandled, hremoved⟩⟩
  · intro hd
    rcases hd with ⟨hremoved, hhandled⟩
    have hroot := hremoved.ne_root
    cases hremoved with
    | intro _ hdir hbegins hne hfiles hdirs _ =>
        refine ⟨(h.dirs d).mpr ⟨hdir, fun hd => hhandled hd.1⟩, hbegins, hne, ?_⟩
        rw [Finset.eq_empty_iff_forall_notMem]
        intro node hnode
        rcases FileTree.mem_entries.mp hnode with ⟨hdirOrFile, hentry⟩
        rcases hdirOrFile with hnode | hnode
        · rcases (h.dirs node).mp hnode with ⟨hnode, hkept⟩
          have hremoved := hdirs node hnode hentry
          rcases h.pending hremoved with hdone | ⟨e, he, hbelow⟩
          · exact hkept ⟨hdone, hremoved⟩
          · have hsorted := h.sorted
            rw [hfirst] at he hsorted
            have hle : slashes e ≤ slashes d := by
              rcases List.mem_cons.mp he with heq | he
              · rw [heq]
              · exact (List.pairwise_cons.mp hsorted).1 e he
            have hlt := slashes_lt hroot hentry
            have hle' := slashes_le hentry.1 hbelow
            omega
        · rw [h.files] at hnode
          exact hfiles node hnode hentry

theorem Invariant.step (h : Invariant buildDirectory tree starts r)
    (hfirst : r.dirsToRemove = d :: dirs) :
    Invariant buildDirectory tree starts (removeDirIfEmpty buildDirectory r) := by
  have hsorted : DeepestFirst dirs := by
    have hsorted := h.sorted
    rw [hfirst] at hsorted
    exact (List.pairwise_cons.mp hsorted).2
  have hiff := h.removable_iff hfirst
  have hcovered := h.covered
  have hparents := h.parents
  have hreached := h.reached
  rw [hfirst] at hcovered hparents hreached
  rcases removeDirIfEmpty_cases buildDirectory hfirst with ⟨hhandled, hcases⟩
  rcases hcases with ⟨tree', hremovable, hrmdir, htree, hwork⟩ | ⟨hkept, htree, hwork⟩
  · rcases FileTree.rmdir_eq_some hrmdir with ⟨-, hdirs', hfiles'⟩
    have hremoved := (hiff.mp hremovable).1
    -- the work list is what was left with the parent directory, if that is not handled
    have hmem : ∀ e, e ∈ (removeDirIfEmpty buildDirectory r).dirsToRemove →
        e = d.parent ∨ e ∈ dirs := by
      intro e he
      rcases hwork with ⟨-, hwork⟩ | hwork
      · rw [hwork] at he
        exact Or.inr he
      · rw [hwork] at he
        exact mem_insertSorted.mp he
    have hleft : ∀ e, e ∈ dirs → e ∈ (removeDirIfEmpty buildDirectory r).dirsToRemove := by
      intro e he
      rcases hwork with ⟨-, hwork⟩ | hwork
      · rwa [hwork]
      · rw [hwork]
        exact mem_insertSorted.mpr (Or.inr he)
    refine ⟨?_, ?_, ?_, ?_, ?_, ?_⟩
    · rcases hwork with ⟨-, hwork⟩ | hwork
      · rwa [hwork]
      · rw [hwork]
        exact hsorted.insertSorted
    · rw [htree, hfiles', h.files]
    · intro e
      rw [htree, hdirs', Finset.mem_erase, h.dirs, hhandled, List.mem_cons]
      by_cases heq : e = d
      · simp [heq, hremoved]
      · simp [heq]
    · intro e he
      have hin := hcovered e he
      rw [hhandled]
      simp only [List.mem_cons] at hin ⊢
      have hmono := hleft e
      tauto
    · intro e he hremoved
      rw [hhandled] at he ⊢
      rcases List.mem_cons.mp he with heq | he
      · rw [heq]
        rcases hwork with ⟨hparent, -⟩ | hwork
        · exact Or.inr hparent
        · rw [hwork]
          exact Or.inl (mem_insertSorted.mpr (Or.inl rfl))
      · have hin := hparents e he hremoved
        simp only [List.mem_cons] at hin ⊢
        have hmono := hleft e.parent
        tauto
    · intro e he
      rcases hmem e he with heq | he
      · exact Or.inr ⟨d, hremoved.mem_dirs, hremoved.ne_root, heq.symm⟩
      · exact hreached e (List.mem_cons_of_mem d he)
  · refine ⟨?_, ?_, ?_, ?_, ?_, ?_⟩
    · rwa [hwork]
    · rw [htree, h.files]
    · intro e
      rw [htree, h.dirs, hhandled, List.mem_cons]
      by_cases heq : e = d
      · rw [heq]
        tauto
      · simp [heq]
    · intro e he
      have hin := hcovered e he
      rw [hwork, hhandled]
      simp only [List.mem_cons] at hin ⊢
      tauto
    · intro e he hremoved
      rw [hhandled] at he
      have he : e ∈ r.handledDirs := by
        rcases List.mem_cons.mp he with heq | he
        · rw [heq] at hremoved ⊢
          tauto
        · exact he
      have hin := hparents e he hremoved
      rw [hwork, hhandled]
      simp only [List.mem_cons] at hin ⊢
      tauto
    · intro e he
      rw [hwork] at he
      exact hreached e (List.mem_cons_of_mem d he)

/-- Each step takes something from the directories or from the work list. -/
theorem removeDirIfEmpty_lt (buildDirectory : CleanPath) (hfirst : r.dirsToRemove = d :: dirs) :
    (removeDirIfEmpty buildDirectory r).tree.dirs.card +
        (removeDirIfEmpty buildDirectory r).dirsToRemove.length <
      r.tree.dirs.card + r.dirsToRemove.length := by
  rw [hfirst, List.length_cons]
  rcases removeDirIfEmpty_cases buildDirectory hfirst with ⟨-, hcases⟩
  rcases hcases with ⟨tree', hremovable, hrmdir, htree, hwork⟩ | ⟨-, htree, hwork⟩
  · rcases FileTree.rmdir_eq_some hrmdir with ⟨-, hdirs', -⟩
    have hcard := Finset.card_erase_lt_of_mem hremovable.mem_dirs
    have hinsert := length_insertSorted_le d.parent dirs
    rw [htree, hdirs']
    rcases hwork with ⟨-, hwork⟩ | hwork
    · rw [hwork]
      omega
    · rw [hwork]
      omega
  · rw [htree, hwork]
    omega

theorem Invariant.run (fuel : Nat) :
    ∀ {r : EmptyDirectoriesRemover}, Invariant buildDirectory tree starts r →
      r.tree.dirs.card + r.dirsToRemove.length ≤ fuel →
        Invariant buildDirectory tree starts
            (EmptyDirectoriesRemover.run buildDirectory fuel r) ∧
          (EmptyDirectoriesRemover.run buildDirectory fuel r).dirsToRemove = [] := by
  induction fuel with
  | zero =>
      intro r h hfuel
      have hnil : r.dirsToRemove = [] := List.length_eq_zero_iff.mp (by omega)
      exact ⟨h, hnil⟩
  | succ fuel ih =>
      intro r h hfuel
      unfold EmptyDirectoriesRemover.run
      split
      · rename_i hnil
        exact ⟨h, hnil⟩
      · rename_i hne
        rcases List.exists_cons_of_ne_nil hne with ⟨d, dirs, hfirst⟩
        apply ih (h.step hfirst)
        have hlt := removeDirIfEmpty_lt buildDirectory hfirst
        omega

theorem invariant_start (buildDirectory : CleanPath) (tree : FileTree) (artifactFilePaths : List CleanPath) :
    Invariant buildDirectory tree (directories artifactFilePaths)
      (start tree artifactFilePaths) := by
  rcases startDirs_spec artifactFilePaths with ⟨hsorted, -, hmem⟩
  refine ⟨hsorted, rfl, ?_, ?_, ?_, ?_⟩
  · simp [start]
  · intro d hd
    exact Or.inl ((hmem d).mpr hd)
  · simp [start]
  · intro d hd
    exact Or.inl ((hmem d).mp hd)

/-- A call ends, the files stay, and just the directories that get removed are gone. -/
theorem mem_dirs_removed (buildDirectory : CleanPath) (tree : FileTree)
    (artifactFilePaths : List CleanPath) :
    let r := removeEmptyParentDirectories buildDirectory tree artifactFilePaths
    r.dirsToRemove = [] ∧ r.tree.files = tree.files ∧
      ∀ d, d ∈ r.tree.dirs ↔
        d ∈ tree.dirs ∧ ¬Removed buildDirectory tree (directories artifactFilePaths) d := by
  intro r
  have hlength := (startDirs_spec artifactFilePaths).2.1
  rcases Invariant.run (tree.dirs.card + artifactFilePaths.length)
    (invariant_start buildDirectory tree artifactFilePaths)
    (Nat.add_le_add_left hlength tree.dirs.card) with ⟨hinvariant, hnil⟩
  refine ⟨hnil, hinvariant.files, ?_⟩
  intro d
  have hdirs := hinvariant.dirs d
  have hpending := fun hremoved => hinvariant.pending (d := d) hremoved
  rw [hnil] at hpending
  simp only [List.not_mem_nil, false_and, exists_false, or_false] at hpending
  show d ∈ (EmptyDirectoriesRemover.run buildDirectory _ _).tree.dirs ↔ _
  rw [hdirs]
  tauto

/-! ## When these are the directories that were emptied -/

/-- A directory without files and directories in it. -/
def IsEmptyDir (tree : FileTree) (d : CleanPath) : Prop :=
  d ∈ tree.dirs ∧ tree.entries d = ∅

/-- Empty directories are those of files if they are on the way to some, and no directory that is
empty and the directory of a file is outside of the build directory and has a path that begins with
the same text. -/
structure EmptiesOnlyDirectories (buildDirectory : CleanPath) (tree : FileTree)
    (artifactFilePaths : List CleanPath) : Prop where
  reached : ∀ d, IsEmptyDir tree d → d.IsBelow buildDirectory → d ≠ buildDirectory →
    (∃ s, s ∈ directories artifactFilePaths ∧ s.IsBelow d) → d ∈ directories artifactFilePaths
  inside : ∀ d, IsEmptyDir tree d → d ∈ directories artifactFilePaths →
    buildDirectory.text <+: d.text → d.IsBelow buildDirectory

theorem isEmptyDir_entries (h : IsEmptyDir tree d) (node : CleanPath) (hentry : node.IsEntryOf d) :
    node ∉ tree.dirs ∧ node ∉ tree.files := by
  have hnode : node ∉ tree.entries d := by
    rw [h.2]
    simp
  rw [FileTree.mem_entries] at hnode
  tauto

/-- A directory with nothing but directories in it is empty or has one. -/
theorem isEmptyDir_or (hdir : d ∈ tree.dirs)
    (hfiles : ∀ node, node ∈ tree.files → ¬node.IsEntryOf d) :
    IsEmptyDir tree d ∨ ∃ node, node ∈ tree.dirs ∧ node.IsEntryOf d := by
  rcases (tree.entries d).eq_empty_or_nonempty with hempty | ⟨node, hnode⟩
  · exact Or.inl ⟨hdir, hempty⟩
  · rcases FileTree.mem_entries.mp hnode with ⟨hnode | hnode, hentry⟩
    · exact Or.inr ⟨node, hnode, hentry⟩
    · exact absurd hentry (hfiles node hnode)

theorem Removed.emptied {artifactFilePaths : List CleanPath}
    (hinside : ∀ d, IsEmptyDir tree d → d ∈ directories artifactFilePaths →
      buildDirectory.text <+: d.text → d.IsBelow buildDirectory)
    (h : Removed buildDirectory tree (directories artifactFilePaths) d) :
    Emptied buildDirectory tree (directories artifactFilePaths) d := by
  induction h with
  | intro d hdir hbegins hne hfiles hdirs hreached ih =>
      rcases isEmptyDir_or hdir hfiles with hempty | ⟨node, hnode, hentry⟩
      · have hstart : d ∈ directories artifactFilePaths := by
          rcases hreached with hstart | ⟨node, hnode, hentry⟩
          · exact hstart
          · exact absurd hnode (isEmptyDir_entries hempty node hentry).1
        exact Emptied.intro d hdir (hinside d hempty hstart hbegins) hne
          ⟨d, hstart, CleanPath.isBelow_refl d⟩ hfiles ih
      · -- the directory is inside because the one in it is
        cases ih node hnode hentry with
        | intro _ _ hbelow hnodeNe hancestor _ _ =>
            have hparent := ((CleanPath.isBelow_iff_parent hnodeNe).mp hbelow).2
            rw [hentry.2] at hparent
            rcases hancestor with ⟨s, hs, hsBelow⟩
            exact Emptied.intro d hdir hparent hne ⟨s, hs, hsBelow.trans hentry.isBelow⟩ hfiles ih

theorem Emptied.removed {artifactFilePaths : List CleanPath}
    (hreached : ∀ d, IsEmptyDir tree d → d.IsBelow buildDirectory → d ≠ buildDirectory →
      (∃ s, s ∈ directories artifactFilePaths ∧ s.IsBelow d) → d ∈ directories artifactFilePaths)
    (h : Emptied buildDirectory tree (directories artifactFilePaths) d) :
    Removed buildDirectory tree (directories artifactFilePaths) d := by
  induction h with
  | intro d hdir hinside hne hancestor hfiles hdirs ih =>
      refine Removed.intro d hdir hinside.text_prefix hne hfiles ih ?_
      rcases isEmptyDir_or hdir hfiles with hempty | hentry
      · exact Or.inl (hreached d hempty hinside hne hancestor)
      · exact Or.inr hentry

/-- Just the directories that were emptied get removed if and only if those that are empty from the
beginning on are in order. -/
theorem removes_emptied_iff (buildDirectory : CleanPath) (tree : FileTree)
    (artifactFilePaths : List CleanPath) :
    RemovesEmptied buildDirectory tree artifactFilePaths ↔
      EmptiesOnlyDirectories buildDirectory tree artifactFilePaths := by
  rcases mem_dirs_removed buildDirectory tree artifactFilePaths with ⟨hends, hfiles, hdirs⟩
  constructor
  · intro h
    have hiff : ∀ d, d ∈ tree.dirs →
        (Removed buildDirectory tree (directories artifactFilePaths) d ↔
          Emptied buildDirectory tree (directories artifactFilePaths) d) := by
      intro d hdir
      have hd := (hdirs d).symm.trans (h.dirs d)
      tauto
    refine ⟨?_, ?_⟩
    · intro d hempty hinside hne hancestor
      have hentries := isEmptyDir_entries hempty
      have hremoved := (hiff d hempty.1).mpr (Emptied.intro d hempty.1 hinside hne hancestor
        (fun node hnode hentry => (hentries node hentry).2 hnode)
        (fun node hnode hentry => absurd hnode (hentries node hentry).1))
      cases hremoved with
      | intro _ _ _ _ _ _ hreached =>
          rcases hreached with hstart | ⟨node, hnode, hentry⟩
          · exact hstart
          · exact absurd hnode (hentries node hentry).1
    · intro d hempty hstart hbegins
      have hentries := isEmptyDir_entries hempty
      by_cases hne : d = buildDirectory
      · rw [hne]
        exact CleanPath.isBelow_refl buildDirectory
      · have hemptied := (hiff d hempty.1).mp (Removed.intro d hempty.1 hbegins hne
          (fun node hnode hentry => (hentries node hentry).2 hnode)
          (fun node hnode hentry => absurd hnode (hentries node hentry).1) (Or.inl hstart))
        cases hemptied with
        | intro _ _ hinside _ _ _ _ => exact hinside
  · intro h
    refine ⟨hends, hfiles, ?_⟩
    intro d
    have hiff : Removed buildDirectory tree (directories artifactFilePaths) d ↔
        Emptied buildDirectory tree (directories artifactFilePaths) d :=
      ⟨Removed.emptied h.inside, Emptied.removed h.reached⟩
    rw [hdirs d, hiff]

/-! ## A directory next to the build directory -/

def buildDirectoryX : CleanPath :=
  ⟨["b".toList, "x".toList], by decide⟩

def directoryB : CleanPath :=
  ⟨["b".toList], by decide⟩

def directoryXOld : CleanPath :=
  ⟨["b".toList, "x-old".toList], by decide⟩

def fileInXOld : CleanPath :=
  ⟨["b".toList, "x-old".toList, "a".toList], by decide⟩

/-- The two directories, which are empty, and what they are in. -/
def treeXOld : FileTree where
  dirs := {CleanPath.root, directoryB, buildDirectoryX, directoryXOld}
  files := ∅
  root_mem := by decide
  parent_mem := by decide
  disjoint := by simp

/-- The directory next to the build directory is removed, because its path begins with the same
text. -/
theorem not_removesEmptied_xOld :
    ¬RemovesEmptied buildDirectoryX treeXOld [fileInXOld] := by
  intro h
  have hgone := mem_dirs_removed buildDirectoryX treeXOld [fileInXOld]
  have hentries : ∀ node ∈ treeXOld.dirs, ¬node.IsEntryOf directoryXOld := by decide
  have hremoved : Removed buildDirectoryX treeXOld (directories [fileInXOld]) directoryXOld := by
    refine Removed.intro directoryXOld (by decide) (by decide) (by decide) ?_ ?_ ?_
    · intro node hnode
      simp [treeXOld] at hnode
    · intro node hnode hentry
      exact absurd hentry (hentries node hnode)
    · exact Or.inl (by decide)
  have hdir : directoryXOld ∈ treeXOld.dirs := by decide
  have hemptied : Emptied buildDirectoryX treeXOld (directories [fileInXOld]) directoryXOld := by
    have hiff := (hgone.2.2 directoryXOld).symm.trans (h.dirs directoryXOld)
    tauto
  cases hemptied with
  | intro _ _ hinside _ _ _ _ => exact absurd hinside (by decide)

end EmptyDirectoriesRemover

end Qbs
