import Mathlib.Data.Char
import Mathlib.Data.List.Lex
import QbsCore.Executor.Rescue
import QbsCore.Library.StateOp
import QbsCore.Tools.FileTree

/-!
# Cleaning

The generated artifacts of some products are removed from the disk together with the files that are
recorded for artifacts which are not there yet, and after them the directories that contain no
files.  Directories are collected upwards from those of the artifacts, as long as their paths begin
with the text of the build directory.

Main results:

- Definition {lit}`ArtifactCleaner.cleanup`: the removal of files and directories, with the build
  data and the errors.

Current gaps:

- The messages for the user are left out.
- There are no symbolic links and no files that are hidden from a listing.
-/

namespace Qbs

open FileInfo

namespace FileInfo.CleanPath

/-- Paths are ordered by their texts. -/
instance : LinearOrder CleanPath :=
  LinearOrder.lift' text fun _ _ h => text_injective h

/-- The place of a file path. The paths of files are absolute and clean. -/
def ofFilePath (filePath : FilePath) : CleanPath :=
  ⟨(components filePath.toList).filter fun s => IsName s, fun s hs => by
    simpa using (List.mem_filter.mp hs).2⟩

end FileInfo.CleanPath

structure CleanOptions where
  dryRun : Bool
  keepGoing : Bool

/-- The system: the order in which it lists what is in a directory, and what it allows to remove. -/
structure DiskAccess where
  listing : Finset CleanPath → List CleanPath
  mem_listing : ∀ s p, p ∈ listing s ↔ p ∈ s
  nodup_listing : ∀ s, (listing s).Nodup
  mayRemove : CleanPath → Bool

namespace DiskAccess

variable (disk : DiskAccess)

def rmdir (t : FileTree) (d : CleanPath) : Option FileTree :=
  if disk.mayRemove d then t.rmdir d else none

def remove (t : FileTree) (f : CleanPath) : Option FileTree :=
  if disk.mayRemove f then t.removeFile f else none

/-- The files and directories, and the text of the errors. -/
structure Removal where
  tree : FileTree
  errorMessage : String

def directoryError (d : CleanPath) : String :=
  "The directory " ++ String.ofList d.text ++ " could not be deleted."

def fileError (f : CleanPath) : String :=
  "The file " ++ String.ofList f.text ++ " could not be deleted."

/-- Remove a file or a directory with all that is in it. What happens to the entries of a directory
shows only when the directory itself is removed. The recursion is cut off by fuel. -/
def removeFileRecursion : ℕ → CleanPath → Removal → Bool × Removal
  | 0, _, r => (false, r)
  | fuel + 1, f, r =>
      if !r.tree.fileExists f then (true, r)
      else if f ∈ r.tree.dirs then
        let r := (disk.listing (r.tree.entries f)).foldl
          (fun r entry => (removeFileRecursion fuel entry r).2) r
        match disk.rmdir r.tree f with
        | none => (false, { r with errorMessage := r.errorMessage ++ directoryError f })
        | some tree => (true, { r with tree := tree })
      else
        match disk.remove r.tree f with
        | none =>
            let lines := if r.errorMessage = "" then "" else r.errorMessage ++ "\n"
            (false, { r with errorMessage := lines ++ fileError f })
        | some tree => (true, { r with tree := tree })

end DiskAccess

/-- What a clean job changes: the files, the build data, how often the observer was asked, the
directories of the artifacts, and whether there was an error. -/
structure CleanState where
  tree : FileTree
  graph : BuildGraph
  polls : ℕ
  directories : SortedSet CleanPath
  hasError : Bool

/-- A cleaner with its options, the system and the answers of the observer. The build directory is a
directory inside of the build root. -/
structure ArtifactCleaner where
  options : CleanOptions
  disk : DiskAccess
  canceled : ℕ → Bool
  buildDirectory : CleanPath
  buildDirectory_ne : buildDirectory ≠ CleanPath.root

namespace ArtifactCleaner

variable (cleaner : ArtifactCleaner)

def invalidateArtifactTimestamp (a : NodeId) (g : BuildGraph) : BuildGraph :=
  if (g.artifact a).hasTimestamp then (g.clearTimestamp a).setDirty else g

/-- The artifact that stands for a recorded file is a temporary one. -/
def invalidateTemporary (timeStamp : FileTime) (g : BuildGraph) : BuildGraph :=
  if timeStamp ≠ 0 then g.setDirty else g

/-- Remove the file of an artifact; the last argument invalidates the timestamp of the artifact. -/
def removeArtifactFromDisk (filePath : FilePath) (invalidate : BuildGraph → BuildGraph) :
    StateOp CleanState ErrorInfo Unit :=
  StateOp.query (fun s => .ok (s.tree.fileExists (.ofFilePath filePath))) >>= fun fileExists =>
  if cleaner.options.dryRun then pure ()
  else
    StateOp.update (fun s => { s with graph := invalidate s.graph }) >>= fun _ =>
    if fileExists then
      StateOp.transform fun s =>
        let r := cleaner.disk.removeFileRecursion (s.tree.depth + 1) (.ofFilePath filePath)
          ⟨s.tree, ""⟩
        (if r.1 then .ok () else .error (.message r.2.errorMessage), { s with tree := r.2.tree })
    else pure ()

/-- An artifact that is not generated is not looked at. -/
def doVisit (product : ProductId) (a : NodeId) : StateOp CleanState ErrorInfo Unit :=
  StateOp.transform (fun s => (.ok (cleaner.canceled s.polls), { s with polls := s.polls + 1 })) >>=
    fun canceled =>
  if canceled then StateOp.fail (.message "Cleaning up was canceled.")
  else
    StateOp.query (fun s => .ok (s.graph.productOf a, (s.graph.artifact a).filePath)) >>= fun data =>
    if data.1 ≠ product then pure ()
    else
      StateOp.attempt (cleaner.removeArtifactFromDisk data.2 (invalidateArtifactTimestamp a))
        (fun error =>
          if !cleaner.options.keepGoing then StateOp.fail error
          else StateOp.update fun s => { s with hasError := true }) >>= fun _ =>
      StateOp.update fun s =>
        { s with directories := insert (CleanPath.ofFilePath data.2).parent s.directories }

/-- The generated artifacts in the build data of a product. -/
def generatedArtifacts (g : BuildGraph) (product : ProductId) : ArtifactSet :=
  match g.productData product with
  | none => ∅
  | some d => (g.filterArtifacts d.nodes).filter fun a => (g.artifact a).artifactType = .generated

/-- The recorded data of a product. -/
def allRescuableArtifactData (g : BuildGraph) (product : ProductId) :
    AssocMap FilePath RescuableArtifactData :=
  match g.productData product with
  | none => ∅
  | some d => d.rescuableArtifactData

/-- Visit the generated artifacts of a product, and remove the recorded files. -/
def visitProduct (product : ProductId) : StateOp CleanState ErrorInfo Unit :=
  StateOp.query (fun s => .ok (generatedArtifacts s.graph product)) >>= fun artifacts =>
  artifacts.elems.forM (cleaner.doVisit product) >>= fun _ =>
  StateOp.query (fun s => .ok (allRescuableArtifactData s.graph product)) >>= fun data =>
  data.entries.forM fun entry =>
    cleaner.removeArtifactFromDisk entry.1 (invalidateTemporary entry.2.timeStamp) >>= fun _ =>
    StateOp.update fun s =>
      { s with graph := s.graph.removeFromRescuableArtifactData product [entry.1] }

/-! ## Directories -/

def directoryFailure (d : CleanPath) : ErrorInfo :=
  .message ("Failure to remove empty directory '" ++ String.ofList d.text ++ "'.")

/-- The loop over the entries of a directory, which tells whether all of them are removed. The first
argument is the recursive call. -/
def removeEmptyEntries (recurse : CleanPath → StateOp CleanState ErrorInfo Bool) :
    List CleanPath → Bool → StateOp CleanState ErrorInfo Bool
  | [], subTreeIsEmpty => pure subTreeIsEmpty
  | entry :: entries, subTreeIsEmpty =>
      StateOp.query (fun s => .ok (decide (entry ∈ s.tree.dirs))) >>= fun isDir =>
      if isDir then
        recurse entry >>= fun isEmpty => removeEmptyEntries recurse entries (subTreeIsEmpty && isEmpty)
      else removeEmptyEntries recurse entries false

/-- Remove a directory without entries. -/
def removeEmptyDirectory (rootDir : CleanPath) : StateOp CleanState ErrorInfo Bool :=
  StateOp.transform fun s =>
    match cleaner.disk.rmdir s.tree rootDir with
    | some tree => (.ok true, { s with tree := tree })
    | none =>
        if !cleaner.options.keepGoing then (.error (directoryFailure rootDir), s)
        else (.ok false, { s with hasError := true })

/-- Remove a directory if there are no files in it, and the directories in it without files. The
options are asked for the message only. The recursion is cut off by fuel. -/
def removeEmptyDirectories : ℕ → CleanPath → StateOp CleanState ErrorInfo Bool
  | 0, _ => StateOp.fail .outOfFuel
  | fuel + 1, rootDir =>
      StateOp.query (fun s => .ok (cleaner.disk.listing (s.tree.entries rootDir))) >>= fun entries =>
      removeEmptyEntries (removeEmptyDirectories fuel) entries true >>= fun subTreeIsEmpty =>
      if subTreeIsEmpty then cleaner.removeEmptyDirectory rootDir else pure false

/-- What comes into the list of directories behind the others, when a directory is looked at. -/
def parentDir (dirList : List CleanPath) (dir : CleanPath) : List CleanPath :=
  if dir ≠ cleaner.buildDirectory ∧ dir.parent ≠ cleaner.buildDirectory ∧ dir.parent ∉ dirList then
    [dir.parent]
  else []

/-- The parent directory has a shorter path. -/
theorem length_parentDir (dirs pending : List CleanPath) (dir : CleanPath) :
    ((pending ++ cleaner.parentDir (dirs ++ dir :: pending) dir).map
        fun d => d.segments.length + 1).sum <
      ((dir :: pending).map fun d => d.segments.length + 1).sum := by
  unfold parentDir
  split <;> rename_i h
  · have hlength : dir.segments ≠ [] := by
      intro hnil
      refine h.2.2 (List.mem_append_right _ ?_)
      have hparent : dir.parent = dir := by
        apply CleanPath.ext_segments
        simp [CleanPath.parent, hnil]
      rw [hparent]
      exact List.mem_cons_self
    have hpos := List.length_pos_iff.mpr hlength
    simp [CleanPath.parent]
    omega
  · simp

/-- Look at the directories of the list, which grows on the way: the first argument holds those that
are done, the second one the others. -/
def cleanDirectories : List CleanPath → List CleanPath → StateOp CleanState ErrorInfo Unit
  | _, [] => pure ()
  | dirs, dir :: pending =>
      if !cleaner.buildDirectory.text.isPrefixOf dir.text then cleanDirectories (dirs ++ [dir]) pending
      else
        StateOp.query (fun s => .ok (s.tree.fileExists dir, s.tree.depth + 1)) >>= fun found =>
        (if found.1 then cleaner.removeEmptyDirectories found.2 dir else pure true) >>= fun _ =>
        cleanDirectories (dirs ++ [dir]) (pending ++ cleaner.parentDir (dirs ++ dir :: pending) dir)
termination_by _ pending => (pending.map fun d => d.segments.length + 1).sum
decreasing_by
  · simp
  · exact cleaner.length_parentDir dirs pending dir

def cleanup (products : List ProductId) : StateOp CleanState ErrorInfo Unit :=
  StateOp.update (fun s => { s with hasError := false, directories := ∅ }) >>= fun _ =>
  products.forM cleaner.visitProduct >>= fun _ =>
  StateOp.query (fun s => .ok s.directories.elems) >>= fun dirList =>
  cleaner.cleanDirectories [] dirList >>= fun _ =>
  StateOp.query fun s =>
    if s.hasError then .error (.message "Failed to remove some files.") else .ok ()

end ArtifactCleaner

/-! ## The removal of a file -/

namespace DiskAccess

variable {disk : DiskAccess} {t t' : FileTree} {d f : CleanPath}

theorem rmdir_eq_some (h : disk.rmdir t d = some t') : t.rmdir d = some t' := by
  unfold rmdir at h
  split at h
  · exact h
  · simp at h

theorem remove_eq_some (h : disk.remove t f = some t') : t.removeFile f = some t' := by
  unfold remove at h
  split at h
  · exact h
  · simp at h

/-- The loop over the entries of a directory. -/
theorem loses_foldl {fuel : ℕ} {P : CleanPath → Prop}
    (ih : ∀ f r, FileTree.Loses (·.IsBelow f) r.tree (disk.removeFileRecursion fuel f r).2.tree)
    (entries : List CleanPath) (hentries : ∀ entry, entry ∈ entries → ∀ node : CleanPath,
      node.IsBelow entry → P node) (r : Removal) :
    FileTree.Loses P r.tree
      (entries.foldl (fun r entry => (disk.removeFileRecursion fuel entry r).2) r).tree := by
  induction entries generalizing r with
  | nil => exact FileTree.Loses.refl r.tree
  | cons entry entries ihEntries =>
      rw [List.foldl_cons]
      exact ((ih entry r).mono (hentries entry List.mem_cons_self)).trans
        (ihEntries (fun e he => hentries e (List.mem_cons_of_mem entry he)) _)

/-- Nothing is lost but what is below the file or directory. -/
theorem loses_removeFileRecursion (fuel : ℕ) (f : CleanPath) (r : Removal) :
    FileTree.Loses (·.IsBelow f) r.tree (disk.removeFileRecursion fuel f r).2.tree := by
  induction fuel generalizing f r with
  | zero => exact FileTree.Loses.refl r.tree
  | succ fuel ih =>
      have hself : ∀ node : CleanPath, node = f → node.IsBelow f := by
        intro node heq
        rw [heq]
        exact CleanPath.isBelow_refl f
      unfold removeFileRecursion
      split
      · exact FileTree.Loses.refl r.tree
      · split
        · have hloop := loses_foldl (P := fun node => node.IsBelow f) ih
            (disk.listing (r.tree.entries f)) (fun entry hentry node hnode =>
              hnode.trans (FileTree.mem_entries.mp ((disk.mem_listing _ _).mp hentry)).2.isBelow) r
          dsimp only
          split
          · exact hloop
          · rename_i tree htree
            exact hloop.trans ((FileTree.loses_rmdir (rmdir_eq_some htree)).mono hself)
        · dsimp only
          split
          · exact FileTree.Loses.refl r.tree
          · rename_i tree htree
            exact (FileTree.loses_removeFile (remove_eq_some htree)).mono hself

/-- If the removal succeeds, the file or directory is gone. -/
theorem removeFileRecursion_eq_true {fuel : ℕ} {r : Removal}
    (h : (disk.removeFileRecursion fuel f r).1 = true) :
    (disk.removeFileRecursion fuel f r).2.tree.fileExists f = false := by
  cases fuel with
  | zero => cases h
  | succ fuel =>
      unfold removeFileRecursion at h ⊢
      split at h <;> rename_i hexists
      · rw [if_pos hexists]
        simpa using hexists
      · rw [if_neg hexists]
        split at h <;> rename_i hdir
        · rw [if_pos hdir]
          dsimp only at h ⊢
          split at h <;> rename_i htree
          · cases h
          · exact FileTree.fileExists_rmdir (rmdir_eq_some htree)
        · rw [if_neg hdir]
          dsimp only at h ⊢
          split at h <;> rename_i htree
          · cases h
          · exact FileTree.fileExists_removeFile (remove_eq_some htree)

/-- All that is below the file or directory is gone then, and nothing else. -/
theorem kept_removeFileRecursion {fuel : ℕ} {r : Removal}
    (h : (disk.removeFileRecursion fuel f r).1 = true) :
    FileTree.Kept (fun node => ¬node.IsBelow f) r.tree
      (disk.removeFileRecursion fuel f r).2.tree :=
  (loses_removeFileRecursion fuel f r).kept (removeFileRecursion_eq_true h)

end DiskAccess

/-! ## The removal of empty directories -/

namespace ArtifactCleaner

variable {cleaner : ArtifactCleaner} {s s' : CleanState} {d : CleanPath} {b : Bool}

/-- Nothing is lost but the directories that a predicate allows, and errors are not forgotten. -/
structure Descends (P : CleanPath → Prop) (s s' : CleanState) : Prop where
  tree : FileTree.Loses P s.tree s'.tree
  files : s'.tree.files = s.tree.files
  graph : s'.graph = s.graph
  hasError : s.hasError = true → s'.hasError = true

namespace Descends

variable {P P' : CleanPath → Prop}

theorem refl (s : CleanState) : Descends P s s :=
  ⟨FileTree.Loses.refl s.tree, rfl, rfl, id⟩

theorem trans (s s' s'' : CleanState) (h : Descends P s s') (h' : Descends P s' s'') :
    Descends P s s'' :=
  ⟨h.tree.trans h'.tree, h'.files.trans h.files, h'.graph.trans h.graph,
    fun herror => h'.hasError (h.hasError herror)⟩

theorem mono (h : Descends P s s') (hP : ∀ node, P node → P' node) : Descends P' s s' :=
  ⟨h.tree.mono hP, h.files, h.graph, h.hasError⟩

/-- Without an error at the end there was none before. -/
theorem hasError_eq_false {α : Type} {op : StateOp CleanState ErrorInfo α}
    {result : Except ErrorInfo α} (h : StateOp.Within (Descends P) op)
    (hout : op.outcome s = (result, s')) (herror : s'.hasError = false) : s.hasError = false := by
  by_contra hnot
  have hlater := (h s).hasError (by simpa using hnot)
  rw [hout, herror] at hlater
  cases hlater

end Descends

theorem within_removeEmptyDirectory (d : CleanPath) :
    StateOp.Within (Descends (·.IsBelow d)) (cleaner.removeEmptyDirectory d) := by
  refine StateOp.Within.transform fun s => ?_
  split
  · rename_i tree htree
    have hrmdir := DiskAccess.rmdir_eq_some htree
    refine ⟨(FileTree.loses_rmdir hrmdir).mono ?_, (FileTree.rmdir_eq_some hrmdir).2.2, rfl, id⟩
    intro node heq
    rw [heq]
    exact CleanPath.isBelow_refl d
  · split
    · exact Descends.refl s
    · exact ⟨FileTree.Loses.refl s.tree, rfl, rfl, fun _ => rfl⟩

variable {P : CleanPath → Prop}

theorem within_removeEmptyEntries {recurse : CleanPath → StateOp CleanState ErrorInfo Bool}
    {entries : List CleanPath}
    (h : ∀ entry, entry ∈ entries → StateOp.Within (Descends P) (recurse entry)) (b : Bool) :
    StateOp.Within (Descends P) (removeEmptyEntries recurse entries b) := by
  induction entries generalizing b with
  | nil => exact StateOp.Within.pure Descends.refl b
  | cons entry entries ih =>
      have htail := ih fun e he => h e (List.mem_cons_of_mem entry he)
      refine StateOp.Within.bind Descends.trans (StateOp.Within.query Descends.refl _) ?_
      intro isDir
      split
      · exact StateOp.Within.bind Descends.trans (h entry List.mem_cons_self) fun isEmpty =>
          htail (b && isEmpty)
      · exact htail false

theorem within_removeEmptyDirectories (fuel : ℕ) (d : CleanPath) :
    StateOp.Within (Descends (·.IsBelow d)) (cleaner.removeEmptyDirectories fuel d) := by
  induction fuel generalizing d with
  | zero => exact StateOp.Within.fail Descends.refl _
  | succ fuel ih =>
      intro s
      rw [removeEmptyDirectories, StateOp.outcome_bind, StateOp.outcome_query]
      refine (StateOp.Within.bind Descends.trans (within_removeEmptyEntries ?_ true) ?_) s
      · intro entry hentry
        have hbelow := (FileTree.mem_entries.mp ((cleaner.disk.mem_listing _ _).mp hentry)).2.isBelow
        exact (ih entry).mono fun _ _ h => h.mono fun _ hnode => hnode.trans hbelow
      · intro subTreeIsEmpty
        split
        · exact within_removeEmptyDirectory d
        · exact StateOp.Within.pure Descends.refl false

/-- The directories without files in some directories are gone. -/
abbrev EmptiedIn (P : CleanPath → Prop) (t t' : FileTree) : Prop :=
  FileTree.Kept (fun node => ¬((∃ d, P d ∧ node.IsBelow d) ∧ t.FileFree node)) t t'

theorem EmptiedIn.files_eq {t t' : FileTree} (h : EmptiedIn P t t') :
    t'.files = t.files := by
  ext node
  rw [FileTree.Kept.files h]
  constructor
  · exact fun hnode => hnode.1
  · intro hnode
    exact ⟨hnode, fun hfree => FileTree.not_fileFree_of_mem hnode hfree.2⟩

theorem EmptiedIn.fileFree_iff {t t' : FileTree} (h : EmptiedIn P t t') (node : CleanPath) :
    t'.FileFree node ↔ t.FileFree node := by
  unfold FileTree.FileFree
  rw [h.files_eq]

/-- First the directories in some directories are removed, then those in others. -/
theorem EmptiedIn.trans {P' : CleanPath → Prop} {t t' t'' : FileTree} (h : EmptiedIn P t t')
    (h' : EmptiedIn P' t' t'') : EmptiedIn (fun d => P d ∨ P' d) t t'' := by
  refine (FileTree.Kept.trans h h').congr fun node _ => ?_
  rw [h.fileFree_iff node]
  constructor
  · intro hkeep hfree
    rcases hfree with ⟨⟨d, hd | hd, hbelow⟩, hfree⟩
    · exact hkeep.1 ⟨⟨d, hd, hbelow⟩, hfree⟩
    · exact hkeep.2 ⟨⟨d, hd, hbelow⟩, hfree⟩
  · intro hkeep
    exact ⟨fun hfree => hkeep ⟨hfree.1.imp fun d hd => ⟨.inl hd.1, hd.2⟩, hfree.2⟩,
      fun hfree => hkeep ⟨hfree.1.imp fun d hd => ⟨.inr hd.1, hd.2⟩, hfree.2⟩⟩


/-- What the removal of the directories without files in a directory leaves if there is no error. -/
theorem removeEmptyDirectory_eq_ok
    (h : (cleaner.removeEmptyDirectory d).outcome s = (.ok b, s')) (herror : s'.hasError = false) :
    b = true ∧ FileTree.Kept (fun node => ¬node.IsBelow d) s.tree s'.tree := by
  rw [removeEmptyDirectory, StateOp.outcome_transform] at h
  split at h
  · rename_i tree htree
    rw [Prod.mk.injEq, Except.ok.injEq] at h
    have hrmdir := DiskAccess.rmdir_eq_some htree
    have hlost : FileTree.Loses (·.IsBelow d) s.tree tree := by
      refine (FileTree.loses_rmdir hrmdir).mono fun node heq => ?_
      rw [heq]
      exact CleanPath.isBelow_refl d
    rw [← h.1, ← h.2]
    exact ⟨rfl, hlost.kept (FileTree.fileExists_rmdir hrmdir)⟩
  · split at h
    · simp at h
    · rw [Prod.mk.injEq] at h
      rw [← h.2] at herror
      simp at herror

theorem removeEmptyEntries_eq_ok {recurse : CleanPath → StateOp CleanState ErrorInfo Bool}
    {entries : List CleanPath}
    (hwithin : ∀ entry, entry ∈ entries → StateOp.Within (Descends (·.IsBelow entry)) (recurse entry))
    (hrecurse : ∀ entry, entry ∈ entries → ∀ s s' b, entry ∈ s.tree.dirs →
      (recurse entry).outcome s = (.ok b, s') → s'.hasError = false →
        EmptiedIn (· = entry) s.tree s'.tree ∧ (b = true ↔ s.tree.FileFree entry))
    (hentries : ∀ entry, entry ∈ entries → s.tree.fileExists entry = true)
    (hpairwise : entries.Pairwise fun entry entry' => ¬entry'.IsBelow entry)
    (h : (removeEmptyEntries recurse entries b).outcome s = (.ok b', s'))
    (herror : s'.hasError = false) :
    EmptiedIn (· ∈ entries) s.tree s'.tree ∧
      (b' = true ↔ b = true ∧ ∀ entry, entry ∈ entries → s.tree.FileFree entry) := by
  induction entries generalizing s b with
  | nil =>
      rw [removeEmptyEntries, StateOp.outcome_pure, Prod.mk.injEq, Except.ok.injEq] at h
      rw [← h.1, ← h.2]
      exact ⟨FileTree.Kept.refl (by simp), by simp⟩
  | cons entry entries ih =>
      have hcons : ∀ t t' : FileTree, EmptiedIn (fun d => d = entry ∨ d ∈ entries) t t' →
          EmptiedIn (· ∈ entry :: entries) t t' := by
        intro t t' hemptied
        exact hemptied.congr fun node _ => by simp
      have ihTail := fun {s b} => ih (s := s) (b := b)
        (fun e he => hwithin e (List.mem_cons_of_mem entry he))
        (fun e he => hrecurse e (List.mem_cons_of_mem entry he))
      have hfirst := List.pairwise_cons.mp hpairwise
      rw [removeEmptyEntries, StateOp.outcome_query_bind] at h
      by_cases hdir : entry ∈ s.tree.dirs
      · rw [if_pos (by simpa using hdir), StateOp.outcome_bind_eq_ok] at h
        rcases h with ⟨isEmpty, s₁, hrec, htail⟩
        have hrest := within_removeEmptyEntries (P := fun _ => True)
          (fun e he => (hwithin e (List.mem_cons_of_mem entry he)).mono fun _ _ hdesc =>
            hdesc.mono fun _ _ => trivial) (b && isEmpty)
        have herror₁ := Descends.hasError_eq_false hrest htail herror
        rcases hrecurse entry List.mem_cons_self s s₁ isEmpty hdir hrec herror₁ with
          ⟨hemptied, hisEmpty⟩
        have hkept : ∀ e, e ∈ entries → s₁.tree.fileExists e = true := by
          intro e he
          refine hemptied.fileExists_iff.mpr ⟨hentries e (List.mem_cons_of_mem entry he), ?_⟩
          rintro ⟨⟨d, rfl, hbelow⟩, -⟩
          exact hfirst.1 e he hbelow
        rcases ihTail hkept hfirst.2 htail with ⟨hemptied', hb'⟩
        refine ⟨hcons _ _ (hemptied.trans hemptied'), ?_⟩
        rw [hb']
        simp only [Bool.and_eq_true, hisEmpty, List.forall_mem_cons, hemptied.fileFree_iff]
        tauto
      · rw [if_neg (by simpa using hdir)] at h
        have hfile : entry ∈ s.tree.files :=
          (FileTree.fileExists_iff.mp (hentries entry List.mem_cons_self)).resolve_left hdir
        have hnot : ¬s.tree.FileFree entry := FileTree.not_fileFree_of_mem hfile
        rcases ihTail (fun e he => hentries e (List.mem_cons_of_mem entry he)) hfirst.2 h with
          ⟨hemptied, hb'⟩
        constructor
        · apply hcons
          refine hemptied.congr fun node hnode => not_congr (and_congr_left fun hfree => ?_)
          constructor
          · exact fun hbelow => hbelow.imp fun d hd => ⟨.inr hd.1, hd.2⟩
          · rintro ⟨d, hd | hd, hbelow⟩
            · -- only the file itself is at its path or below it
              exfalso
              rw [hd] at hbelow
              by_cases heq : node = entry
              · rw [heq] at hfree
                exact hnot hfree
              · exact hdir (FileTree.mem_dirs_of_isBelow
                  (Finset.mem_union.mpr (FileTree.fileExists_iff.mp hnode)) hbelow heq)
            · exact ⟨d, hd, hbelow⟩
        · rw [hb']
          simp [hnot]

/-- If there is no error, the directories without files in a directory are gone, and the answer
tells whether there are files in it. -/
theorem removeEmptyDirectories_eq_ok {fuel : ℕ} (hd : d ∈ s.tree.dirs)
    (h : (cleaner.removeEmptyDirectories fuel d).outcome s = (.ok b, s'))
    (herror : s'.hasError = false) :
    EmptiedIn (· = d) s.tree s'.tree ∧ (b = true ↔ s.tree.FileFree d) := by
  induction fuel generalizing d s s' b with
  | zero => simp [removeEmptyDirectories] at h
  | succ fuel ih =>
      have hnotFile : d ∉ s.tree.files := Finset.disjoint_left.mp s.tree.disjoint hd
      have hlisting : ∀ entry, entry ∈ cleaner.disk.listing (s.tree.entries d) ↔
          entry ∈ s.tree.entries d := fun entry => cleaner.disk.mem_listing _ entry
      have hpairwise : (cleaner.disk.listing (s.tree.entries d)).Pairwise
          fun entry entry' => ¬entry'.IsBelow entry := by
        refine (cleaner.disk.nodup_listing (s.tree.entries d)).imp_of_mem ?_
        intro entry entry' hentry hentry' hne hbelow
        have hlength := (FileTree.mem_entries.mp ((hlisting entry).mp hentry)).2.length_eq
        have hlength' := (FileTree.mem_entries.mp ((hlisting entry').mp hentry')).2.length_eq
        exact hne (CleanPath.ext_segments (List.IsPrefix.eq_of_length hbelow (by omega)))
      rw [removeEmptyDirectories, StateOp.outcome_query_bind, StateOp.outcome_bind_eq_ok] at h
      rcases h with ⟨subTreeIsEmpty, s₁, hloop, hlast⟩
      have herror₁ : s₁.hasError = false := by
        split at hlast
        · exact Descends.hasError_eq_false (within_removeEmptyDirectory d) hlast herror
        · rw [StateOp.outcome_pure, Prod.mk.injEq] at hlast
          rw [hlast.2]
          exact herror
      rcases removeEmptyEntries_eq_ok (fun entry _ => within_removeEmptyDirectories fuel entry)
        (fun entry _ s s' b hdir hrec herr => ih hdir hrec herr)
        (fun entry hentry => FileTree.fileExists_iff.mpr
          (FileTree.mem_entries.mp ((hlisting entry).mp hentry)).1) hpairwise hloop herror₁ with
        ⟨hemptied, hsub⟩
      have hfree : subTreeIsEmpty = true ↔ s.tree.FileFree d := by
        rw [hsub, FileTree.fileFree_iff_entries hnotFile]
        simp only [true_and, hlisting]
      -- below the directory is the directory itself or what is below its entries
      have hbelow : ∀ node, s.tree.fileExists node = true → (node.IsBelow d ↔ node = d ∨
          ∃ entry, entry ∈ cleaner.disk.listing (s.tree.entries d) ∧ node.IsBelow entry) := by
        intro node hnode
        constructor
        · intro hnodeBelow
          by_cases heq : node = d
          · exact .inl heq
          · rcases FileTree.exists_entry_of_isBelow hnode hnodeBelow heq with ⟨entry, hentry, hin⟩
            exact .inr ⟨entry, (hlisting entry).mpr hentry, hin⟩
        · rintro (rfl | ⟨entry, hentry, hin⟩)
          · exact CleanPath.isBelow_refl node
          · exact hin.trans (FileTree.mem_entries.mp ((hlisting entry).mp hentry)).2.isBelow
      by_cases hsubTree : subTreeIsEmpty = true
      · rw [if_pos hsubTree] at hlast
        have hfree' := hfree.mp hsubTree
        rcases removeEmptyDirectory_eq_ok hlast herror with ⟨hb, hkept⟩
        refine ⟨(FileTree.Kept.trans hemptied hkept).congr fun node hnode => ?_, by simp [hb, hfree']⟩
        constructor
        · rintro ⟨-, hnot⟩ ⟨⟨_, rfl, hin⟩, -⟩
          exact hnot hin
        · intro hnot
          have hnotBelow : ¬node.IsBelow d := fun hin => hnot ⟨⟨d, rfl, hin⟩, hfree'.mono hin⟩
          refine ⟨?_, hnotBelow⟩
          rintro ⟨⟨entry, hentry, hin⟩, -⟩
          exact hnotBelow ((hbelow node hnode).mpr (.inr ⟨entry, hentry, hin⟩))
      · rw [if_neg hsubTree, StateOp.outcome_pure, Prod.mk.injEq, Except.ok.injEq] at hlast
        rw [← hlast.1, ← hlast.2]
        have hnotFree : ¬s.tree.FileFree d := fun hfree' => hsubTree (hfree.mpr hfree')
        refine ⟨hemptied.congr fun node hnode => not_congr (and_congr_left fun hnodeFree => ?_),
          by simp [hnotFree]⟩
        constructor
        · rintro ⟨entry, hentry, hin⟩
          exact ⟨d, rfl, (hbelow node hnode).mpr (.inr ⟨entry, hentry, hin⟩)⟩
        · rintro ⟨_, rfl, hin⟩
          refine ((hbelow node hnode).mp hin).resolve_left ?_
          rintro rfl
          exact hnotFree hnodeFree

end ArtifactCleaner

end Qbs
