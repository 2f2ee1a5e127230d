import Mathlib.Data.Finset.Basic
import Mathlib.Data.Finset.Lattice.Fold
import Mathlib.Order.Lattice.Nat
import QbsCore.Tools.CleanPaths

/-!
# Files and directories

The files and directories of a file system by their paths, without symbolic links.

Main results:

- Structure {lit}`FileTree`: every file and every directory is in a directory.
- Definitions {lit}`FileTree.rmdir` and {lit}`FileTree.removeFile`: empty directories and files can
  be removed.
- Theorem {lit}`FileTree.mem_dirs_of_isBelow`: the directories on the way to something are there.
-/

namespace Qbs

namespace FileInfo.CleanPath

instance : DecidableEq CleanPath := fun p q =>
  decidable_of_iff (p.segments = q.segments) (by
    constructor
    · intro h
      cases p
      cases q
      simpa using h
    · intro h
      rw [h])

def root : CleanPath :=
  ⟨[], names_nil⟩

/-- The directory that something is in. The root directory is in itself. -/
def parent (p : CleanPath) : CleanPath :=
  ⟨p.segments.dropLast, fun s hs => p.names s (List.dropLast_subset _ hs)⟩

/-- A path is that of a directory or below it, by its segments. -/
def IsBelow (p d : CleanPath) : Prop :=
  d.segments <+: p.segments

instance (p d : CleanPath) : Decidable (p.IsBelow d) :=
  inferInstanceAs (Decidable (d.segments <+: p.segments))

/-- A path is that of an entry of a directory. -/
def IsEntryOf (p d : CleanPath) : Prop :=
  p ≠ root ∧ p.parent = d

instance (p d : CleanPath) : Decidable (p.IsEntryOf d) :=
  inferInstanceAs (Decidable (_ ∧ _))

variable {p q d : CleanPath}

theorem ext_segments (h : p.segments = q.segments) : p = q := by
  cases p
  cases q
  simpa using h

theorem eq_root_iff : p = root ↔ p.segments = [] := by
  constructor
  · intro h
    rw [h, root]
  · intro h
    exact ext_segments h

theorem isBelow_refl (p : CleanPath) : p.IsBelow p :=
  List.prefix_rfl

theorem IsBelow.trans (h : p.IsBelow q) (h' : q.IsBelow d) : p.IsBelow d :=
  List.IsPrefix.trans h' h

theorem isBelow_parent (p : CleanPath) : p.IsBelow p.parent :=
  List.dropLast_prefix p.segments

theorem IsEntryOf.isBelow (h : p.IsEntryOf d) : p.IsBelow d := by
  rw [← h.2]
  exact isBelow_parent p

theorem IsEntryOf.segments_eq (h : p.IsEntryOf d) :
    ∃ name, IsName name ∧ p.segments = d.segments ++ [name] := by
  rcases List.eq_nil_or_concat p.segments with hnil | ⟨before, name, heq⟩
  · exact absurd (eq_root_iff.mpr hnil) h.1
  · rw [List.concat_eq_append] at heq
    refine ⟨name, p.names name (by simp [heq]), ?_⟩
    rw [← h.2]
    simp [parent, heq]

theorem IsEntryOf.length_eq (h : p.IsEntryOf d) :
    p.segments.length = d.segments.length + 1 := by
  rcases h.segments_eq with ⟨name, -, heq⟩
  simp [heq]

theorem IsEntryOf.ne (h : p.IsEntryOf d) : p ≠ d := by
  intro heq
  have hlength := h.length_eq
  rw [heq] at hlength
  omega

/-- What is below a directory is the directory itself or below the directory that it is in. -/
theorem isBelow_iff_parent (hne : p ≠ d) : p.IsBelow d ↔ p ≠ root ∧ p.parent.IsBelow d := by
  constructor
  · intro h
    rcases List.eq_nil_or_concat p.segments with hnil | ⟨before, name, heq⟩
    · unfold IsBelow at h
      rw [hnil, List.prefix_nil] at h
      exact absurd (ext_segments (hnil.trans h.symm)) hne
    · rw [List.concat_eq_append] at heq
      constructor
      · rw [Ne, eq_root_iff, heq]
        simp
      · unfold IsBelow at h
        rw [heq, List.prefix_concat_iff] at h
        rcases h with h | h
        · exact absurd (ext_segments (heq.trans h.symm)) hne
        · simpa [IsBelow, parent, heq] using h
  · intro h
    exact (isBelow_parent p).trans h.2

/-- The texts of paths begin with each other if the paths are below each other. -/
theorem IsBelow.text_prefix (h : p.IsBelow d) : d.text <+: p.text := by
  rcases h with ⟨rest, hrest⟩
  unfold text pathOf
  rw [← hrest]
  by_cases hd : d.segments = []
  · rw [if_pos hd, hd, List.nil_append]
    cases rest with
    | nil => simp
    | cons s rest =>
        rw [if_neg (by simp), Segments.joined_cons]
        exact ⟨_, rfl⟩
  · rw [if_neg hd, if_neg (by simp [hd]), Segments.joined_append]
    exact List.prefix_append _ _

end FileInfo.CleanPath

open FileInfo

/-- Files and directories; what is there is in a directory. -/
structure FileTree where
  dirs : Finset CleanPath
  files : Finset CleanPath
  root_mem : CleanPath.root ∈ dirs
  parent_mem : ∀ node, node ∈ dirs ∪ files → node.parent ∈ dirs
  disjoint : Disjoint dirs files

namespace FileTree

variable (t : FileTree)

/-- There is a file or a directory with a path. -/
def fileExists (node : CleanPath) : Bool :=
  node ∈ t.dirs ∪ t.files

/-- What is in a directory. -/
def entries (d : CleanPath) : Finset CleanPath :=
  (t.dirs ∪ t.files).filter fun node => node.IsEntryOf d

/-- Remove a directory, which has to be empty. The root directory cannot be removed. -/
def rmdir (d : CleanPath) : Option FileTree :=
  if h : d ∈ t.dirs ∧ t.entries d = ∅ ∧ d ≠ CleanPath.root then
    some
      { dirs := t.dirs.erase d
        files := t.files
        root_mem := Finset.mem_erase.mpr ⟨Ne.symm h.2.2, t.root_mem⟩
        parent_mem := by
          intro node hnode
          have hmem : node ∈ t.dirs ∪ t.files := by
            rw [Finset.mem_union] at hnode ⊢
            exact hnode.imp_left Finset.mem_of_mem_erase
          refine Finset.mem_erase.mpr ⟨?_, t.parent_mem node hmem⟩
          intro heq
          by_cases hroot : node = CleanPath.root
          · rw [hroot] at heq
            exact h.2.2 heq.symm
          · have hentry : node ∈ t.entries d := Finset.mem_filter.mpr ⟨hmem, hroot, heq⟩
            rw [h.2.1] at hentry
            simp at hentry
        disjoint := t.disjoint.mono_left (Finset.erase_subset d t.dirs) }
  else none

/-- Remove a file. -/
def removeFile (f : CleanPath) : Option FileTree :=
  if f ∈ t.files then
    some
      { dirs := t.dirs
        files := t.files.erase f
        root_mem := t.root_mem
        parent_mem := fun node hnode =>
          t.parent_mem node (Finset.union_subset_union_right (Finset.erase_subset f t.files) hnode)
        disjoint := t.disjoint.mono_right (Finset.erase_subset f t.files) }
  else none

/-- The largest number of segments that a path has. -/
def depth : ℕ :=
  (t.dirs ∪ t.files).sup fun node => node.segments.length

variable {t} {t' : FileTree} {d node : CleanPath}

theorem fileExists_iff : t.fileExists node = true ↔ node ∈ t.dirs ∨ node ∈ t.files := by
  simp [fileExists]

theorem mem_entries : node ∈ t.entries d ↔ (node ∈ t.dirs ∨ node ∈ t.files) ∧ node.IsEntryOf d := by
  simp [entries]

theorem rmdir_eq_some (h : t.rmdir d = some t') :
    (d ∈ t.dirs ∧ t.entries d = ∅ ∧ d ≠ CleanPath.root) ∧ t'.dirs = t.dirs.erase d ∧
      t'.files = t.files := by
  unfold rmdir at h
  split at h
  · rename_i hempty
    rw [Option.some.injEq] at h
    rw [← h]
    exact ⟨hempty, rfl, rfl⟩
  · simp at h

theorem rmdir_ne_none (hmem : d ∈ t.dirs) (hentries : t.entries d = ∅)
    (hroot : d ≠ CleanPath.root) : ∃ t', t.rmdir d = some t' := by
  unfold rmdir
  rw [dif_pos ⟨hmem, hentries, hroot⟩]
  simp

theorem removeFile_eq_some (h : t.removeFile node = some t') :
    node ∈ t.files ∧ t'.dirs = t.dirs ∧ t'.files = t.files.erase node := by
  unfold removeFile at h
  split at h
  · rename_i hmem
    rw [Option.some.injEq] at h
    rw [← h]
    exact ⟨hmem, rfl, rfl⟩
  · simp at h

/-- The directories on the way to a node are there. -/
theorem mem_dirs_of_isBelow (hnode : node ∈ t.dirs ∪ t.files) (h : node.IsBelow d) (hne : node ≠ d) :
    d ∈ t.dirs := by
  have hlength : ∀ n (node : CleanPath), node.segments.length = n → node ∈ t.dirs ∪ t.files →
      node.IsBelow d → node ≠ d → d ∈ t.dirs := by
    intro n
    induction n with
    | zero =>
        intro node hn _ hbelow hne
        exact absurd (CleanPath.eq_root_iff.mpr (List.length_eq_zero_iff.mp hn))
          ((CleanPath.isBelow_iff_parent hne).mp hbelow).1
    | succ n ih =>
        intro node hn hnode hbelow hne
        have hparent := t.parent_mem node hnode
        by_cases heq : node.parent = d
        · rwa [← heq]
        · apply ih node.parent ?_ (Finset.mem_union_left _ hparent) ?_ heq
          · simp [CleanPath.parent, hn]
          · exact ((CleanPath.isBelow_iff_parent hne).mp hbelow).2
  exact hlength _ node rfl hnode h hne

/-- Below what is not there is nothing. -/
theorem not_isBelow_of_not_fileExists (hd : t.fileExists d = false) (hnode : t.fileExists node = true) :
    ¬node.IsBelow d := by
  intro hbelow
  have hmem : node ∈ t.dirs ∪ t.files := Finset.mem_union.mpr (fileExists_iff.mp hnode)
  rw [← Bool.not_eq_true, fileExists_iff] at hd
  by_cases heq : node = d
  · rw [heq] at hmem
    exact hd (Finset.mem_union.mp hmem)
  · exact hd (.inl (mem_dirs_of_isBelow hmem hbelow heq))

theorem fileExists_rmdir (h : t.rmdir d = some t') : t'.fileExists d = false := by
  rcases rmdir_eq_some h with ⟨⟨hmem, -, -⟩, hdirs, hfiles⟩
  rw [← Bool.not_eq_true, fileExists_iff, hdirs, hfiles]
  intro hd
  rcases hd with hd | hd
  · exact (Finset.mem_erase.mp hd).1 rfl
  · exact Finset.disjoint_left.mp t.disjoint hmem hd

theorem fileExists_removeFile (h : t.removeFile d = some t') : t'.fileExists d = false := by
  rcases removeFile_eq_some h with ⟨hmem, hdirs, hfiles⟩
  rw [← Bool.not_eq_true, fileExists_iff, hdirs, hfiles]
  intro hd
  rcases hd with hd | hd
  · exact Finset.disjoint_left.mp t.disjoint hd hmem
  · exact (Finset.mem_erase.mp hd).1 rfl

/-- What is below a directory is the directory itself or below one of its entries. -/
theorem exists_entry_of_isBelow (hnode : t.fileExists node = true) (hbelow : node.IsBelow d)
    (hne : node ≠ d) : ∃ entry, entry ∈ t.entries d ∧ node.IsBelow entry := by
  have hlength : ∀ n (node : CleanPath), node.segments.length = n → t.fileExists node = true →
      node.IsBelow d → node ≠ d → ∃ entry, entry ∈ t.entries d ∧ node.IsBelow entry := by
    intro n
    induction n with
    | zero =>
        intro node hn _ hbelow hne
        exact absurd (CleanPath.eq_root_iff.mpr (List.length_eq_zero_iff.mp hn))
          ((CleanPath.isBelow_iff_parent hne).mp hbelow).1
    | succ n ih =>
        intro node hn hnode hbelow hne
        have hparent := (CleanPath.isBelow_iff_parent hne).mp hbelow
        by_cases heq : node.parent = d
        · exact ⟨node, mem_entries.mpr ⟨fileExists_iff.mp hnode, hparent.1, heq⟩,
            CleanPath.isBelow_refl node⟩
        · have hmem := t.parent_mem node (Finset.mem_union.mpr (fileExists_iff.mp hnode))
          rcases ih node.parent (by simp [CleanPath.parent, hn]) (fileExists_iff.mpr (.inl hmem))
            hparent.2 heq with ⟨entry, hentry, hentryBelow⟩
          exact ⟨entry, hentry, (CleanPath.isBelow_parent node).trans hentryBelow⟩
  exact hlength _ node rfl hnode hbelow hne

/-- No file has a path that is that of a directory or below it. -/
def FileFree (t : FileTree) (d : CleanPath) : Prop :=
  ∀ f, f ∈ t.files → ¬f.IsBelow d

theorem FileFree.mono (h : t.FileFree d) (hbelow : node.IsBelow d) : t.FileFree node :=
  fun f hf hfnode => h f hf (hfnode.trans hbelow)

theorem not_fileFree_of_mem (h : node ∈ t.files) : ¬t.FileFree node :=
  fun hfree => hfree node h (CleanPath.isBelow_refl node)

theorem fileFree_iff_entries (hd : d ∉ t.files) :
    t.FileFree d ↔ ∀ entry, entry ∈ t.entries d → t.FileFree entry := by
  constructor
  · intro h entry hentry
    exact h.mono (mem_entries.mp hentry).2.isBelow
  · intro h f hf hbelow
    have hne : f ≠ d := fun heq => hd (heq ▸ hf)
    rcases exists_entry_of_isBelow (fileExists_iff.mpr (.inr hf)) hbelow hne with
      ⟨entry, hentry, hfentry⟩
    exact h entry hentry f hf hfentry

/-! ## What is lost and what is left -/

/-- Nothing is lost but what a predicate allows. -/
structure Loses (P : CleanPath → Prop) (t t' : FileTree) : Prop where
  dirs : t'.dirs ⊆ t.dirs
  files : t'.files ⊆ t.files
  lostDirs : ∀ node, node ∈ t.dirs → node ∉ t'.dirs → P node
  lostFiles : ∀ node, node ∈ t.files → node ∉ t'.files → P node

namespace Loses

variable {P P' : CleanPath → Prop} {t'' : FileTree}

theorem refl (t : FileTree) : Loses P t t :=
  ⟨Finset.Subset.refl _, Finset.Subset.refl _, fun _ h h' => absurd h h', fun _ h h' => absurd h h'⟩

theorem trans (h : Loses P t t') (h' : Loses P t' t'') : Loses P t t'' where
  dirs := h'.dirs.trans h.dirs
  files := h'.files.trans h.files
  lostDirs node hnode hnode' := by
    by_cases hmem : node ∈ t'.dirs
    · exact h'.lostDirs node hmem hnode'
    · exact h.lostDirs node hnode hmem
  lostFiles node hnode hnode' := by
    by_cases hmem : node ∈ t'.files
    · exact h'.lostFiles node hmem hnode'
    · exact h.lostFiles node hnode hmem

theorem mono (h : Loses P t t') (hP : ∀ node, P node → P' node) : Loses P' t t' :=
  ⟨h.dirs, h.files, fun node hnode hnode' => hP node (h.lostDirs node hnode hnode'),
    fun node hnode hnode' => hP node (h.lostFiles node hnode hnode')⟩

end Loses

theorem loses_rmdir (h : t.rmdir d = some t') : Loses (· = d) t t' := by
  rcases rmdir_eq_some h with ⟨-, hdirs, hfiles⟩
  refine ⟨?_, ?_, ?_, ?_⟩
  · rw [hdirs]
    exact Finset.erase_subset d t.dirs
  · rw [hfiles]
  · intro node hnode hnode'
    by_contra hne
    exact hnode' (hdirs ▸ Finset.mem_erase.mpr ⟨hne, hnode⟩)
  · intro node hnode hnode'
    exact absurd (hfiles ▸ hnode) hnode'

theorem loses_removeFile (h : t.removeFile d = some t') : Loses (· = d) t t' := by
  rcases removeFile_eq_some h with ⟨-, hdirs, hfiles⟩
  refine ⟨?_, ?_, ?_, ?_⟩
  · rw [hdirs]
  · rw [hfiles]
    exact Finset.erase_subset d t.files
  · intro node hnode hnode'
    exact absurd (hdirs ▸ hnode) hnode'
  · intro node hnode hnode'
    by_contra hne
    exact hnode' (hfiles ▸ Finset.mem_erase.mpr ⟨hne, hnode⟩)

/-- Just the files and directories that a predicate keeps are left. -/
structure Kept (keeps : CleanPath → Prop) (t t' : FileTree) : Prop where
  dirs : ∀ node, node ∈ t'.dirs ↔ node ∈ t.dirs ∧ keeps node
  files : ∀ node, node ∈ t'.files ↔ node ∈ t.files ∧ keeps node

namespace Kept

variable {keeps keeps' : CleanPath → Prop} {t'' : FileTree}

theorem refl (h : ∀ node, t.fileExists node = true → keeps node) : Kept keeps t t where
  dirs node := ⟨fun hnode => ⟨hnode, h node (fileExists_iff.mpr (.inl hnode))⟩, fun hnode => hnode.1⟩
  files node :=
    ⟨fun hnode => ⟨hnode, h node (fileExists_iff.mpr (.inr hnode))⟩, fun hnode => hnode.1⟩

theorem trans (h : Kept keeps t t') (h' : Kept keeps' t' t'') :
    Kept (fun node => keeps node ∧ keeps' node) t t'' where
  dirs node := by rw [h'.dirs, h.dirs, and_assoc]
  files node := by rw [h'.files, h.files, and_assoc]

theorem congr (h : Kept keeps t t')
    (heq : ∀ node, t.fileExists node = true → (keeps node ↔ keeps' node)) : Kept keeps' t t' where
  dirs node := by
    rw [h.dirs]
    exact and_congr_right fun hnode => heq node (fileExists_iff.mpr (.inl hnode))
  files node := by
    rw [h.files]
    exact and_congr_right fun hnode => heq node (fileExists_iff.mpr (.inr hnode))

theorem fileExists_iff (h : Kept keeps t t') :
    t'.fileExists node = true ↔ t.fileExists node = true ∧ keeps node := by
  rw [FileTree.fileExists_iff, FileTree.fileExists_iff, h.dirs, h.files, or_and_right]

end Kept

/-- When nothing is lost but what is below something, and this is gone, all that is below is gone. -/
theorem Loses.kept (h : Loses (·.IsBelow d) t t') (hd : t'.fileExists d = false) :
    Kept (fun node => ¬node.IsBelow d) t t' where
  dirs node := by
    constructor
    · intro hnode
      exact ⟨h.dirs hnode, not_isBelow_of_not_fileExists hd (fileExists_iff.mpr (.inl hnode))⟩
    · intro hnode
      by_contra hnot
      exact hnode.2 (h.lostDirs node hnode.1 hnot)
  files node := by
    constructor
    · intro hnode
      exact ⟨h.files hnode, not_isBelow_of_not_fileExists hd (fileExists_iff.mpr (.inr hnode))⟩
    · intro hnode
      by_contra hnot
      exact hnode.2 (h.lostFiles node hnode.1 hnot)

end FileTree

end Qbs
