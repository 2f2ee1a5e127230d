import QbsCore.BuildGraph.ArtifactCleaner

/-!
# The directories that a clean job looks at

A clean job looks at the directories of the artifacts, and at those above them up to the build
directory, each once.  In each of them all directories without files are removed.

Main results:

- Theorem {lit}`ArtifactCleaner.mem_examinedDirectories_iff`: the directories that are looked at.
- Theorem {lit}`ArtifactCleaner.cleanDirectories_eq_ok`: what is gone if there is no error.
- Theorem {lit}`ArtifactCleaner.within_cleanDirectories`: what may be gone if there is one.

Current gaps:

- None.
-/

namespace Qbs

open FileInfo

namespace ArtifactCleaner

variable (cleaner : ArtifactCleaner)

/-- The directories that are still to be looked at, with those that are added on the way. -/
def examinedDirectories : List CleanPath → List CleanPath → List CleanPath
  | _, [] => []
  | dirs, dir :: pending =>
      if !cleaner.buildDirectory.text.isPrefixOf dir.text then
        dir :: examinedDirectories (dirs ++ [dir]) pending
      else
        dir :: examinedDirectories (dirs ++ [dir])
          (pending ++ cleaner.parentDir (dirs ++ dir :: pending) dir)
termination_by _ pending => (pending.map fun d => d.segments.length + 1).sum
decreasing_by
  · simp
  · exact cleaner.length_parentDir dirs pending dir

variable {cleaner} {s s' : CleanState} {dirs pending : List CleanPath} {d dir : CleanPath}

theorem mem_parentDir {dirList : List CleanPath} : d ∈ cleaner.parentDir dirList dir ↔
    (dir ≠ cleaner.buildDirectory ∧ dir.parent ≠ cleaner.buildDirectory ∧ dir.parent ∉ dirList) ∧
      d = dir.parent := by
  unfold parentDir
  split <;> rename_i h
  · simp [h]
  · simp [h]

theorem mem_examinedDirectories_of_mem (h : d ∈ pending) :
    d ∈ cleaner.examinedDirectories dirs pending := by
  induction dirs, pending using examinedDirectories.induct cleaner with
  | case1 dirs => cases h
  | case2 dirs dir pending hwithin ih =>
      rw [examinedDirectories, if_pos hwithin]
      rcases List.mem_cons.mp h with h | h
      · rw [h]
        exact List.mem_cons_self
      · exact List.mem_cons_of_mem dir (ih h)
  | case3 dirs dir pending hwithin ih =>
      rw [examinedDirectories, if_neg hwithin]
      rcases List.mem_cons.mp h with h | h
      · rw [h]
        exact List.mem_cons_self
      · exact List.mem_cons_of_mem dir (ih (List.mem_append_left _ h))

/-- All directories that are looked at are on the way up from the first ones. -/
theorem examinedDirectories_above {start : List CleanPath}
    (hpending : ∀ e, e ∈ pending →
      ∃ p, p ∈ start ∧ p.IsBelow e ∧ (e = p ∨ e ≠ cleaner.buildDirectory))
    (h : d ∈ cleaner.examinedDirectories dirs pending) :
    ∃ p, p ∈ start ∧ p.IsBelow d ∧ (d = p ∨ d ≠ cleaner.buildDirectory) := by
  induction dirs, pending using examinedDirectories.induct cleaner with
  | case1 dirs => simp [examinedDirectories] at h
  | case2 dirs dir pending hwithin ih =>
      rw [examinedDirectories, if_pos hwithin] at h
      rcases List.mem_cons.mp h with h | h
      · rw [h]
        exact hpending dir List.mem_cons_self
      · exact ih (fun e he => hpending e (List.mem_cons_of_mem dir he)) h
  | case3 dirs dir pending hwithin ih =>
      rw [examinedDirectories, if_neg hwithin] at h
      rcases List.mem_cons.mp h with h | h
      · rw [h]
        exact hpending dir List.mem_cons_self
      · refine ih (fun e he => ?_) h
        rcases List.mem_append.mp he with he | he
        · exact hpending e (List.mem_cons_of_mem dir he)
        · rw [mem_parentDir] at he
          rcases hpending dir List.mem_cons_self with ⟨p, hp, hbelow, -⟩
          rw [he.2]
          exact ⟨p, hp, hbelow.trans (CleanPath.isBelow_parent dir), .inr he.1.2.1⟩

/-- With a directory also the one that it is in is looked at. -/
theorem parent_mem_examinedDirectories (h : d ∈ cleaner.examinedDirectories dirs pending)
    (hwithin : cleaner.buildDirectory.text <+: d.text) (hne : d ≠ cleaner.buildDirectory)
    (hparent : d.parent ≠ cleaner.buildDirectory) :
    d.parent ∈ dirs ∨ d.parent ∈ cleaner.examinedDirectories dirs pending := by
  induction dirs, pending using examinedDirectories.induct cleaner with
  | case1 dirs => simp [examinedDirectories] at h
  | case2 dirs dir pending hnot ih =>
      rw [examinedDirectories, if_pos hnot] at h ⊢
      rcases List.mem_cons.mp h with h | h
      · rw [← h] at hnot
        simp [List.isPrefixOf_iff_prefix.mpr hwithin] at hnot
      · rcases ih h with hmem | hmem
        · rcases List.mem_append.mp hmem with hmem | hmem
          · exact .inl hmem
          · exact .inr (List.mem_cons.mpr (.inl (List.mem_singleton.mp hmem)))
        · exact .inr (List.mem_cons_of_mem dir hmem)
  | case3 dirs dir pending hnot ih =>
      rw [examinedDirectories, if_neg hnot] at h ⊢
      rcases List.mem_cons.mp h with h | h
      · rw [← h]
        by_cases hmem : d.parent ∈ dirs ++ d :: pending
        · rcases List.mem_append.mp hmem with hmem | hmem
          · exact .inl hmem
          · rcases List.mem_cons.mp hmem with hmem | hmem
            · exact .inr (List.mem_cons.mpr (.inl hmem))
            · exact .inr (List.mem_cons_of_mem d
                (mem_examinedDirectories_of_mem (List.mem_append_left _ hmem)))
        · exact .inr (List.mem_cons_of_mem d (mem_examinedDirectories_of_mem
            (List.mem_append_right _ (mem_parentDir.mpr ⟨⟨hne, hparent, hmem⟩, rfl⟩))))
      · rcases ih h with hmem | hmem
        · rcases List.mem_append.mp hmem with hmem | hmem
          · exact .inl hmem
          · exact .inr (List.mem_cons.mpr (.inl (List.mem_singleton.mp hmem)))
        · exact .inr (List.mem_cons_of_mem dir hmem)

/-- Up to the build directory, all directories above the first ones are looked at. -/
theorem mem_examinedDirectories_iff {start : List CleanPath}
    (hwithin : cleaner.buildDirectory.text <+: d.text) :
    d ∈ cleaner.examinedDirectories [] start ↔
      ∃ p, p ∈ start ∧ p.IsBelow d ∧ (d = p ∨ d ≠ cleaner.buildDirectory) := by
  constructor
  · refine examinedDirectories_above fun e he => ?_
    exact ⟨e, he, CleanPath.isBelow_refl e, .inl rfl⟩
  · rintro ⟨p, hp, hbelow, hne⟩
    by_cases heq : d = p
    · rw [heq]
      exact mem_examinedDirectories_of_mem hp
    · -- the directories between the two are looked at one after the other
      have hup : ∀ n (q : CleanPath), q.segments.length = d.segments.length + n → q.IsBelow d →
          q ∈ cleaner.examinedDirectories [] start →
            d ∈ cleaner.examinedDirectories [] start := by
        have hd := hne.resolve_left heq
        have hbetween : ∀ q : CleanPath, q.IsBelow d → q ≠ cleaner.buildDirectory := by
          intro q hq hbuild
          rw [hbuild] at hq
          refine hd (CleanPath.text_injective ?_)
          exact List.IsPrefix.eq_of_length_le hq.text_prefix hwithin.length_le
        intro n
        induction n with
        | zero =>
            intro q hlength hq hmem
            rwa [CleanPath.ext_segments (List.IsPrefix.eq_of_length hq (by omega))]
        | succ n ih =>
            intro q hlength hq hmem
            have hqd : q ≠ d := by
              intro heq
              rw [heq] at hlength
              omega
            have hparent := (CleanPath.isBelow_iff_parent hqd).mp hq
            refine ih q.parent ?_ hparent.2 ?_
            · simp [CleanPath.parent, hlength]
            · exact (parent_mem_examinedDirectories hmem (hwithin.trans hq.text_prefix)
                (hbetween q hq) (hbetween q.parent hparent.2)).resolve_left List.not_mem_nil
      have hle := hbelow.length_le
      exact hup (p.segments.length - d.segments.length) p (by omega) hbelow
        (mem_examinedDirectories_of_mem hp)

/-! ## The removal of the directories -/

/-- What is there after its removal without errors was a directory. -/
theorem mem_dirs_of_removeEmptyDirectories {fuel : ℕ} {b : Bool}
    (h : (cleaner.removeEmptyDirectories fuel d).outcome s = (.ok b, s'))
    (herror : s'.hasError = false) : d ∈ s.tree.dirs := by
  by_contra hnot
  cases fuel with
  | zero => simp [removeEmptyDirectories] at h
  | succ fuel =>
      have hentries : s.tree.entries d = ∅ := by
        ext entry
        simp only [Finset.notMem_empty, iff_false]
        intro hentry
        have hmem := FileTree.mem_entries.mp hentry
        exact hnot (FileTree.mem_dirs_of_isBelow (Finset.mem_union.mpr hmem.1) hmem.2.isBelow
          hmem.2.ne)
      have hlisting : cleaner.disk.listing ∅ = [] := by
        rw [List.eq_nil_iff_forall_not_mem]
        intro entry hentry
        simpa using (cleaner.disk.mem_listing ∅ entry).mp hentry
      have hrmdir : cleaner.disk.rmdir s.tree d = none := by
        rw [Option.eq_none_iff_forall_ne_some]
        intro tree htree
        exact hnot (FileTree.rmdir_eq_some (DiskAccess.rmdir_eq_some htree)).1.1
      rw [removeEmptyDirectories, StateOp.outcome_query_bind, hentries, hlisting,
        removeEmptyEntries, StateOp.outcome_bind, StateOp.outcome_pure] at h
      simp only [↓reduceIte, removeEmptyDirectory, StateOp.outcome_transform, hrmdir] at h
      split at h
      · simp at h
      · rw [Prod.mk.injEq] at h
        rw [← h.2] at herror
        simp at herror

/-- What is removed for a list of directories is below one of those that are looked at. -/
theorem within_cleanDirectories (dirs pending : List CleanPath) :
    StateOp.Within (Descends fun node => ∃ d, (d ∈ cleaner.examinedDirectories dirs pending ∧
      cleaner.buildDirectory.text <+: d.text) ∧ node.IsBelow d)
      (cleaner.cleanDirectories dirs pending) := by
  induction dirs, pending using examinedDirectories.induct cleaner with
  | case1 dirs =>
      rw [cleanDirectories]
      exact StateOp.Within.pure Descends.refl ()
  | case2 dirs dir pending hwithin ih =>
      rw [cleanDirectories, examinedDirectories, if_pos hwithin, if_pos hwithin]
      refine ih.mono fun _ _ h => h.mono fun node hnode => ?_
      exact hnode.imp fun d hd => ⟨⟨List.mem_cons_of_mem dir hd.1.1, hd.1.2⟩, hd.2⟩
  | case3 dirs dir pending hwithin ih =>
      rw [cleanDirectories, examinedDirectories, if_neg hwithin, if_neg hwithin]
      have hstarts : cleaner.buildDirectory.text <+: dir.text := by simpa using hwithin
      refine StateOp.Within.bind Descends.trans (StateOp.Within.query Descends.refl _) fun found => ?_
      refine StateOp.Within.bind Descends.trans ?_ fun _ => ?_
      · split
        · refine (within_removeEmptyDirectories found.2 dir).mono fun _ _ h => ?_
          exact h.mono fun node hnode => ⟨dir, ⟨List.mem_cons_self, hstarts⟩, hnode⟩
        · exact StateOp.Within.pure Descends.refl true
      · refine ih.mono fun _ _ h => h.mono fun node hnode => ?_
        exact hnode.imp fun d hd => ⟨⟨List.mem_cons_of_mem dir hd.1.1, hd.1.2⟩, hd.2⟩

/-- If there is no error, the directories without files in those that are looked at are gone. -/
theorem cleanDirectories_eq_ok
    (h : (cleaner.cleanDirectories dirs pending).outcome s = (.ok (), s'))
    (herror : s'.hasError = false) :
    EmptiedIn (fun d => d ∈ cleaner.examinedDirectories dirs pending ∧
      cleaner.buildDirectory.text <+: d.text) s.tree s'.tree := by
  induction dirs, pending using examinedDirectories.induct cleaner
    generalizing s with
  | case1 dirs =>
      rw [cleanDirectories, StateOp.outcome_pure, Prod.mk.injEq] at h
      rw [← h.2]
      exact FileTree.Kept.refl (by simp [examinedDirectories])
  | case2 dirs dir pending hwithin ih =>
      rw [cleanDirectories, if_pos hwithin] at h
      rw [examinedDirectories, if_pos hwithin]
      refine (ih h).congr fun node _ => ?_
      have hnot : ¬cleaner.buildDirectory.text <+: dir.text := by
        simpa [← List.isPrefixOf_iff_prefix] using hwithin
      simp only [List.mem_cons, and_assoc, or_and_right, exists_or, exists_eq_left, hnot, false_and,
        false_or]
  | case3 dirs dir pending hwithin ih =>
      rw [cleanDirectories, if_neg hwithin, StateOp.outcome_query_bind,
        StateOp.outcome_bind_eq_ok] at h
      rw [examinedDirectories, if_neg hwithin]
      have hstarts : cleaner.buildDirectory.text <+: dir.text := by simpa using hwithin
      rcases h with ⟨b, s₁, hfirst, hrest⟩
      have herror₁ := Descends.hasError_eq_false (within_cleanDirectories _ _) hrest herror
      have hemptied : EmptiedIn (· = dir) s.tree s₁.tree := by
        by_cases hexists : s.tree.fileExists dir = true
        · rw [if_pos hexists] at hfirst
          exact (removeEmptyDirectories_eq_ok
            (mem_dirs_of_removeEmptyDirectories hfirst herror₁) hfirst herror₁).1
        · rw [if_neg hexists, StateOp.outcome_pure, Prod.mk.injEq] at hfirst
          rw [← hfirst.2]
          refine FileTree.Kept.refl fun node hnode => ?_
          rintro ⟨⟨_, rfl, hbelow⟩, -⟩
          exact FileTree.not_isBelow_of_not_fileExists (by simpa using hexists) hnode hbelow
      refine (hemptied.trans (ih hrest)).congr fun node _ => ?_
      simp only [List.mem_cons, and_assoc, or_and_right, exists_or, exists_eq_left, hstarts,
        true_and]

end ArtifactCleaner

end Qbs
