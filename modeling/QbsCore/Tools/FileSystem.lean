import Mathlib.Data.List.Nodup
import QbsCore.Tools.CleanPaths

/-!
# Directory trees

The directories of a file system with their entries, without symbolic links.  A directory is
reached at a place: it has a position in the tree, and the text of the path that was taken to
get there.  That may contain dots.

Main results:

- Definition {lit}`FileSystem.below`: the directories that a recursive iteration visits.
- Theorem {lit}`FileSystem.mem_below_iff`: these are the ones that can be reached going down.
- Theorem {lit}`eq_of_cleanPath_entryPath`: the path to a file tells where it is.
- Definition {lit}`FileSystem.withFile`: a tree with a new file.

Current gaps:

- Permissions, devices and the like are left out.
-/

namespace Qbs

/-- The entries of each directory: their names, and whether they are directories themselves. What is
not a directory has none. -/
structure FileSystem where
  entries : List PathText → List (PathText × Bool)
  depth : Nat
  isName : ∀ dir e, e ∈ entries dir → FileInfo.IsName e.1
  nodup : ∀ dir, ((entries dir).map Prod.fst).Nodup
  length_lt : ∀ dir, entries dir ≠ [] → dir.length < depth

/-- A directory, and the text of a path to it. -/
structure Place where
  text : PathText
  position : List PathText
deriving DecidableEq

def isHidden (name : PathText) : Bool :=
  name.head? = some '.'

/-- The text of the path to an entry. -/
def entryPath (text name : PathText) : PathText :=
  if text = ['/'] then '/' :: name else text ++ '/' :: name

/-- An entry that is a directory. -/
def Place.child (base : Place) (name : PathText) : Place :=
  ⟨entryPath base.text name, base.position ++ [name]⟩

theorem prefix_entryPath (text name : PathText) : text <+: entryPath text name := by
  unfold entryPath
  split_ifs with h
  · rw [h]
    exact ⟨name, rfl⟩
  · exact List.prefix_append _ _

/-- The place of a directory that is reached on a clean path. -/
def placeOf (path : FileInfo.CleanPath) : Place :=
  ⟨path.text, path.segments⟩

/-- The path to an entry of a directory with names is what it should be. -/
theorem entryPath_pathOf {position : List PathText} (h : ∀ s ∈ position, FileInfo.IsName s)
    (name : PathText) :
    entryPath (FileInfo.pathOf position) name = FileInfo.pathOf (position ++ [name]) := by
  unfold entryPath FileInfo.pathOf
  rw [if_neg (List.append_ne_nil_of_right_ne_nil _ (List.cons_ne_nil _ _)),
    Segments.joined_append]
  by_cases hnil : position = []
  · rw [if_pos hnil, if_pos rfl, hnil]
    simp
  · rw [if_neg hnil, if_neg]
    · simp
    · intro heq
      rcases List.exists_cons_of_ne_nil hnil with ⟨s, rest, rfl⟩
      rw [Segments.joined_cons] at heq
      have hs := (List.cons.inj heq).2
      rw [List.append_eq_nil_iff] at hs
      exact (h s List.mem_cons_self).nonempty hs.1

/-- A path to an entry that is a directory. -/
def childPath (path : FileInfo.CleanPath) (name : PathText) (h : FileInfo.IsName name) :
    FileInfo.CleanPath :=
  ⟨path.segments ++ [name], fun s hs => by
    rcases List.mem_append.mp hs with hs | hs
    · exact path.names s hs
    · rw [List.mem_singleton.mp hs]
      exact h⟩

variable {name text : PathText}

theorem placeOf_childPath {path : FileInfo.CleanPath} (h : FileInfo.IsName name) :
    placeOf (childPath path name h) = (placeOf path).child name :=
  congrArg (Place.mk · _) (entryPath_pathOf path.names name).symm

theorem length_lt_entryPath (h : FileInfo.IsName name) :
    text.length < (entryPath text name).length := by
  have hname := List.length_pos_iff.mpr h.nonempty
  unfold entryPath
  split_ifs with hroot
  · rw [hroot, List.length_cons, List.length_cons, List.length_nil]
    omega
  · rw [List.length_append, List.length_cons]
    omega

/-! ## Where a path leads -/

/-- The text of the path to a directory leads to its position. It may go up from the root directory,
which is without effect. -/
structure Place.Proper (p : Place) : Prop where
  names : ∀ s ∈ p.position, FileInfo.IsName s
  isAbsolute : FileInfo.isAbsolute p.text = true
  leads : ∃ k, FileInfo.normalized (p.text.splitOn '/') = List.replicate k dotDot ++ p.position

theorem proper_placeOf (path : FileInfo.CleanPath) : (placeOf path).Proper := by
  refine ⟨path.names, FileInfo.isAbsolute_pathOf path.segments, 0, ?_⟩
  show FileInfo.normalized ((FileInfo.pathOf path.segments).splitOn '/') = path.segments
  unfold FileInfo.normalized
  rw [FileInfo.foldl_pushSegment_splitOn_pathOf path.separated,
    FileInfo.foldl_pushSegment_reduced path.reduced, List.reverse_reverse]

/-- One more segment at the end of a text. -/
theorem normalized_entryPath {s : PathText} (hs : '/' ∉ s) :
    FileInfo.normalized ((entryPath text s).splitOn '/') =
      (FileInfo.pushSegment (FileInfo.normalized (text.splitOn '/')).reverse s).reverse := by
  unfold entryPath FileInfo.normalized
  rw [List.reverse_reverse]
  split_ifs with hroot
  · rw [hroot, List.splitOn_cons_eq_if_modifyHead, if_pos (beq_self_eq_true _),
      List.splitOn_eq_singleton hs]
    rfl
  · rw [List.splitOn_append_cons_self, List.splitOn_eq_singleton hs, List.foldl_append]
    rfl

theorem isAbsolute_entryPath {s : PathText} (h : FileInfo.isAbsolute text = true) :
    FileInfo.isAbsolute (entryPath text s) = true := by
  rcases prefix_entryPath text s with ⟨rest, hrest⟩
  rw [← hrest]
  cases text with
  | nil => cases h
  | cons c text => exact h

theorem Place.Proper.child {p : Place} (h : p.Proper) (hname : FileInfo.IsName name) :
    (p.child name).Proper := by
  rcases h.leads with ⟨k, hk⟩
  refine ⟨fun s hs => ?_, isAbsolute_entryPath h.isAbsolute, k, ?_⟩
  · rcases List.mem_append.mp hs with hs | hs
    · exact h.names s hs
    · rw [List.mem_singleton.mp hs]
      exact hname
  · show FileInfo.normalized ((entryPath p.text name).splitOn '/') = _ ++ (p.position ++ [name])
    rw [normalized_entryPath hname.noSlash, FileInfo.pushSegment_name hname, hk,
      List.reverse_cons, List.reverse_reverse, List.append_assoc]

theorem Place.Proper.dot {p : Place} (h : p.Proper) :
    Place.Proper ⟨entryPath p.text ['.'], p.position⟩ := by
  rcases h.leads with ⟨k, hk⟩
  refine ⟨h.names, isAbsolute_entryPath h.isAbsolute, k, ?_⟩
  show FileInfo.normalized ((entryPath p.text ['.']).splitOn '/') = _
  rw [normalized_entryPath (by decide)]
  unfold FileInfo.pushSegment
  rw [if_pos (Or.inr rfl), List.reverse_reverse]
  exact hk

/-- Above the root directory there is nothing. -/
theorem pushSegment_dotDot_replicate (k : Nat) :
    FileInfo.pushSegment (List.replicate k dotDot) dotDot = List.replicate (k + 1) dotDot := by
  cases k with
  | zero => rfl
  | succ k => rfl

theorem pushSegment_dotDot_cons (h : FileInfo.IsName name) (stack : List PathText) :
    FileInfo.pushSegment (name :: stack) dotDot = stack := by
  unfold FileInfo.pushSegment
  rw [if_neg (by decide), if_pos rfl]
  exact if_neg h.notDotDot

theorem Place.Proper.dotDot {p : Place} (h : p.Proper) :
    Place.Proper ⟨entryPath p.text Qbs.dotDot, p.position.dropLast⟩ := by
  rcases h.leads with ⟨k, hk⟩
  refine ⟨fun s hs => h.names s (List.dropLast_subset _ hs), isAbsolute_entryPath h.isAbsolute, ?_⟩
  show ∃ k, FileInfo.normalized ((entryPath p.text Qbs.dotDot).splitOn '/') = _
  rw [normalized_entryPath FileInfo.slash_notMem_dotDot, hk, List.reverse_append,
    List.reverse_replicate]
  rcases List.eq_nil_or_concat p.position with hnil | ⟨before, name, hposition⟩
  · refine ⟨k + 1, ?_⟩
    rw [hnil, List.reverse_nil, List.nil_append, pushSegment_dotDot_replicate,
      List.reverse_replicate, List.dropLast_nil, List.append_nil]
  · rw [List.concat_eq_append] at hposition
    have hname := h.names name (by
      rw [hposition]
      exact List.mem_append_right _ (List.mem_singleton_self name))
    refine ⟨k, ?_⟩
    rw [hposition, List.reverse_append, List.reverse_singleton, List.dropLast_concat,
      List.singleton_append, List.cons_append, pushSegment_dotDot_cons hname, List.reverse_append,
      List.reverse_replicate, List.reverse_reverse]

/-- The path to a file of a directory tells where it is. -/
theorem eq_of_cleanPath_entryPath {p q : Place} (hp : p.Proper) (hq : q.Proper)
    {n m : PathText} (hn : FileInfo.IsName n) (hm : FileInfo.IsName m)
    (h : FileInfo.cleanPath (entryPath p.text n) = FileInfo.cleanPath (entryPath q.text m)) :
    p.position = q.position ∧ n = m := by
  have hsegments {p : Place} (hp : p.Proper) {n : PathText} (hn : FileInfo.IsName n) :
      FileInfo.cleanPath (entryPath p.text n) =
          FileInfo.pathOf (FileInfo.normalized ((entryPath p.text n).splitOn '/')) ∧
        (FileInfo.normalized ((entryPath p.text n).splitOn '/')).filter
          (fun s => s ≠ dotDot) = p.position ++ [n] := by
    refine ⟨FileInfo.cleanPath_of_isAbsolute (isAbsolute_entryPath hp.isAbsolute), ?_⟩
    have hchild := hp.child hn
    rcases hchild.leads with ⟨k, hk⟩
    have hk : FileInfo.normalized ((entryPath p.text n).splitOn '/') =
      List.replicate k dotDot ++ (p.position ++ [n]) := hk
    rw [hk, List.filter_append, List.filter_eq_nil_iff.mpr, List.nil_append,
      List.filter_eq_self.mpr]
    · exact fun s hs => decide_eq_true (hchild.names s hs).notDotDot
    · intro s hs
      rw [List.eq_of_mem_replicate hs]
      decide
  rcases hsegments hp hn with ⟨hpath, hfilter⟩
  rcases hsegments hq hm with ⟨hpath', hfilter'⟩
  rw [hpath, hpath'] at h
  have heq := FileInfo.pathOf_injective
    (FileInfo.reduced_normalized (Segments.separated_splitOn _))
    (FileInfo.reduced_normalized (Segments.separated_splitOn _)) h
  rw [heq, hfilter'] at hfilter
  rcases List.append_inj' hfilter rfl with ⟨hposition, hname⟩
  exact ⟨hposition.symm, (List.cons.inj hname).1.symm⟩

namespace FileSystem

theorem mem_of_lookup {α β : Type} [BEq α] [LawfulBEq α] {l : List (α × β)} {a : α} {b : β}
    (h : l.lookup a = some b) : (a, b) ∈ l := by
  rcases List.lookup_eq_some_iff.mp h with ⟨before, after, rfl, -⟩
  exact List.mem_append_right _ List.mem_cons_self

variable (fs : FileSystem)

/-- The directories that a recursive iteration visits. It leaves out hidden ones if they are not
asked for. -/
def below (hidden : Bool) : Nat → Place → List Place
  | 0, base => [base]
  | n + 1, base =>
      base :: (fs.entries base.position).flatMap fun e =>
        if e.2 && (hidden || !isHidden e.1) then below hidden n (base.child e.1) else []

/-- A directory can be reached going down from another one. -/
inductive Below (hidden : Bool) : Place → Place → Prop
  | refl (base : Place) : Below hidden base base
  | step {base d : Place} {name : PathText} : (name, true) ∈ fs.entries base.position →
      (hidden || !isHidden name) = true → Below hidden (base.child name) d → Below hidden base d

variable {fs} {hidden : Bool} {base d d' : Place}

theorem Below.trans (h : fs.Below hidden base d) (h' : fs.Below hidden d d') :
    fs.Below hidden base d' := by
  induction h with
  | refl base => exact h'
  | step hentry hvisible _ ih => exact Below.step hentry hvisible (ih h')

theorem Below.prefix_text (h : fs.Below hidden base d) : base.text <+: d.text := by
  induction h with
  | refl base => exact List.prefix_rfl
  | step _ _ _ ih => exact (prefix_entryPath _ _).trans ih

theorem below_of_mem {n : Nat} (h : d ∈ fs.below hidden n base) : fs.Below hidden base d := by
  induction n generalizing base with
  | zero =>
      rw [List.mem_singleton.mp h]
      exact Below.refl base
  | succ n ih =>
      unfold below at h
      rcases List.mem_cons.mp h with rfl | h
      · exact Below.refl d
      · rcases List.mem_flatMap.mp h with ⟨⟨name, isDir⟩, he, hd⟩
        split_ifs at hd with hdescend
        · rw [Bool.and_eq_true] at hdescend
          cases hdescend.1
          exact Below.step he hdescend.2 (ih hd)
        · cases hd

theorem mem_below_of_below (h : fs.Below hidden base d) {n : Nat}
    (hn : fs.depth ≤ base.position.length + n) : d ∈ fs.below hidden n base := by
  induction h generalizing n with
  | refl base =>
      cases n with
      | zero => exact List.mem_singleton_self _
      | succ n => exact List.mem_cons_self
  | @step base d name hentry hvisible _ ih =>
      have hlt := fs.length_lt base.position (List.ne_nil_of_mem hentry)
      cases n with
      | zero => omega
      | succ n =>
          unfold below
          refine List.mem_cons_of_mem _ (List.mem_flatMap.mpr ⟨(name, true), hentry, ?_⟩)
          rw [if_pos (by rw [Bool.true_and]; exact hvisible)]
          refine ih ?_
          show fs.depth ≤ (base.position ++ [name]).length + n
          rw [List.length_append, List.length_singleton]
          omega

/-- A recursive iteration visits what can be reached going down. -/
theorem mem_below_iff : d ∈ fs.below hidden fs.depth base ↔ fs.Below hidden base d :=
  ⟨below_of_mem, fun h => mem_below_of_below h (Nat.le_add_left _ _)⟩

/-- Only the directory itself has a path of the same length. -/
theorem Below.eq_of_text_eq (h : fs.Below hidden base d) (htext : d.text = base.text) :
    d = base := by
  cases h with
  | refl base => rfl
  | @step base d name hentry _ hbelow =>
      have hbegins : entryPath base.text name <+: d.text := hbelow.prefix_text
      have hname : FileInfo.IsName name := fs.isName _ _ hentry
      have hlt : base.text.length < (entryPath base.text name).length :=
        length_lt_entryPath hname
      have hle := hbegins.length_le
      rw [htext] at hle
      omega

/-! ## Files that come and go -/

/-- Two trees have the same directories. -/
def SameDirectories (fs fs' : FileSystem) : Prop :=
  ∀ dir name, (name, true) ∈ fs.entries dir ↔ (name, true) ∈ fs'.entries dir

theorem SameDirectories.symm {fs' : FileSystem} (h : fs.SameDirectories fs') :
    fs'.SameDirectories fs :=
  fun dir name => (h dir name).symm

theorem SameDirectories.trans {fs' fs'' : FileSystem} (h : fs.SameDirectories fs')
    (h' : fs'.SameDirectories fs'') : fs.SameDirectories fs'' :=
  fun dir name => (h dir name).trans (h' dir name)

/-- A name stands for a directory or for a file. -/
theorem notMem_of_mem {dir : List PathText} {name : PathText} (h : (name, true) ∈ fs.entries dir) :
    (name, false) ∉ fs.entries dir := by
  intro h'
  cases List.inj_on_of_nodup_map (fs.nodup dir) h h' rfl

/-- A new file in a directory. -/
def withFile (fs : FileSystem) (dir : List PathText) (name : PathText)
    (hname : FileInfo.IsName name) (hnew : ∀ isDir, (name, isDir) ∉ fs.entries dir) :
    FileSystem where
  entries position :=
    if position = dir then (name, false) :: fs.entries dir else fs.entries position
  depth := max fs.depth (dir.length + 1)
  isName position e he := by
    split_ifs at he with hposition
    · rcases List.mem_cons.mp he with rfl | he
      · exact hname
      · exact fs.isName dir e he
    · exact fs.isName position e he
  nodup position := by
    split_ifs with hposition
    · refine List.nodup_cons.mpr ⟨fun hmem => ?_, fs.nodup dir⟩
      rcases List.mem_map.mp hmem with ⟨⟨name', isDir⟩, he, rfl⟩
      exact hnew isDir he
    · exact fs.nodup position
  length_lt position hne := by
    split_ifs at hne with hposition
    · rw [hposition]
      omega
    · have hlt := fs.length_lt position hne
      omega

theorem mem_withFile_iff {dir position : List PathText} {name : PathText}
    {hname : FileInfo.IsName name} {hnew : ∀ isDir, (name, isDir) ∉ fs.entries dir}
    {e : PathText × Bool} : e ∈ (fs.withFile dir name hname hnew).entries position ↔
      e ∈ fs.entries position ∨ position = dir ∧ e = (name, false) := by
  unfold withFile
  dsimp only
  split_ifs with hposition
  · rw [List.mem_cons, hposition, and_iff_right rfl, or_comm]
  · rw [or_iff_left fun h => hposition h.1]

theorem sameDirectories_withFile {dir : List PathText} {name : PathText}
    (hname : FileInfo.IsName name) (hnew : ∀ isDir, (name, isDir) ∉ fs.entries dir) :
    fs.SameDirectories (fs.withFile dir name hname hnew) := by
  intro position other
  rw [mem_withFile_iff, or_iff_left]
  rintro ⟨-, h⟩
  cases h

/-- There is a file with a path. -/
structure HasFile (fs : FileSystem) (path : List PathText) : Prop where
  nonempty : path ≠ []
  entry : ∀ before name after, path = before ++ name :: after →
    (name, decide (after ≠ [])) ∈ fs.entries before

/-- The directories that are listed with their entries, and no others. -/
def ofList (dirs : List (List PathText × List (PathText × Bool)))
    (h : ∀ dir ∈ dirs, (∀ e ∈ dir.2, FileInfo.IsName e.1) ∧ (dir.2.map Prod.fst).Nodup) :
    FileSystem where
  entries position := (dirs.lookup position).getD []
  depth := (dirs.map fun dir => dir.1.length + 1).max?.getD 0
  isName position e he := by
    cases hlookup : dirs.lookup position with
    | none =>
        rw [hlookup] at he
        cases he
    | some es =>
        rw [hlookup] at he
        exact (h _ (mem_of_lookup hlookup)).1 e he
  nodup position := by
    cases hlookup : dirs.lookup position with
    | none => exact List.nodup_nil
    | some es => exact (h _ (mem_of_lookup hlookup)).2
  length_lt position hne := by
    cases hlookup : dirs.lookup position with
    | none =>
        rw [hlookup] at hne
        exact absurd rfl hne
    | some es =>
        exact List.le_max?_getD_of_mem (List.mem_map_of_mem (mem_of_lookup hlookup))

end FileSystem

end Qbs
