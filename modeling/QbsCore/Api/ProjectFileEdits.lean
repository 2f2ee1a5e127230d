import QbsCore.Api.ProjectFileUpdater

/-!
# Adding files to a project file and removing them

What the list of files in a project file evaluates to after a change.  New names are
written as literals, while the names that stay after a removal are only put in quotes.

Main results:

- Structure {lit}`ProjectFile`: a file whose binding is an array of string literals.
- Theorem {lit}`EditCase.editsRight_iff`: both changes do what they are for exactly when the new
  names have no line breaks and the old entries are plain.
- Theorem {lit}`not_editsRight_withQuote`: the removal of a file spoils an entry with a quote.

Current gaps:

- The parser reads each literal as the string that it denotes.
- Carriage returns are not told apart from line endings.
-/

namespace Qbs

open JsLiterals ProjectFileUpdater

/-! ## Project files -/

/-- A string literal in a file, and its value. -/
structure LiteralElement where
  repr : List Char
  value : List Char
  reads : Reads (withoutCr repr) value

def LiteralElement.node (e : LiteralElement) : ElementNode :=
  ⟨e.repr, some e.value⟩

/-- A project file whose files binding is an array of string literals. The text that the parser
gets is divided into what comes before the statement of the binding, its array, the rest of the
statement, and what comes after it. -/
structure ProjectFile where
  rawContent : List Char
  before : List Char
  array : List Char
  tail : List Char
  after : List Char
  elements : List LiteralElement
  itemIndentation : Nat
  nextMemberOnSameLine : Bool
  content_eq : content rawContent = before ++ (array ++ (tail ++ after))
  array_reads : arrayLiteral (withoutCr array ++ (withoutCr tail ++ withoutCr after)) =
    some (elements.map (fun e => e.value), withoutCr tail ++ withoutCr after)

namespace ProjectFile

variable (f : ProjectFile)

def values : List (List Char) :=
  f.elements.map fun e => e.value

def binding : FilesBinding where
  before := f.before
  after := f.after
  expression := some (.arrayLiteral (f.elements.map LiteralElement.node))
  itemIndentation := f.itemIndentation
  nextMemberOnSameLine := f.nextMemberOnSameLine

variable (isWindowsHost : Bool) (files : List (List Char))

/-- Add files to the binding. The second component is the file afterwards. -/
def addFiles : Except ErrorInfo Unit × List Char :=
  apply isWindowsHost f.rawContent (ProjectFileFilesAdder.doApply files f.binding)

/-- Remove files from the binding. The second component is the file afterwards. -/
def removeFiles : Except ErrorInfo Unit × List Char :=
  apply isWindowsHost f.rawContent (ProjectFileFilesRemover.doApply files f.binding)

/-- A file is the given one, line endings aside, but for the statement of its binding, which is an
array of string literals with some values. -/
def BindingReads (rawContent : List Char) (values : List (List Char)) : Prop :=
  ∃ array tail, (tail = [] ∨ tail = [';']) ∧
    withoutCr rawContent = withoutCr f.before ++ (array ++ (tail ++ withoutCr f.after)) ∧
    arrayLiteral (array ++ (tail ++ withoutCr f.after)) = some (values, tail ++ withoutCr f.after)

/-- Two files are the same, line endings aside, but for the statement of the binding. -/
structure SameOutside (g : ProjectFile) : Prop where
  before : withoutCr g.before = withoutCr f.before
  after : withoutCr g.after = withoutCr f.after

variable {f}

theorem SameOutside.refl : f.SameOutside f :=
  ⟨rfl, rfl⟩

/-! ## What is written -/

theorem terminator_cases (b : FilesBinding) : b.terminator = [] ∨ b.terminator = [';'] := by
  unfold FilesBinding.terminator
  split
  · exact Or.inr rfl
  · exact Or.inl rfl

theorem withoutCr_terminator (b : FilesBinding) : withoutCr b.terminator = b.terminator := by
  rcases terminator_cases b with h | h <;> rw [h] <;> rfl

/-- The array that is written, up to line endings, and what comes after it. -/
theorem withoutCr_changeBinding (b : FilesBinding) (reprs : List (List Char)) :
    withoutCr (b.changeBinding (b.filesRepr reprs)) =
      withoutCr b.before ++
        (b.filesRepr (reprs.map withoutCr) ++ (b.terminator ++ withoutCr b.after)) := by
  simp only [FilesBinding.changeBinding, withoutCr_append, FilesBinding.withoutCr_filesRepr,
    withoutCr_terminator]

variable {g : ProjectFile} {reprs : List (List Char)} {values : List (List Char)}
  {rawContent : List Char}

/-- The value of the binding is what is read from the array that was written. -/
theorem BindingReads.read (h : f.BindingReads rawContent values) (hsame : f.SameOutside g)
    (hraw : withoutCr rawContent =
      withoutCr (g.binding.changeBinding (g.binding.filesRepr reprs))) :
    ∃ rest, arrayLiteral (g.binding.filesRepr (reprs.map withoutCr) ++
      (g.binding.terminator ++ withoutCr f.after)) = some (values, rest) := by
  rcases h with ⟨array, tail, -, hcontent, hread⟩
  rw [hraw, withoutCr_changeBinding] at hcontent
  have hbefore : withoutCr g.binding.before = withoutCr f.before := hsame.before
  have hafter : withoutCr g.binding.after = withoutCr f.after := hsame.after
  rw [hbefore, hafter] at hcontent
  rw [List.append_cancel_left hcontent]
  exact ⟨_, hread⟩

theorem bindingReads_of_read (hsame : f.SameOutside g)
    (hraw : withoutCr rawContent =
      withoutCr (g.binding.changeBinding (g.binding.filesRepr reprs)))
    (hread : List.Forall₂ Reads (reprs.map withoutCr) values) :
    f.BindingReads rawContent values := by
  have hbefore : withoutCr g.binding.before = withoutCr f.before := hsame.before
  have hafter : withoutCr g.binding.after = withoutCr f.after := hsame.after
  refine ⟨g.binding.filesRepr (reprs.map withoutCr), g.binding.terminator,
    terminator_cases g.binding, ?_, FilesBinding.arrayLiteral_filesRepr hread _⟩
  rw [hraw, withoutCr_changeBinding, hbefore, hafter]

/-! ## Adding -/

variable {isWindowsHost : Bool} {files : List (List Char)}

theorem addFiles_eq (f : ProjectFile) (isWindowsHost : Bool) (hfiles : files ≠ []) :
    f.addFiles isWindowsHost files =
      (.ok (), convertFromUnixLineEndings isWindowsHost
        (f.binding.changeBinding (f.binding.filesRepr (ProjectFileFilesAdder.insertReprs
          (f.elements.map fun e => e.repr) (ProjectFileFilesAdder.sort files))))
        (guessLineEndingType f.rawContent)) := by
  have hreprs : (f.elements.map LiteralElement.node).map (fun e => e.repr) =
      f.elements.map fun e => e.repr := by
    rw [List.map_map]
    rfl
  have hnonempty : files.isEmpty = false := by simpa using hfiles
  unfold addFiles apply ProjectFileFilesAdder.doApply
  rw [hnonempty, if_neg Bool.false_ne_true, ← hreprs]
  rfl

theorem withoutCr_addFiles (f : ProjectFile) (isWindowsHost : Bool) (hfiles : files ≠ []) :
    withoutCr (f.addFiles isWindowsHost files).2 =
      withoutCr (f.binding.changeBinding (f.binding.filesRepr (ProjectFileFilesAdder.insertReprs
        (f.elements.map fun e => e.repr) (ProjectFileFilesAdder.sort files)))) := by
  rw [addFiles_eq f isWindowsHost hfiles]
  exact withoutCr_convertFromUnixLineEndings _ _ _

/-- The new entries go between two parts of the old ones. -/
theorem exists_insertReprs (elements : List LiteralElement) (sortedFiles : List (List Char)) :
    ∃ front back, elements = front ++ back ∧
      ProjectFileFilesAdder.insertReprs (elements.map fun e => e.repr) sortedFiles =
        (front.map fun e => e.repr) ++
          (sortedFiles.map toJSLiteral ++ back.map fun e => e.repr) := by
  let isBefore := fun e : LiteralElement =>
    !ProjectFileFilesAdder.lessThan (toJSLiteral (sortedFiles.headD [])) e.repr
  refine ⟨elements.takeWhile isBefore, elements.dropWhile isBefore,
    List.takeWhile_append_dropWhile.symm, ?_⟩
  unfold ProjectFileFilesAdder.insertReprs
  dsimp only
  rw [List.takeWhile_map, List.dropWhile_map]
  rfl

theorem sort_perm (files : List (List Char)) : (ProjectFileFilesAdder.sort files).Perm files :=
  List.mergeSort_perm files _

theorem forall₂_reads (elements : List LiteralElement) :
    List.Forall₂ Reads ((elements.map fun e => e.repr).map withoutCr)
      (elements.map fun e => e.value) := by
  induction elements with
  | nil => exact List.Forall₂.nil
  | cons e elements ih => exact List.Forall₂.cons e.reads ih

variable {strs : List (List Char)}

theorem forall₂_toJSLiteral (h : ∀ str ∈ strs, Readable str) :
    List.Forall₂ Reads ((strs.map toJSLiteral).map withoutCr) strs := by
  induction strs with
  | nil => exact List.Forall₂.nil
  | cons str strs ih =>
      rcases List.forall_mem_cons.mp h with ⟨hstr, hstrs⟩
      refine List.Forall₂.cons ?_ (ih hstrs)
      rw [withoutCr_toJSLiteral, withoutCr_of_readable hstr]
      exact reads_toJSLiteral hstr

/-- With readable new names, the entries after adding are the old ones with the new ones sorted in
between. -/
theorem exists_values_addFiles (f : ProjectFile) (hreadable : ∀ n ∈ files, Readable n) :
    ∃ front back, f.elements = front ++ back ∧
      List.Forall₂ Reads ((ProjectFileFilesAdder.insertReprs (f.elements.map fun e => e.repr)
        (ProjectFileFilesAdder.sort files)).map withoutCr)
        ((front.map fun e => e.value) ++
          (ProjectFileFilesAdder.sort files ++ back.map fun e => e.value)) := by
  rcases exists_insertReprs f.elements (ProjectFileFilesAdder.sort files) with
    ⟨front, back, helements, hinsert⟩
  refine ⟨front, back, helements, ?_⟩
  rw [hinsert, List.map_append, List.map_append]
  refine List.rel_append (forall₂_reads front) (List.rel_append ?_ (forall₂_reads back))
  exact forall₂_toJSLiteral fun n hn => hreadable n ((sort_perm files).mem_iff.mp hn)

/-- New names that are read back are readable. -/
theorem readable_of_read (f : ProjectFile) {rest rest' : List Char}
    (hread : arrayLiteral (f.binding.filesRepr ((ProjectFileFilesAdder.insertReprs
      (f.elements.map fun e => e.repr) (ProjectFileFilesAdder.sort files)).map withoutCr) ++ rest) =
        some (values, rest'))
    (hperm : values.Perm (f.values ++ files)) : ∀ n ∈ files, Readable n := by
  rcases exists_insertReprs f.elements (ProjectFileFilesAdder.sort files) with
    ⟨front, back, helements, hinsert⟩
  have htexts : (ProjectFileFilesAdder.insertReprs (f.elements.map fun e => e.repr)
      (ProjectFileFilesAdder.sort files)).map withoutCr =
      (front.map fun e => e.repr).map withoutCr ++
        (((ProjectFileFilesAdder.sort files).map withoutCr).map toJSLiteral ++
          (back.map fun e => e.repr).map withoutCr) := by
    rw [hinsert]
    simp [withoutCr_toJSLiteral, Function.comp_def]
  -- Names that are still not readable without carriage returns break the array.
  have hreadable : ∀ n ∈ (ProjectFileFilesAdder.sort files).map withoutCr, Readable n := by
    intro n hn
    by_contra hbroken
    rw [htexts, FilesBinding.arrayLiteral_filesRepr_broken ?_
      (List.mem_append_right _ (List.mem_append_left _ (List.mem_map_of_mem hn))) hbroken] at hread
    · cases hread
    · intro text htext
      simp only [List.mem_append, List.mem_map] at htext
      rcases htext with ⟨_, ⟨e, -, rfl⟩, rfl⟩ | ⟨str, -, rfl⟩ | ⟨_, ⟨e, -, rfl⟩, rfl⟩
      · exact Or.inl ⟨e.value, e.reads⟩
      · exact Or.inr ⟨str, rfl⟩
      · exact Or.inl ⟨e.value, e.reads⟩
  have hnew : List.Forall₂ Reads
      (((ProjectFileFilesAdder.sort files).map withoutCr).map toJSLiteral)
      ((ProjectFileFilesAdder.sort files).map withoutCr) := by
    generalize (ProjectFileFilesAdder.sort files).map withoutCr = strs at hreadable
    induction strs with
    | nil => exact List.Forall₂.nil
    | cons str strs ih =>
        rcases List.forall_mem_cons.mp hreadable with ⟨hstr, hstrs⟩
        exact List.Forall₂.cons (reads_toJSLiteral hstr) (ih hstrs)
  rw [htexts, FilesBinding.arrayLiteral_filesRepr (List.rel_append (forall₂_reads front)
    (List.rel_append hnew (forall₂_reads back)))] at hread
  simp only [Option.some.injEq, Prod.mk.injEq] at hread
  rw [← hread.1, ProjectFile.values, helements, List.map_append] at hperm
  -- What is left of the new names without carriage returns are the new names.
  have hcancel : ((ProjectFileFilesAdder.sort files).map withoutCr).Perm files := by
    rw [List.append_assoc] at hperm
    have hback := (List.perm_append_left_iff _).mp hperm
    exact (List.perm_append_left_iff _).mp (List.perm_append_comm.trans hback)
  intro n hn
  exact hreadable n (hcancel.mem_iff.mpr hn)

/-! ## Removing -/

theorem remainingFiles_node (f : ProjectFile) (files : List (List Char)) :
    ProjectFileFilesRemover.remainingFiles files (f.elements.map LiteralElement.node) =
      .ok (f.values.diff files, files.diff f.values) := by
  apply ProjectFileFilesRemover.remainingFiles_eq
  rw [values, List.map_map, List.map_map]
  rfl

theorem diff_eq_nil_iff (s t : List (List Char)) : s.diff t = [] ↔ s.Subperm t := by
  induction t generalizing s with
  | nil => rw [List.diff_nil, List.subperm_nil]
  | cons a t ih =>
      rw [List.diff_cons, ih]
      constructor
      · intro h
        exact (List.subperm_cons_erase a s).trans ((List.subperm_cons a).mpr h)
      · intro h
        have herase := List.Subperm.erase a h
        rwa [List.erase_cons_head] at herase

theorem removeFiles_of_subperm (f : ProjectFile) (isWindowsHost : Bool) (hfiles : files ≠ [])
    (h : files.Subperm f.values) :
    f.removeFiles isWindowsHost files =
      (.ok (), convertFromUnixLineEndings isWindowsHost
        (f.binding.changeBinding (f.binding.filesRepr ((f.values.diff files).map quoted)))
        (guessLineEndingType f.rawContent)) := by
  have hnonempty : files.isEmpty = false := by simpa using hfiles
  have hrepr := @ProjectFileFilesRemover.filesRepresentation_arrayLiteral files _ _ f.binding _ rfl
    (f.remainingFiles_node files)
  rw [(diff_eq_nil_iff _ _).mpr h, List.isEmpty_nil, if_pos rfl] at hrepr
  unfold removeFiles apply ProjectFileFilesRemover.doApply
  rw [hnonempty, if_neg Bool.false_ne_true, hrepr]
  rfl

/-- When a name is missing, there is an error and the file stays as it is. -/
theorem removeFiles_of_missing (f : ProjectFile) (isWindowsHost : Bool) (hfiles : files ≠ [])
    (h : ¬files.Subperm f.values) :
    ∃ e, f.removeFiles isWindowsHost files = (.error e, f.rawContent) := by
  have hnonempty : files.isEmpty = false := by simpa using hfiles
  have hmissing : (files.diff f.values).isEmpty = false := by
    rw [List.isEmpty_eq_false_iff]
    exact mt (diff_eq_nil_iff _ _).mp h
  have hrepr := @ProjectFileFilesRemover.filesRepresentation_arrayLiteral files _ _ f.binding _ rfl
    (f.remainingFiles_node files)
  rw [hmissing, if_neg Bool.false_ne_true] at hrepr
  unfold removeFiles apply ProjectFileFilesRemover.doApply
  rw [hnonempty, if_neg Bool.false_ne_true, hrepr]
  exact ⟨_, rfl⟩

theorem withoutCr_removeFiles (f : ProjectFile) (isWindowsHost : Bool) (hfiles : files ≠ [])
    (h : files.Subperm f.values) :
    withoutCr (f.removeFiles isWindowsHost files).2 =
      withoutCr (f.binding.changeBinding
        (f.binding.filesRepr ((f.values.diff files).map quoted))) := by
  rw [removeFiles_of_subperm f isWindowsHost hfiles h]
  exact withoutCr_convertFromUnixLineEndings _ _ _

/-- The entries that stay are read back when they are plain. -/
theorem forall₂_quoted (h : ∀ str ∈ strs, Plain str) :
    List.Forall₂ Reads ((strs.map quoted).map withoutCr) strs := by
  induction strs with
  | nil => exact List.Forall₂.nil
  | cons str strs ih =>
      rcases List.forall_mem_cons.mp h with ⟨hstr, hstrs⟩
      refine List.Forall₂.cons ?_ (ih hstrs)
      rw [withoutCr_quoted, withoutCr_of_readable hstr.readable, quoted_eq hstr]
      exact reads_toJSLiteral hstr.readable

/-- After a removal the binding has the entries that stay exactly when these are plain. -/
theorem bindingReads_removeFiles_iff (hsame : f.SameOutside g) (hfiles : files ≠ [])
    (h : files.Subperm g.values) :
    f.BindingReads (g.removeFiles isWindowsHost files).2 (g.values.diff files) ↔
      ∀ str ∈ g.values.diff files, Plain str := by
  have hraw := withoutCr_removeFiles g isWindowsHost hfiles h
  constructor
  · intro hreads
    rcases hreads.read hsame hraw with ⟨rest, hread⟩
    rw [List.map_map] at hread
    have hcomp : withoutCr ∘ quoted = fun str => quoted (withoutCr str) :=
      funext fun str => withoutCr_quoted str
    rw [hcomp] at hread
    exact FilesBinding.plain_of_arrayLiteral_quoted hread
  · intro hplain
    exact bindingReads_of_read hsame hraw (forall₂_quoted hplain)

/-! ## Reading the changed file again -/

/-- Converting line endings divides a text where neither kind of line ending has a part. -/
def Splits (u : List Char → List Char) : Prop :=
  ∀ c, c ≠ '\r' → c ≠ '\n' → ∀ s t, u (s ++ c :: t) = u s ++ c :: u t

theorem splits_replaceCrLf : Splits replaceCrLf := by
  intro c hcr hlf s t
  fun_induction replaceCrLf s with
  | case1 s ih => simp [replaceCrLf, ih]
  | case2 d s hpair ih =>
      rw [List.cons_append, List.cons_append, ← ih, replaceCrLf]
      intro u hd hs
      cases s with
      | nil => exact hlf (List.cons.inj hs).1
      | cons e s => exact hpair s hd (by rw [(List.cons.inj hs).1])
  | case3 =>
      rw [List.nil_append, List.nil_append, replaceCrLf]
      intro u hc
      exact absurd hc hcr

theorem splits_convertFromUnixLineEndings (isWindowsHost : Bool) (type : LineEndingType) :
    Splits fun text => convertFromUnixLineEndings isWindowsHost text type := by
  intro c hcr hlf s t
  unfold convertFromUnixLineEndings
  split
  · dsimp only
    rw [List.flatMap_append, List.flatMap_cons, if_neg hlf]
    rfl
  · rfl

/-- The text that the parser gets of a written file is the written text, line endings aside. -/
theorem exists_splits_content (isWindowsHost : Bool) (text : List Char) (type : LineEndingType) :
    ∃ u, Splits u ∧ (∀ s, withoutCr (u s) = withoutCr s) ∧
      content (convertFromUnixLineEndings isWindowsHost text type) = u text := by
  unfold content convertToUnixLineEndings
  split
  · exact ⟨fun text => convertFromUnixLineEndings isWindowsHost text type,
      splits_convertFromUnixLineEndings isWindowsHost type,
      fun s => withoutCr_convertFromUnixLineEndings isWindowsHost s type, rfl⟩
  · refine ⟨fun text => replaceCrLf (convertFromUnixLineEndings isWindowsHost text type), ?_, ?_,
      rfl⟩
    · intro c hcr hlf s t
      have hsplit := splits_convertFromUnixLineEndings isWindowsHost type c hcr hlf s t
      dsimp only at hsplit ⊢
      rw [hsplit, splits_replaceCrLf c hcr hlf]
    · intro s
      rw [withoutCr_replaceCrLf, withoutCr_convertFromUnixLineEndings]

theorem exists_elements {texts : List (List Char)}
    (h : List.Forall₂ Reads (texts.map withoutCr) strs) :
    ∃ elements : List LiteralElement, (elements.map fun e => e.value) = strs := by
  induction texts generalizing strs with
  | nil =>
      cases h
      exact ⟨[], rfl⟩
  | cons text texts ih =>
      rcases List.forall₂_cons_left_iff.mp h with ⟨str, strs', hstr, hstrs, rfl⟩
      rcases ih hstrs with ⟨elements, helements⟩
      exact ⟨⟨text, str, hstr⟩ :: elements, by rw [List.map_cons, helements]⟩

/-- A file to which readable names were added can be read again. -/
theorem exists_reparse (f : ProjectFile) (isWindowsHost : Bool) (hfiles : files ≠ [])
    (hreadable : ∀ n ∈ files, Readable n) :
    ∃ g : ProjectFile, g.rawContent = (f.addFiles isWindowsHost files).2 ∧ f.SameOutside g := by
  rcases exists_values_addFiles f hreadable with ⟨front, back, -, hreads⟩
  rcases exists_elements hreads with ⟨elements, hvalues⟩
  rw [addFiles_eq f isWindowsHost hfiles]
  generalize ProjectFileFilesAdder.insertReprs (f.elements.map fun e => e.repr)
    (ProjectFileFilesAdder.sort files) = texts at hreads
  rcases exists_splits_content isWindowsHost (f.binding.changeBinding (f.binding.filesRepr texts))
    (guessLineEndingType f.rawContent) with ⟨u, hu, hcr, hcontent⟩
  have hafter : ∃ tail, u (f.binding.terminator ++ f.after) = tail ++ u f.after ∧
      withoutCr tail = f.binding.terminator := by
    rcases terminator_cases f.binding with h | h
    · exact ⟨[], by rw [h]; rfl, by rw [h]; rfl⟩
    · refine ⟨u [] ++ [';'], ?_, ?_⟩
      · rw [h, List.append_assoc]
        exact hu ';' (by decide) (by decide) [] f.after
      · rw [h, withoutCr_append, hcr]
        rfl
  rcases hafter with ⟨tail, hafter, htail⟩
  let inner := '\n' :: (lines f.binding.arrayElemIndentation texts ++
    indent f.binding.bindingIndentation)
  have harray : f.binding.filesRepr texts = '[' :: (inner ++ [']']) := by
    simp [FilesBinding.filesRepr, inner]
  have hchanged : f.binding.changeBinding (f.binding.filesRepr texts) =
      f.before ++ '[' :: (inner ++ ']' :: (f.binding.terminator ++ f.after)) := by
    rw [FilesBinding.changeBinding, harray]
    simp [binding]
  rw [hchanged] at hcontent
  have hinner : withoutCr ('[' :: (u inner ++ [']'])) =
      f.binding.filesRepr (texts.map withoutCr) := by
    rw [← FilesBinding.withoutCr_filesRepr, harray, withoutCr_cons (by decide),
      withoutCr_cons (by decide), withoutCr_append, withoutCr_append, hcr]
  refine ⟨{
    rawContent := convertFromUnixLineEndings isWindowsHost
      (f.binding.changeBinding (f.binding.filesRepr texts)) (guessLineEndingType f.rawContent)
    before := u f.before
    array := '[' :: (u inner ++ [']'])
    tail := tail
    after := u f.after
    elements := elements
    itemIndentation := f.itemIndentation
    nextMemberOnSameLine := f.nextMemberOnSameLine
    content_eq := ?_
    array_reads := ?_ }, rfl, ⟨hcr f.before, hcr f.after⟩⟩
  · rw [hchanged, hcontent, hu '[' (by decide) (by decide), hu ']' (by decide) (by decide), hafter]
    simp
  · rw [hinner, htail, hcr, hvalues]
    exact FilesBinding.arrayLiteral_filesRepr hreads _

/-- Reading a file again to which readable names were added gives the entries that were written. -/
theorem values_reparse (f : ProjectFile) (isWindowsHost : Bool) (hfiles : files ≠ [])
    (hreadable : ∀ n ∈ files, Readable n)
    (hraw : g.rawContent = (f.addFiles isWindowsHost files).2) (hsame : f.SameOutside g) :
    ∃ front back, f.values = front ++ back ∧
      g.values = front ++ (ProjectFileFilesAdder.sort files ++ back) := by
  rcases exists_values_addFiles f hreadable with ⟨front, back, helements, hreads⟩
  refine ⟨front.map fun e => e.value, back.map fun e => e.value, ?_, ?_⟩
  · rw [values, helements, List.map_append]
  have hcontent := congrArg withoutCr g.content_eq
  rw [withoutCr_content, hraw, withoutCr_addFiles f isWindowsHost hfiles, withoutCr_changeBinding]
    at hcontent
  simp only [withoutCr_append] at hcontent
  have hbefore : withoutCr f.binding.before = withoutCr g.before := hsame.before.symm
  rw [hbefore] at hcontent
  have hread := g.array_reads
  rw [← List.append_cancel_left hcontent, FilesBinding.arrayLiteral_filesRepr hreads] at hread
  exact (Prod.mk.inj (Option.some.inj hread)).1.symm

theorem diff_inserted {front back s : List (List Char)} (h : ∀ n ∈ s, n ∉ front) :
    (front ++ (s ++ back)).diff s = front ++ back := by
  induction s with
  | nil => rw [List.nil_append, List.diff_nil]
  | cons n s ih =>
      rcases List.forall_mem_cons.mp h with ⟨hn, hs⟩
      rw [List.diff_cons, List.erase_append_right _ hn, List.cons_append, List.erase_cons_head,
        ih hs]

/-- Removing the new names again leaves the old entries. -/
theorem diff_reparse (f : ProjectFile) (isWindowsHost : Bool) (hfiles : files ≠ [])
    (hreadable : ∀ n ∈ files, Readable n) (hnew : ∀ n ∈ files, n ∉ f.values)
    (hraw : g.rawContent = (f.addFiles isWindowsHost files).2) (hsame : f.SameOutside g) :
    files.Subperm g.values ∧ g.values.diff files = f.values := by
  rcases values_reparse f isWindowsHost hfiles hreadable hraw hsame with
    ⟨front, back, hf, hg⟩
  have hperm := sort_perm files
  have hfront : ∀ n ∈ ProjectFileFilesAdder.sort files, n ∉ front := by
    intro n hn hmem
    apply hnew n (hperm.mem_iff.mp hn)
    rw [hf]
    exact List.mem_append_left _ hmem
  rw [hg]
  constructor
  · refine hperm.symm.subperm.trans (List.Sublist.subperm ?_)
    exact (List.sublist_append_left _ back).trans (List.sublist_append_right front _)
  · rw [← hperm.diff_left, diff_inserted hfront, hf]

end ProjectFile

/-! ## Both changes -/

/-- A project file, files that are new in it, and names of files that are to be removed. -/
structure EditCase where
  file : ProjectFile
  isWindowsHost : Bool
  added : List (List Char)
  removed : List (List Char)
  added_ne : added ≠ []
  removed_ne : removed ≠ []
  new : ∀ n ∈ added, n ∉ file.values

namespace EditCase

/-- Adding keeps the old entries in their order and adds the new names; removing takes one
occurrence of each name away, or fails without touching the file when one is missing; and removing
what was added gives the old entries back. Nothing else in the file changes. -/
structure EditsRight (c : EditCase) : Prop where
  add : (c.file.addFiles c.isWindowsHost c.added).1 = .ok () ∧
    ∃ values, c.file.BindingReads (c.file.addFiles c.isWindowsHost c.added).2 values ∧
      c.file.values.Sublist values ∧ values.Perm (c.file.values ++ c.added)
  remove : c.removed.Subperm c.file.values →
    (c.file.removeFiles c.isWindowsHost c.removed).1 = .ok () ∧
      c.file.BindingReads (c.file.removeFiles c.isWindowsHost c.removed).2
        (c.file.values.diff c.removed)
  missing : ¬c.removed.Subperm c.file.values →
    ∃ e, c.file.removeFiles c.isWindowsHost c.removed = (.error e, c.file.rawContent)
  addRemove : ∀ g : ProjectFile,
    g.rawContent = (c.file.addFiles c.isWindowsHost c.added).2 → c.file.SameOutside g →
      (g.removeFiles c.isWindowsHost c.added).1 = .ok () ∧
        c.file.BindingReads (g.removeFiles c.isWindowsHost c.added).2 c.file.values

/-- Both changes do what they are for exactly when the new names are readable and the old entries
are plain. -/
theorem editsRight_iff (c : EditCase) :
    c.EditsRight ↔ (∀ n ∈ c.added, Readable n) ∧ ∀ v ∈ c.file.values, Plain v := by
  constructor
  · intro h
    rcases h.add with ⟨-, values, hreads, -, hperm⟩
    rcases hreads.read ProjectFile.SameOutside.refl
      (c.file.withoutCr_addFiles c.isWindowsHost c.added_ne) with ⟨rest, hread⟩
    have hreadable := c.file.readable_of_read hread hperm
    rcases c.file.exists_reparse c.isWindowsHost c.added_ne hreadable with ⟨g, hraw, hsame⟩
    rcases ProjectFile.diff_reparse c.file c.isWindowsHost c.added_ne hreadable c.new hraw hsame with
      ⟨hsubperm, hdiff⟩
    have hremoved := (h.addRemove g hraw hsame).2
    rw [← hdiff, ProjectFile.bindingReads_removeFiles_iff hsame c.added_ne hsubperm, hdiff]
      at hremoved
    exact ⟨hreadable, hremoved⟩
  · intro h
    rcases h with ⟨hreadable, hplain⟩
    constructor
    · rw [c.file.addFiles_eq c.isWindowsHost c.added_ne]
      refine ⟨rfl, ?_⟩
      rcases c.file.exists_values_addFiles hreadable with ⟨front, back, helements, hreads⟩
      refine ⟨_, ProjectFile.bindingReads_of_read ProjectFile.SameOutside.refl
        (withoutCr_convertFromUnixLineEndings _ _ _) hreads, ?_, ?_⟩
      · rw [ProjectFile.values, helements, List.map_append]
        exact (List.Sublist.refl _).append (List.sublist_append_right _ _)
      · rw [ProjectFile.values, helements, List.map_append, List.append_assoc]
        refine List.Perm.append_left _ (List.perm_append_comm.trans ?_)
        exact List.Perm.append_left _ (ProjectFile.sort_perm c.added)
    · intro hsubperm
      refine ⟨by rw [c.file.removeFiles_of_subperm c.isWindowsHost c.removed_ne hsubperm], ?_⟩
      rw [ProjectFile.bindingReads_removeFiles_iff ProjectFile.SameOutside.refl c.removed_ne
        hsubperm]
      exact fun v hv => hplain v ((List.diff_sublist _ _).mem hv)
    · exact fun hmissing => c.file.removeFiles_of_missing c.isWindowsHost c.removed_ne hmissing
    · intro g hraw hsame
      rcases ProjectFile.diff_reparse c.file c.isWindowsHost c.added_ne hreadable c.new hraw hsame with
        ⟨hsubperm, hdiff⟩
      refine ⟨by rw [g.removeFiles_of_subperm c.isWindowsHost c.added_ne hsubperm], ?_⟩
      have hiff := @ProjectFile.bindingReads_removeFiles_iff c.file g c.isWindowsHost c.added hsame
        c.added_ne hsubperm
      rw [hdiff] at hiff
      exact hiff.mpr hplain

end EditCase

/-! ## An entry with a quote -/

/-- An element that is written as a literal. -/
def LiteralElement.ofReadable (str : List Char) (h : Readable str) : LiteralElement where
  repr := toJSLiteral str
  value := str
  reads := by
    rw [withoutCr_toJSLiteral, withoutCr_of_readable h]
    exact reads_toJSLiteral h

/-- A file with two entries, of which one contains a quote. -/
def fileWithQuote : ProjectFile where
  rawContent := "Product \x7b\n    files: [\"a\\\"b\", \"x\"]\n\x7d\n".toList
  before := "Product \x7b\n    files: ".toList
  array := "[\"a\\\"b\", \"x\"]".toList
  tail := []
  after := "\n\x7d\n".toList
  elements := [.ofReadable "a\"b".toList (by decide), .ofReadable "x".toList (by decide)]
  itemIndentation := 0
  nextMemberOnSameLine := false
  content_eq := by decide
  array_reads := by decide

def withQuote : EditCase where
  file := fileWithQuote
  isWindowsHost := false
  added := ["c".toList]
  removed := ["x".toList]
  added_ne := by decide
  removed_ne := by decide
  new := by decide

/-- The removal of the other entry leaves a quote that is not escaped. -/
theorem not_editsRight_withQuote : ¬withQuote.EditsRight := by
  intro h
  have hsubperm : withQuote.removed.Subperm withQuote.file.values := by
    rw [← ProjectFile.diff_eq_nil_iff]
    decide
  have hreads := (h.remove hsubperm).2
  rw [ProjectFile.bindingReads_removeFiles_iff ProjectFile.SameOutside.refl withQuote.removed_ne
    hsubperm] at hreads
  have hplain : ¬∀ v ∈ withQuote.file.values.diff withQuote.removed, Plain v := by decide
  exact hplain hreads

end Qbs
