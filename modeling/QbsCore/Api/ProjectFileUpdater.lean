import QbsCore.Tools.Error
import QbsCore.Tools.JsLiterals
import Mathlib.Data.List.Sort
import Mathlib.Data.List.Perm.Lattice

/-!
# Changing the list of files in a project file

A project file is read with unix line endings, parsed, changed at one place and written
back with its own line endings.  One change adds files to the binding of the files
property, the other one removes files from it.

Main results:

- Definitions {lit}`ProjectFileUpdater.apply`, {lit}`ProjectFileFilesAdder.doApply` and
  {lit}`ProjectFileFilesRemover.doApply`.
- Theorem {lit}`ProjectFileFilesRemover.remainingFiles_eq`: which entries stay in the list and
  which names are not found.

Current gaps:

- The item and its binding have been found, and the files can be opened.
- Files are text: their encoding is not part of them.
-/

namespace Qbs

open JsLiterals

/-! ## Line endings -/

inductive LineEndingType where
  | unknownLineEndings
  | unixLineEndings
  | windowsLineEndings
  | mixedLineEndings
deriving DecidableEq

namespace ProjectFileUpdater

/-- The numbers of line feeds without and with a carriage return before them. -/
def countLineEndings : Char → List Char → Nat × Nat
  | _, [] => (0, 0)
  | before, c :: text =>
      let (lfCount, crlfCount) := countLineEndings c text
      if c = '\n' then
        if before = '\r' then (lfCount, crlfCount + 1) else (lfCount + 1, crlfCount)
      else (lfCount, crlfCount)

def guessLineEndingType (text : List Char) : LineEndingType :=
  let (lfCount, crlfCount) := countLineEndings '\x00' text
  if lfCount = 0 ∧ crlfCount = 0 then .unknownLineEndings
  else if crlfCount = 0 then .unixLineEndings
  else if lfCount = 0 then .windowsLineEndings
  else .mixedLineEndings

/-- Replace each pair of carriage return and line feed by a line feed. -/
def replaceCrLf : List Char → List Char
  | '\r' :: '\n' :: text => '\n' :: replaceCrLf text
  | c :: text => c :: replaceCrLf text
  | [] => []

def convertToUnixLineEndings (text : List Char) (oldLineEndings : LineEndingType) : List Char :=
  if oldLineEndings = .unixLineEndings then text else replaceCrLf text

def convertFromUnixLineEndings (isWindowsHost : Bool) (text : List Char)
    (newLineEndings : LineEndingType) : List Char :=
  if newLineEndings = .windowsLineEndings ∨
      (newLineEndings ≠ .unixLineEndings ∧ isWindowsHost = true) then
    text.flatMap fun c => if c = '\n' then ['\r', '\n'] else [c]
  else text

/-- The text that the parser gets. -/
def content (rawContent : List Char) : List Char :=
  convertToUnixLineEndings rawContent (guessLineEndingType rawContent)

/-- Change a file; it is only written when the change succeeds. The second component is the file
afterwards. -/
def apply (isWindowsHost : Bool) (rawContent : List Char)
    (doApply : List Char → Except ErrorInfo (List Char)) : Except ErrorInfo Unit × List Char :=
  match doApply (content rawContent) with
  | .error e => (.error e, rawContent)
  | .ok newContent =>
      (.ok (), convertFromUnixLineEndings isWindowsHost newContent (guessLineEndingType rawContent))

/-! ## Texts without carriage returns -/

/-- A text up to its line endings. -/
def withoutCr (text : List Char) : List Char :=
  text.filter fun c => c ≠ '\r'

@[simp]
theorem withoutCr_append (s t : List Char) : withoutCr (s ++ t) = withoutCr s ++ withoutCr t :=
  List.filter_append s t

theorem withoutCr_cons {c : Char} (h : c ≠ '\r') (text : List Char) :
    withoutCr (c :: text) = c :: withoutCr text := by
  simp [withoutCr, h]

theorem length_withoutCr_le (text : List Char) : (withoutCr text).length ≤ text.length :=
  List.length_filter_le _ text

theorem withoutCr_of_length {str : List Char} (h : (withoutCr str).length = str.length) :
    withoutCr str = str :=
  List.filter_eq_self.mpr (List.length_filter_eq_length_iff.mp h)

theorem withoutCr_of_readable {str : List Char} (h : Readable str) : withoutCr str = str := by
  rw [withoutCr, List.filter_eq_self]
  intro c hc
  have hreadable := h c hc
  simp only [isUnreadable, isLineTerminator, Bool.or_eq_false_iff] at hreadable
  simpa using hreadable.1.1.1.2

theorem withoutCr_quoted (str : List Char) : withoutCr (quoted str) = quoted (withoutCr str) := by
  rw [quoted, withoutCr_cons (by decide), withoutCr_append]
  rfl

theorem withoutCr_toJSLiteral (str : List Char) :
    withoutCr (toJSLiteral str) = toJSLiteral (withoutCr str) := by
  have hescape : withoutCr (str.flatMap escapeChar) = (withoutCr str).flatMap escapeChar := by
    induction str with
    | nil => rfl
    | cons c str ih =>
        rw [List.flatMap_cons, withoutCr_append, ih]
        by_cases hc : c = '\r'
        · subst hc
          rfl
        · have hc' : withoutCr (escapeChar c) = escapeChar c := by
            unfold escapeChar
            split <;> simp [withoutCr, hc]
          rw [hc', withoutCr_cons hc, List.flatMap_cons]
  rw [toJSLiteral, withoutCr_cons (by decide), withoutCr_append, hescape]
  rfl

theorem withoutCr_replaceCrLf (text : List Char) :
    withoutCr (replaceCrLf text) = withoutCr text := by
  fun_induction replaceCrLf text with
  | case1 text ih => simp_all [withoutCr]
  | case2 c text hpair ih => simp_all [withoutCr, List.filter_cons]
  | case3 => rfl

theorem withoutCr_content (rawContent : List Char) :
    withoutCr (content rawContent) = withoutCr rawContent := by
  unfold content convertToUnixLineEndings
  split
  · rfl
  · exact withoutCr_replaceCrLf rawContent

theorem withoutCr_convertFromUnixLineEndings (isWindowsHost : Bool) (text : List Char)
    (newLineEndings : LineEndingType) :
    withoutCr (convertFromUnixLineEndings isWindowsHost text newLineEndings) = withoutCr text := by
  unfold convertFromUnixLineEndings
  split
  · induction text with
    | nil => rfl
    | cons c text ih =>
        rw [List.flatMap_cons, withoutCr_append, ih]
        by_cases hc : c = '\n'
        · subst hc
          rfl
        · simp [hc, withoutCr, List.filter_cons]
          split <;> rfl
  · rfl

end ProjectFileUpdater

open ProjectFileUpdater

/-! ## The binding -/

/-- An element of an array literal: its text in the file, and its value when it is a string
literal. -/
structure ElementNode where
  repr : List Char
  value : Option (List Char)

/-- The expression of a binding, as the parser gives it. -/
inductive Expression where
  | arrayLiteral (elements : List ElementNode)
  | stringLiteral (value : List Char)
  | other (repr : List Char)

/-- The binding of the files property of an item: the text before and after its statement, and
its expression when the statement is one. -/
structure FilesBinding where
  before : List Char
  after : List Char
  expression : Option Expression
  itemIndentation : Nat
  nextMemberOnSameLine : Bool

namespace FilesBinding

variable (binding : FilesBinding)

def bindingIndentation : Nat :=
  binding.itemIndentation + 4

def arrayElemIndentation : Nat :=
  binding.bindingIndentation + 4

/-- A semicolon separates the binding from a member on the same line. -/
def terminator : List Char :=
  if binding.nextMemberOnSameLine then [';'] else []

/-- Replace the right-hand side. -/
def changeBinding (newValue : List Char) : List Char :=
  binding.before ++ (newValue ++ (binding.terminator ++ binding.after))

/-- An array with each element on a line of its own. -/
def filesRepr (reprs : List (List Char)) : List Char :=
  '[' :: '\n' :: (lines binding.arrayElemIndentation reprs ++
    (indent binding.bindingIndentation ++ [']']))

variable {binding}

theorem filesRepr_append (texts : List (List Char)) (rest : List Char) :
    binding.filesRepr texts ++ rest =
      '[' :: '\n' :: (lines binding.arrayElemIndentation texts ++
        (indent binding.bindingIndentation ++ ']' :: rest)) := by
  simp [filesRepr]

variable {strs texts : List (List Char)}

/-- A written array of literals is read back. -/
theorem arrayLiteral_filesRepr (h : List.Forall₂ Reads texts strs) (rest : List Char) :
    arrayLiteral (binding.filesRepr texts ++ rest) = some (strs, rest) := by
  rw [filesRepr_append, arrayLiteral]
  apply arrayElements_lines h
  have hle := length_le_length_lines binding.arrayElemIndentation texts
  simp only [List.length_cons, List.length_append]
  omega

theorem arrayLiteral_filesRepr_broken
    (h : ∀ text ∈ texts, (∃ str, Reads text str) ∨ ∃ str, text = toJSLiteral str) {str : List Char}
    (hmem : toJSLiteral str ∈ texts) (hstr : ¬Readable str) (rest : List Char) :
    arrayLiteral (binding.filesRepr texts ++ rest) = none := by
  rw [filesRepr_append, arrayLiteral]
  exact arrayElements_broken h hmem hstr _ _ _

/-- Reading an array of quoted strings back needs plain strings. -/
theorem plain_of_arrayLiteral_quoted {strs : List (List Char)} {rest rest' : List Char}
    (h : arrayLiteral (binding.filesRepr (strs.map fun str =>
      quoted (withoutCr str)) ++ rest) = some (strs, rest')) :
    ∀ str ∈ strs, Plain str := by
  rw [filesRepr_append, arrayLiteral] at h
  intro str hstr
  rcases plain_of_arrayElements_quoted length_withoutCr_le h str hstr with
    ⟨hplain, hlength⟩
  rwa [withoutCr_of_length hlength] at hplain

theorem withoutCr_filesRepr (texts : List (List Char)) :
    withoutCr (binding.filesRepr texts) =
      binding.filesRepr (texts.map withoutCr) := by
  have hindent : ∀ n, withoutCr (indent n) = indent n := by
    intro n
    simp [withoutCr, indent]
  have hlines : ∀ n, withoutCr (lines n texts) =
      lines n (texts.map withoutCr) := by
    intro n
    induction texts with
    | nil => rfl
    | cons text texts ih =>
        have hcons := lines_cons n text texts []
        have hcons' := lines_cons n (withoutCr text)
          (texts.map withoutCr) []
        simp only [List.append_nil] at hcons hcons'
        rw [hcons, List.map_cons, hcons', withoutCr_append,
          withoutCr_append, withoutCr_append, hindent, ih]
        rfl
  rw [filesRepr, withoutCr_cons (by decide),
    withoutCr_cons (by decide), withoutCr_append,
    withoutCr_append, hlines, hindent]
  rfl

end FilesBinding

def tooComplex : ErrorInfo :=
  .message "JavaScript construct in source file is too complex."

/-! ## Adding files -/

namespace ProjectFileFilesAdder

/-- The code units by which strings are compared. -/
def utf16 (str : List Char) : List Nat :=
  str.flatMap fun c =>
    if c.toNat < 0x10000 then [c.toNat]
    else [0xd800 + (c.toNat - 0x10000) / 0x400, 0xdc00 + (c.toNat - 0x10000) % 0x400]

def lessThan (s t : List Char) : Bool :=
  utf16 s < utf16 t

def sort (files : List (List Char)) : List (List Char) :=
  files.mergeSort fun s t => !lessThan t s

/-- New files are inserted sorted before the first old entry whose text is greater; the order of
the old entries stays. -/
def insertReprs (oldFileReprs : List (List Char)) (sortedFiles : List (List Char)) :
    List (List Char) :=
  let firstNewFileRepr := toJSLiteral (sortedFiles.headD [])
  let isBefore := fun repr => !lessThan firstNewFileRepr repr
  oldFileReprs.takeWhile isBefore ++
    (sortedFiles.map toJSLiteral ++ oldFileReprs.dropWhile isBefore)

/-- The new right-hand side. -/
def filesRepresentation (files : List (List Char)) (binding : FilesBinding) :
    Except ErrorInfo (List Char) :=
  match binding.expression with
  | none => throw tooComplex
  | some (.arrayLiteral elements) =>
      return binding.filesRepr (insertReprs (elements.map fun e => e.repr) (sort files))
  | some (.stringLiteral existingElement) =>
      return binding.filesRepr ((sort (sort files ++ [existingElement])).map toJSLiteral)
  | some (.other rhsRepr) =>
      -- It cannot be the other way around: the right-hand side could be a string.
      return binding.filesRepr ((sort files).map toJSLiteral) ++
        (".concat(".toList ++ (rhsRepr ++ [')']))

def doApply (files : List (List Char)) (binding : FilesBinding) (fileContent : List Char) :
    Except ErrorInfo (List Char) := do
  if files.isEmpty then return fileContent
  let filesRepresentation ← filesRepresentation files binding
  return binding.changeBinding filesRepresentation

end ProjectFileFilesAdder

/-! ## Removing files -/

namespace ProjectFileFilesRemover

/-- The values that stay in the list, and the names that were not found. -/
def remainingFiles : List (List Char) → List ElementNode →
    Except ErrorInfo (List (List Char) × List (List Char))
  | filesToRemove, [] => return ([], filesToRemove)
  | filesToRemove, element :: elements =>
      match element.value with
      | none => throw tooComplex
      | some existingFile =>
          if existingFile ∈ filesToRemove then
            remainingFiles (filesToRemove.erase existingFile) elements
          else do
            let (newFilesList, filesToRemove) ← remainingFiles filesToRemove elements
            return (existingFile :: newFilesList, filesToRemove)

/-- The new right-hand side. -/
def filesRepresentation (files : List (List Char)) (binding : FilesBinding) :
    Except ErrorInfo (List Char) :=
  match binding.expression with
  | none => throw tooComplex
  | some (.arrayLiteral elements) => do
      let (newFilesList, filesToRemove) ← remainingFiles files elements
      if !filesToRemove.isEmpty then
        throw (.message ("The following files were not found in the 'files' list: " ++
          ", ".intercalate (filesToRemove.map String.ofList)))
      return binding.filesRepr (newFilesList.map quoted)
  | some (.stringLiteral existingFile) => do
      if files.length ≠ 1 then
        throw (.message ("Was requested to remove " ++ toString files.length ++
          " files, but there is only one in the list."))
      if existingFile ≠ files.headD [] then
        throw (.message ("File '" ++ String.ofList (files.headD []) ++
          "' could not be found in the 'files' list."))
      return "[]".toList
  | some (.other _) => throw tooComplex

/-- An array is written when all names were found. -/
theorem filesRepresentation_arrayLiteral {files newFilesList filesToRemove : List (List Char)}
    {binding : FilesBinding} {elements : List ElementNode}
    (hexpression : binding.expression = some (.arrayLiteral elements))
    (h : remainingFiles files elements = .ok (newFilesList, filesToRemove)) :
    filesRepresentation files binding =
      if filesToRemove.isEmpty then .ok (binding.filesRepr (newFilesList.map quoted))
      else .error (.message ("The following files were not found in the 'files' list: " ++
        ", ".intercalate (filesToRemove.map String.ofList))) := by
  rw [filesRepresentation, hexpression]
  dsimp only
  rw [h]
  change (if (!filesToRemove.isEmpty) = true then _ else _) = _
  cases filesToRemove.isEmpty <;> rfl

def doApply (files : List (List Char)) (binding : FilesBinding) (fileContent : List Char) :
    Except ErrorInfo (List Char) := do
  if files.isEmpty then return fileContent
  let filesRepresentation ← filesRepresentation files binding
  return binding.changeBinding filesRepresentation

/-- When all elements are string literals, one occurrence of each name is removed, and the names
that occur less often are not found. -/
theorem remainingFiles_eq (filesToRemove values : List (List Char)) {elements : List ElementNode}
    (h : elements.map (fun e => e.value) = values.map some) :
    remainingFiles filesToRemove elements =
      .ok (values.diff filesToRemove, filesToRemove.diff values) := by
  induction values generalizing filesToRemove elements with
  | nil =>
      rw [List.map_nil, List.map_eq_nil_iff] at h
      subst h
      simp [remainingFiles, pure, Except.pure]
  | cons value values ih =>
      cases elements with
      | nil => cases h
      | cons element elements =>
          rw [List.map_cons, List.map_cons, List.cons.injEq] at h
          rw [remainingFiles, h.1, List.cons_diff]
          dsimp only
          by_cases hmem : value ∈ filesToRemove
          · rw [if_pos hmem, if_pos hmem, ih _ h.2, List.diff_cons]
          · rw [if_neg hmem, if_neg hmem, ih _ h.2, List.diff_cons, List.erase_of_not_mem hmem]
            rfl

end ProjectFileFilesRemover

end Qbs
