import QbsCore.Tools.FileSystem

/-!
# Wildcards in the files of a group

The patterns of a group are expanded part by part.  Each part is looked for among the entries
of a directory, or of all directories below it if two stars come before it.  What lies in the
build directory is left out; whether it does is decided on the texts of the paths.

Main results:

- Theorem {lit}`SourceWildCards.mem_filesOf_expandList_iff`: the files that some patterns expand to.
- Theorem {lit}`SourceWildCards.expanded_as_documented_iff`: when these are the documented ones.

Current gaps:

- Which names a name pattern matches is given.  Hidden entries are matched by no wildcard.
- A pattern with no part at all, which the code does not expect, has no files.
-/

namespace Qbs

namespace SourceWildCards

open FileInfo (cleanPath components isAbsolute isPattern pathOf IsName)

/-- Two stars stand for any number of directories. -/
def doubleStar : PathText :=
  ['*', '*']

/-- What a group says about its files. -/
structure Wildcards where
  /-- The prefix of the group. -/
  groupPrefix : PathText
  patterns : List PathText
  excludePatterns : List PathText

/-! ## The documented function -/

section Documented

variable (fs : FileSystem) (matchesName : PathText → PathText → Bool)

/-- Stars see hidden directories on the way to a directory that is given by its name. -/
def seesHidden : List PathText → Bool
  | [] | [_] => false
  | part :: next :: parts =>
      if part = doubleStar then seesHidden (next :: parts) else !isPattern part

/-- A way on which the parts of a pattern lead from a directory to a file: the directory of the file
as its path is spelled on this way, and the name of the file. -/
inductive Way : List PathText → Place → Place → PathText → Prop
  | file {part name : PathText} {base : Place} : part ≠ doubleStar →
      (name, false) ∈ fs.entries base.position → matchesName part name = true →
      isHidden name = false → Way [part] base base name
  | directory {part next name n : PathText} {parts : List PathText} {base parent : Place} :
      part ≠ doubleStar → (name, true) ∈ fs.entries base.position →
      matchesName part name = true → (isPattern part = false ∨ isHidden name = false) →
      Way (next :: parts) (base.child name) parent n → Way (part :: next :: parts) base parent n
  | dot {next n : PathText} {parts : List PathText} {base parent : Place} :
      Way (next :: parts) ⟨entryPath base.text ['.'], base.position⟩ parent n →
      Way (['.'] :: next :: parts) base parent n
  | dotDot {next n : PathText} {parts : List PathText} {base parent : Place} :
      Way (next :: parts) ⟨entryPath base.text dotDot, base.position.dropLast⟩ parent n →
      Way (dotDot :: next :: parts) base parent n
  | noDirectory {next n : PathText} {parts : List PathText} {base parent : Place} :
      Way (next :: parts) base parent n → Way (doubleStar :: next :: parts) base parent n
  | someDirectory {name n : PathText} {parts : List PathText} {base parent : Place} :
      (name, true) ∈ fs.entries base.position → (seesHidden parts || !isHidden name) = true →
      Way (doubleStar :: parts) (base.child name) parent n → Way (doubleStar :: parts) base parent n
  | allFiles {n : PathText} {base parent : Place} :
      Way [['*']] base parent n → Way [doubleStar] base parent n

end Documented

/-! ## Expanding patterns -/

/-- What an iteration over a directory finds. -/
structure Entry where
  parent : Place
  name : PathText
  isDir : Bool
  position : List PathText

def Entry.path (e : Entry) : PathText :=
  entryPath e.parent.text e.name

def Entry.place (e : Entry) : Place :=
  ⟨e.path, e.position⟩

/-- What an expansion finds: a file, and directories that are remembered with the time stamp of
another one. -/
inductive Found where
  | directory (dir timeStampOf : Place)
  | file (path : PathText)
deriving DecidableEq

def Found.toFile? : Found → Option PathText
  | .directory _ _ => none
  | .file path => some path

/-- The files among what has been found. -/
def filesOf (found : List Found) : List PathText :=
  found.filterMap Found.toFile?

/-- The parts of a pattern. A run of double stars goes with the part behind it, and with a star at
the end. -/
def stepsOf : List PathText → List (Bool × PathText)
  | [] => []
  | part :: parts =>
      if part = doubleStar then
        match stepsOf parts with
        | [] => [(true, ['*'])]
        | (_, next) :: rest => (true, next) :: rest
      else (false, part) :: stepsOf parts

section Expand

variable (fs : FileSystem) (matchesName : PathText → PathText → Bool)

/-- Hidden entries are only looked at for directories that are given by their names. -/
def hiddenFilter (isDir : Bool) (filePattern : PathText) : Bool :=
  isDir && !isPattern filePattern

/-- The entries for a directory itself and the one above it. -/
def dotEntries (filePattern : PathText) (base : Place) : List Entry :=
  if filePattern = ['.'] then [⟨base, ['.'], true, base.position⟩]
  else if filePattern = dotDot then [⟨base, dotDot, true, base.position.dropLast⟩]
  else []

/-- The entries of a directory that match a pattern. -/
def entryList (filePattern : PathText) (isDir : Bool) (base : Place) : List Entry :=
  dotEntries filePattern base ++ (fs.entries base.position).filterMap fun e =>
    if matchesName filePattern e.1 && (hiddenFilter isDir filePattern || !isHidden e.1) &&
        (!isDir || e.2) then
      some ⟨base, e.1, e.2, base.position ++ [e.1]⟩
    else none

/-- The entries of a directory, or of all directories below it, that match a pattern. -/
def iterate (filePattern : PathText) (isDir recursive : Bool) (base : Place) : List Entry :=
  (if recursive then fs.below (hiddenFilter isDir filePattern) fs.depth base else [base]).flatMap
    (entryList fs matchesName filePattern isDir)

variable (buildDir : PathText)

/-- Expand the parts of a pattern in a directory. We must make sure we don't match any generated
files as source files. -/
def expandSteps : List (Bool × PathText) → Place → List Found
  | [], _ => []
  | (recursive, filePattern) :: rest, baseDir =>
      if buildDir.isPrefixOf baseDir.text then []
      else
        .directory baseDir baseDir ::
          (iterate fs matchesName filePattern (!rest.isEmpty) recursive baseDir).flatMap fun e =>
            if buildDir.isPrefixOf e.parent.text then []
            else if rest.isEmpty && e.isDir then []
            else if rest.isEmpty then
              (if e.parent.text ≠ baseDir.text then [.directory e.parent baseDir]
                else []) ++ [.file (cleanPath e.path)]
            else expandSteps rest e.place

variable (homePath : PathText)

/-- A pattern with the prefix of the group. -/
def fullPattern (groupPrefix pattern : PathText) : PathText :=
  let expandedPrefix :=
    if ['~', '/'].isPrefixOf groupPrefix then homePath ++ groupPrefix.drop 1 else groupPrefix
  (expandedPrefix ++ pattern).map fun c => if c = '\\' then '/' else c

/-- Where the expansion of a pattern starts. -/
def startPlace (pattern : PathText) (baseDir : Place) : Place :=
  if isAbsolute pattern then ⟨['/'], []⟩ else baseDir

/-- Expand a list of patterns. -/
def expandList (groupPrefix : PathText) (patterns : List PathText) (baseDir : Place) : List Found :=
  patterns.flatMap fun pattern =>
    let pattern := fullPattern homePath groupPrefix pattern
    expandSteps fs matchesName buildDir (stepsOf (components pattern)) (startPlace pattern baseDir)

/-- The files that match the patterns, and not the exclude patterns. -/
def expandPatterns (wildcards : Wildcards) (baseDir : Place) : List PathText :=
  let files := filesOf (expandList fs matchesName buildDir homePath wildcards.groupPrefix
    wildcards.patterns baseDir)
  files.filter fun file => file ∉ filesOf (expandList fs matchesName buildDir homePath
    wildcards.groupPrefix wildcards.excludePatterns baseDir)

end Expand

/-! ## Ways through the steps -/

section Ways

variable {fs : FileSystem} {matchesName : PathText → PathText → Bool}
  {filePattern : PathText} {isDir recursive : Bool} {base : Place} {e : Entry}

theorem hiddenFilter_directory_iff :
    hiddenFilter true filePattern = true ↔ isPattern filePattern = false := by
  unfold hiddenFilter
  rw [Bool.true_and, Bool.not_eq_true']

theorem mem_dotEntries_iff : e ∈ dotEntries filePattern base ↔
    filePattern = ['.'] ∧ e = ⟨base, ['.'], true, base.position⟩ ∨
      filePattern = dotDot ∧ e = ⟨base, dotDot, true, base.position.dropLast⟩ := by
  unfold dotEntries
  split_ifs with hdot hdotDot
  · rw [List.mem_singleton, and_iff_right hdot, or_iff_left]
    rintro ⟨h, -⟩
    rw [hdot] at h
    cases h
  · rw [List.mem_singleton, and_iff_right hdotDot, or_iff_right]
    exact fun h => hdot h.1
  · refine iff_of_false List.not_mem_nil ?_
    rintro (h | h)
    · exact hdot h.1
    · exact hdotDot h.1

theorem mem_entryList_iff : e ∈ entryList fs matchesName filePattern isDir base ↔
    e ∈ dotEntries filePattern base ∨
      (e.name, e.isDir) ∈ fs.entries base.position ∧ matchesName filePattern e.name = true ∧
        (hiddenFilter isDir filePattern = true ∨ isHidden e.name = false) ∧
        (isDir = true → e.isDir = true) ∧ e.parent = base ∧
        e.position = base.position ++ [e.name] := by
  unfold entryList
  rw [List.mem_append, List.mem_filterMap]
  refine or_congr_right ?_
  have hcond (name : PathText) (b : Bool) :
      (matchesName filePattern name && (hiddenFilter isDir filePattern || !isHidden name) &&
        (!isDir || b)) = true ↔ matchesName filePattern name = true ∧
          (hiddenFilter isDir filePattern = true ∨ isHidden name = false) ∧
          (isDir = true → b = true) := by
    rw [Bool.and_eq_true, Bool.and_eq_true, Bool.or_eq_true, Bool.or_eq_true,
      Bool.not_eq_true', Bool.not_eq_true', and_assoc, imp_iff_not_or, Bool.not_eq_true]
  constructor
  · rintro ⟨⟨name, b⟩, hentry, h⟩
    split_ifs at h with hc
    rw [← Option.some.inj h]
    rcases (hcond name b).mp hc with ⟨hmatches, hvisible, hdir⟩
    exact ⟨hentry, hmatches, hvisible, hdir, rfl, rfl⟩
  · rcases e with ⟨parent, name, b, position⟩
    rintro ⟨hentry, hmatches, hvisible, hdir, hparent, hposition⟩
    dsimp only at hparent hposition
    subst hparent hposition
    exact ⟨(name, b), hentry, if_pos ((hcond name b).mpr ⟨hmatches, hvisible, hdir⟩)⟩

/-- An entry is found in the directory, or in one below it. -/
theorem mem_iterate_iff : e ∈ iterate fs matchesName filePattern isDir recursive base ↔
    ∃ d, (if recursive then fs.Below (hiddenFilter isDir filePattern) base d else d = base) ∧
      e ∈ entryList fs matchesName filePattern isDir d := by
  unfold iterate
  rw [List.mem_flatMap]
  refine exists_congr fun d => and_congr_left fun _ => ?_
  cases recursive with
  | true =>
      rw [if_pos rfl, if_pos rfl]
      exact FileSystem.mem_below_iff
  | false =>
      rw [if_neg Bool.false_ne_true, if_neg Bool.false_ne_true]
      exact List.mem_singleton

theorem parent_of_mem_entryList (h : e ∈ entryList fs matchesName filePattern isDir base) :
    e.parent = base := by
  rcases mem_entryList_iff.mp h with h | h
  · rcases mem_dotEntries_iff.mp h with ⟨-, rfl⟩ | ⟨-, rfl⟩
    · rfl
    · rfl
  · exact h.2.2.2.2.1

/-- The texts of paths get longer on the way down. -/
theorem prefix_of_mem_iterate
    (h : e ∈ iterate fs matchesName filePattern isDir recursive base) :
    base.text <+: e.parent.text := by
  rcases mem_iterate_iff.mp h with ⟨d, hd, he⟩
  rw [parent_of_mem_entryList he]
  cases recursive with
  | true => exact FileSystem.Below.prefix_text hd
  | false =>
      have hd : d = base := hd
      exact hd ▸ List.prefix_rfl

/-- A way through the steps of a pattern. -/
def Leads (fs : FileSystem) (matchesName : PathText → PathText → Bool) :
    List (Bool × PathText) → Place → Place → PathText → Prop
  | [], _, _, _ => False
  | (recursive, filePattern) :: rest, base, parent, n =>
      ∃ e ∈ iterate fs matchesName filePattern (!rest.isEmpty) recursive base,
        if rest.isEmpty then e.isDir = false ∧ e.parent = parent ∧ e.name = n
        else Leads fs matchesName rest e.place parent n

variable {steps : List (Bool × PathText)} {buildDir path : PathText}

theorem Leads.prefix_text {parent : Place} {n : PathText}
    (h : Leads fs matchesName steps base parent n) : base.text <+: parent.text := by
  induction steps generalizing base with
  | nil => exact h.elim
  | cons step rest ih =>
      rcases h with ⟨e, he, h⟩
      have hbegins := prefix_of_mem_iterate he
      split_ifs at h with hlast
      · rw [← h.2.1]
        exact hbegins
      · exact (hbegins.trans (prefix_entryPath _ _)).trans (ih h)

theorem mem_unless_prefix_iff {found : Found} {l : List Found} :
    found ∈ (if buildDir.isPrefixOf path then [] else l) ↔ ¬ buildDir <+: path ∧ found ∈ l := by
  rw [← List.isPrefixOf_iff_prefix]
  split_ifs with hbuild
  · exact iff_of_false List.not_mem_nil fun h => h.1 hbuild
  · rw [and_iff_right hbuild]

/-- What the last step finds. -/
theorem mem_expandSteps_last_iff {found : Found} :
    found ∈ expandSteps fs matchesName buildDir [(recursive, filePattern)] base ↔
      ¬ buildDir <+: base.text ∧ (found = .directory base base ∨
        ∃ e ∈ iterate fs matchesName filePattern false recursive base,
          ¬ buildDir <+: e.parent.text ∧ e.isDir = false ∧
            (e.parent.text ≠ base.text ∧ found = .directory e.parent base ∨
              found = .file (cleanPath e.path))) := by
  unfold expandSteps
  rw [mem_unless_prefix_iff, List.mem_cons, List.mem_flatMap]
  refine and_congr_right fun _ => or_congr_right (exists_congr fun e => and_congr_right fun _ => ?_)
  rw [mem_unless_prefix_iff]
  refine and_congr_right fun _ => ?_
  cases hdir : e.isDir with
  | true => exact iff_of_false List.not_mem_nil fun h => Bool.false_ne_true h.1.symm
  | false =>
      show found ∈ (if _ then _ else _) ++ [_] ↔ _
      rw [and_iff_right rfl, List.mem_append, List.mem_singleton]
      refine or_congr_left ?_
      split_ifs with htext
      · rw [List.mem_singleton, and_iff_right htext]
      · exact iff_of_false List.not_mem_nil fun h => htext h.1

/-- What another step finds. -/
theorem mem_expandSteps_cons_iff {found : Found} {step : Bool × PathText}
    {rest : List (Bool × PathText)} :
    found ∈ expandSteps fs matchesName buildDir ((recursive, filePattern) :: step :: rest) base ↔
      ¬ buildDir <+: base.text ∧ (found = .directory base base ∨
        ∃ e ∈ iterate fs matchesName filePattern true recursive base,
          ¬ buildDir <+: e.parent.text ∧
            found ∈ expandSteps fs matchesName buildDir (step :: rest) e.place) := by
  rw [expandSteps, mem_unless_prefix_iff, List.mem_cons, List.mem_flatMap]
  refine and_congr_right fun _ => or_congr_right (exists_congr fun e => and_congr_right fun _ => ?_)
  rw [mem_unless_prefix_iff]
  rfl

/-- The expansion finds the files to which a way leads on which the texts of the paths do not start
with that of the build directory. -/
theorem file_mem_expandSteps_iff :
    .file path ∈ expandSteps fs matchesName buildDir steps base ↔
      ∃ parent n, Leads fs matchesName steps base parent n ∧ ¬ buildDir <+: parent.text ∧
        path = cleanPath (entryPath parent.text n) := by
  induction steps generalizing base with
  | nil => exact iff_of_false List.not_mem_nil fun ⟨_, _, h, _⟩ => h
  | cons step rest ih =>
      rcases step with ⟨recursive, filePattern⟩
      cases rest with
      | nil =>
          rw [mem_expandSteps_last_iff]
          constructor
          · rintro ⟨-, hfound | ⟨e, he, hparent, hdir, ⟨-, hfound⟩ | hfound⟩⟩
            · cases hfound
            · cases hfound
            · cases hfound
              exact ⟨e.parent, e.name, ⟨e, he, hdir, rfl, rfl⟩, hparent, rfl⟩
          · rintro ⟨parent, n, ⟨e, he, hdir, rfl, rfl⟩, hparent, rfl⟩
            exact ⟨fun h => hparent (h.trans (prefix_of_mem_iterate he)),
              Or.inr ⟨e, he, hparent, hdir, Or.inr rfl⟩⟩
      | cons step rest =>
          rw [mem_expandSteps_cons_iff]
          constructor
          · rintro ⟨-, hfound | ⟨e, he, -, hfound⟩⟩
            · cases hfound
            · rcases ih.mp hfound with ⟨parent, n, hleads, hrest⟩
              exact ⟨parent, n, ⟨e, he, hleads⟩, hrest⟩
          · rintro ⟨parent, n, ⟨e, he, hleads⟩, hnot, hpath⟩
            have hbegins : e.parent.text <+: parent.text :=
              (prefix_entryPath _ _).trans (Leads.prefix_text hleads)
            exact ⟨fun h => hnot ((h.trans (prefix_of_mem_iterate he)).trans hbegins),
              Or.inr ⟨e, he, fun h => hnot (h.trans hbegins),
                ih.mpr ⟨parent, n, hleads, hnot, hpath⟩⟩⟩

/-! ## Steps and parts -/

/-- The first step for some parts. Which directories it looks at does not depend on double stars
before it. -/
theorem stepsOf_cons (part : PathText) (parts : List PathText) :
    ∃ r p rest, stepsOf (part :: parts) = (r, p) :: rest ∧
      seesHidden (part :: parts) = hiddenFilter (!rest.isEmpty) p := by
  induction parts generalizing part with
  | nil =>
      by_cases hpart : part = doubleStar
      · refine ⟨true, ['*'], [], ?_, rfl⟩
        unfold stepsOf
        rw [if_pos hpart]
        rfl
      · refine ⟨false, part, [], ?_, rfl⟩
        unfold stepsOf
        rw [if_neg hpart]
        rfl
  | cons next parts ih =>
      rcases ih next with ⟨r, p, rest, hsteps, hsees⟩
      by_cases hpart : part = doubleStar
      · refine ⟨true, p, rest, ?_, ?_⟩
        · rw [stepsOf, if_pos hpart, hsteps]
        · rw [seesHidden, if_pos hpart, hsees]
      · refine ⟨false, part, (r, p) :: rest, ?_, ?_⟩
        · rw [stepsOf, if_neg hpart, hsteps]
        · rw [seesHidden, if_neg hpart]
          rfl

theorem mem_iterate_recursive_iff (recursive : Bool) :
    e ∈ iterate fs matchesName filePattern isDir true base ↔
    ∃ d, fs.Below (hiddenFilter isDir filePattern) base d ∧
      e ∈ iterate fs matchesName filePattern isDir recursive d := by
  simp only [mem_iterate_iff]
  constructor
  · rintro ⟨d, hd, he⟩
    refine ⟨d, hd, d, ?_, he⟩
    cases recursive with
    | true => exact FileSystem.Below.refl d
    | false => exact rfl
  · rintro ⟨d, hd, d', hd', he⟩
    refine ⟨d', ?_, he⟩
    cases recursive with
    | true => exact FileSystem.Below.trans hd hd'
    | false =>
        have hd' : d' = d := hd'
        exact hd' ▸ hd

variable {part next n : PathText} {parent : Place} {parts : List PathText}

/-- The parts behind two stars. -/
def behindStars (parts : List PathText) : List PathText :=
  if parts = [] then [['*']] else parts

theorem leads_doubleStar_iff : Leads fs matchesName (stepsOf (doubleStar :: parts)) base parent n ↔
    ∃ d, fs.Below (seesHidden parts) base d ∧
      Leads fs matchesName (stepsOf (behindStars parts)) d parent n := by
  have hlookup {p : PathText} {rest : List (Bool × PathText)} (r : Bool) :
      Leads fs matchesName ((true, p) :: rest) base parent n ↔
        ∃ d, fs.Below (hiddenFilter (!rest.isEmpty) p) base d ∧
          Leads fs matchesName ((r, p) :: rest) d parent n := by
    unfold Leads
    simp only [mem_iterate_recursive_iff r]
    constructor
    · rintro ⟨e, ⟨d, hd, he⟩, h⟩
      exact ⟨d, hd, e, he, h⟩
    · rintro ⟨d, hd, e, he, h⟩
      exact ⟨e, ⟨d, hd, he⟩, h⟩
  cases parts with
  | nil => exact hlookup false
  | cons next parts =>
      rcases stepsOf_cons next parts with ⟨r, p, rest, hsteps, hsees⟩
      rw [stepsOf, if_pos rfl, behindStars, if_neg (List.cons_ne_nil next parts), hsteps, hsees]
      exact hlookup r

theorem way_doubleStar_iff : Way fs matchesName (doubleStar :: parts) base parent n ↔
    ∃ d, fs.Below (seesHidden parts) base d ∧
      Way fs matchesName (behindStars parts) d parent n := by
  constructor
  · intro h
    generalize hall : doubleStar :: parts = all at h
    induction h with
    | file hpart => exact absurd (List.cons.inj hall).1.symm hpart
    | directory hpart => exact absurd (List.cons.inj hall).1.symm hpart
    | dot => cases hall
    | dotDot => cases hall
    | noDirectory h =>
        cases hall
        exact ⟨_, FileSystem.Below.refl _, h⟩
    | someDirectory hentry hvisible _ ih =>
        cases hall
        rcases ih rfl with ⟨d, hd, h⟩
        exact ⟨d, FileSystem.Below.step hentry hvisible hd, h⟩
    | allFiles h =>
        cases hall
        exact ⟨_, FileSystem.Below.refl _, h⟩
  · rintro ⟨d, hd, h⟩
    induction hd with
    | refl base =>
        cases parts with
        | nil => exact Way.allFiles h
        | cons next parts => exact Way.noDirectory h
    | step hentry hvisible _ ih => exact Way.someDirectory hentry hvisible (ih h)

/-- The last part of a pattern leads to files. -/
theorem leads_last_iff (hpart : part ≠ doubleStar) :
    Leads fs matchesName [(false, part)] base parent n ↔
      Way fs matchesName [part] base parent n := by
  constructor
  · rintro ⟨e, he, hfile, rfl, rfl⟩
    rcases mem_iterate_iff.mp he with ⟨d, hd, he⟩
    have hd : d = base := hd
    rw [hd] at he
    rcases mem_entryList_iff.mp he with he | ⟨hentry, hmatches, hvisible, -, hparent, -⟩
    · rcases mem_dotEntries_iff.mp he with ⟨-, rfl⟩ | ⟨-, rfl⟩
      · cases hfile
      · cases hfile
    · rw [hfile] at hentry
      rw [hparent]
      refine Way.file hpart hentry hmatches ?_
      rcases hvisible with h | h
      · cases h
      · exact h
  · intro h
    cases h with
    | file _ hentry hmatches hvisible =>
        refine ⟨⟨base, n, false, base.position ++ [n]⟩, mem_iterate_iff.mpr ⟨base, rfl, ?_⟩,
          rfl, rfl, rfl⟩
        exact mem_entryList_iff.mpr (Or.inr ⟨hentry, hmatches, Or.inr hvisible, nofun, rfl, rfl⟩)
    | someDirectory => exact absurd rfl hpart
    | allFiles => exact absurd rfl hpart

/-- Another part leads to a directory. -/
theorem leads_cons_iff {step : Bool × PathText} :
    Leads fs matchesName ((false, part) :: step :: steps) base parent n ↔
      (part = ['.'] ∧ Leads fs matchesName (step :: steps)
        ⟨entryPath base.text ['.'], base.position⟩ parent n) ∨
      (part = dotDot ∧ Leads fs matchesName (step :: steps)
        ⟨entryPath base.text dotDot, base.position.dropLast⟩ parent n) ∨
      ∃ name, (name, true) ∈ fs.entries base.position ∧ matchesName part name = true ∧
        (isPattern part = false ∨ isHidden name = false) ∧
        Leads fs matchesName (step :: steps) (base.child name) parent n := by
  constructor
  · rintro ⟨e, he, h⟩
    rcases mem_iterate_iff.mp he with ⟨d, hd, he⟩
    have hd : d = base := hd
    rw [hd] at he
    rcases mem_entryList_iff.mp he with he | ⟨hentry, hmatches, hvisible, hdir, hparent, hposition⟩
    · rcases mem_dotEntries_iff.mp he with ⟨hpart, rfl⟩ | ⟨hpart, rfl⟩
      · exact Or.inl ⟨hpart, h⟩
      · exact Or.inr (Or.inl ⟨hpart, h⟩)
    · refine Or.inr (Or.inr ⟨e.name, hdir rfl ▸ hentry, hmatches, ?_, ?_⟩)
      · exact hvisible.imp_left hiddenFilter_directory_iff.mp
      · have hplace : e.place = base.child e.name := by
          unfold Entry.place Entry.path Place.child
          rw [hparent, hposition]
        rw [← hplace]
        exact h
  · rintro (⟨hpart, h⟩ | ⟨hpart, h⟩ | ⟨name, hentry, hmatches, hvisible, h⟩)
    · refine ⟨⟨base, ['.'], true, base.position⟩, mem_iterate_iff.mpr ⟨base, rfl, ?_⟩, h⟩
      exact mem_entryList_iff.mpr (Or.inl (mem_dotEntries_iff.mpr (Or.inl ⟨hpart, rfl⟩)))
    · refine ⟨⟨base, dotDot, true, base.position.dropLast⟩,
        mem_iterate_iff.mpr ⟨base, rfl, ?_⟩, h⟩
      exact mem_entryList_iff.mpr (Or.inl (mem_dotEntries_iff.mpr (Or.inr ⟨hpart, rfl⟩)))
    · refine ⟨⟨base, name, true, base.position ++ [name]⟩,
        mem_iterate_iff.mpr ⟨base, rfl, ?_⟩, h⟩
      exact mem_entryList_iff.mpr (Or.inr ⟨hentry, hmatches,
        hvisible.imp_left hiddenFilter_directory_iff.mpr, fun _ => rfl, rfl, rfl⟩)

theorem way_cons_iff (hpart : part ≠ doubleStar) :
    Way fs matchesName (part :: next :: parts) base parent n ↔
      (part = ['.'] ∧ Way fs matchesName (next :: parts)
        ⟨entryPath base.text ['.'], base.position⟩ parent n) ∨
      (part = dotDot ∧ Way fs matchesName (next :: parts)
        ⟨entryPath base.text dotDot, base.position.dropLast⟩ parent n) ∨
      ∃ name, (name, true) ∈ fs.entries base.position ∧ matchesName part name = true ∧
        (isPattern part = false ∨ isHidden name = false) ∧
        Way fs matchesName (next :: parts) (base.child name) parent n := by
  constructor
  · intro h
    cases h with
    | directory _ hentry hmatches hvisible h =>
        exact Or.inr (Or.inr ⟨_, hentry, hmatches, hvisible, h⟩)
    | dot h => exact Or.inl ⟨rfl, h⟩
    | dotDot h => exact Or.inr (Or.inl ⟨rfl, h⟩)
    | noDirectory => exact absurd rfl hpart
    | someDirectory => exact absurd rfl hpart
  · rintro (⟨rfl, h⟩ | ⟨rfl, h⟩ | ⟨name, hentry, hmatches, hvisible, h⟩)
    · exact Way.dot h
    · exact Way.dotDot h
    · exact Way.directory hpart hentry hmatches hvisible h

/-- The steps for the parts of a pattern lead to what the parts stand for. -/
theorem leads_stepsOf_iff :
    Leads fs matchesName (stepsOf parts) base parent n ↔
      Way fs matchesName parts base parent n := by
  induction parts generalizing base with
  | nil => exact ⟨False.elim, nofun⟩
  | cons part parts ih =>
      by_cases hpart : part = doubleStar
      · rw [hpart, leads_doubleStar_iff, way_doubleStar_iff]
        refine exists_congr fun d => and_congr_right fun _ => ?_
        cases parts with
        | nil => exact leads_last_iff (by decide)
        | cons next parts => exact ih
      · cases parts with
        | nil =>
            rw [stepsOf, if_neg hpart]
            exact leads_last_iff hpart
        | cons next parts =>
            rcases stepsOf_cons next parts with ⟨r, p, rest, hsteps, -⟩
            rw [hsteps] at ih
            rw [stepsOf, if_neg hpart, hsteps, leads_cons_iff, way_cons_iff hpart]
            refine or_congr (and_congr_right fun _ => ih) (or_congr
              (and_congr_right fun _ => ih) (exists_congr fun name => ?_))
            rw [ih]

/-- The files that some patterns expand to. -/
theorem mem_filesOf_expandList_iff {homePath groupPrefix : PathText} {patterns : List PathText} :
    path ∈ filesOf (expandList fs matchesName buildDir homePath groupPrefix patterns base) ↔
      ∃ pattern ∈ patterns.map (fullPattern homePath groupPrefix), ∃ parent n,
        Way fs matchesName (components pattern) (startPlace pattern base) parent n ∧
          ¬ buildDir <+: parent.text ∧ path = cleanPath (entryPath parent.text n) := by
  have hfile (found : List Found) : path ∈ filesOf found ↔ .file path ∈ found := by
    unfold filesOf
    rw [List.mem_filterMap]
    constructor
    · rintro ⟨f, hf, h⟩
      cases f with
      | directory dir timeStampOf => cases h
      | file other =>
          cases h
          exact hf
    · exact fun h => ⟨_, h, rfl⟩
  unfold expandList
  rw [hfile, List.mem_flatMap]
  simp only [List.mem_map, exists_exists_and_eq_and, file_mem_expandSteps_iff, leads_stepsOf_iff]

end Ways

/-! ## The files of a group -/

section Files

variable (fs : FileSystem) (matchesName : PathText → PathText → Bool) (homePath : PathText)

/-- Some patterns stand for a file in a directory, with the path to it as it is spelled. -/
def Reaches (groupPrefix : PathText) (patterns : List PathText) (baseDir : Place)
    (parent : Place) (n : PathText) : Prop :=
  ∃ pattern ∈ patterns.map (fullPattern homePath groupPrefix),
    Way fs matchesName (components pattern) (startPlace pattern baseDir) parent n

def IsMatched (groupPrefix : PathText) (patterns : List PathText) (baseDir : Place)
    (path : PathText) : Prop :=
  ∃ parent n, Reaches fs matchesName homePath groupPrefix patterns baseDir parent n ∧
    path = cleanPath (entryPath parent.text n)

/-- A file lies in a directory, or below it. -/
def LiesIn (dir path : PathText) : Prop :=
  components dir <+: (components path).dropLast

/-- What the documentation says about the files of a group. -/
structure IsDocumented (buildDir : PathText) (wildcards : Wildcards) (baseDir : Place)
    (path : PathText) : Prop where
  matched : IsMatched fs matchesName homePath wildcards.groupPrefix wildcards.patterns baseDir path
  notExcluded : ¬ IsMatched fs matchesName homePath wildcards.groupPrefix
    wildcards.excludePatterns baseDir path
  notBuilt : ¬ LiesIn buildDir path

/-- The text of a path to the directory of a file that some patterns stand for does not start with
that of the build directory. -/
def IsKept (buildDir groupPrefix : PathText) (patterns : List PathText) (baseDir : Place)
    (path : PathText) : Prop :=
  ∃ parent n, Reaches fs matchesName homePath groupPrefix patterns baseDir parent n ∧
    ¬ buildDir <+: parent.text ∧ path = cleanPath (entryPath parent.text n)

/-- The texts of the paths to the documented files do not start with that of the build directory.
Those to the other ones do, or there is one to exclude them that does not. -/
def TextsDecide (buildDir : PathText) (wildcards : Wildcards) (baseDir : Place) : Prop :=
  ∀ path, (IsDocumented fs matchesName homePath buildDir wildcards baseDir path →
      IsKept fs matchesName homePath buildDir wildcards.groupPrefix wildcards.patterns baseDir
        path) ∧
    (¬ IsDocumented fs matchesName homePath buildDir wildcards baseDir path →
      IsKept fs matchesName homePath buildDir wildcards.groupPrefix wildcards.patterns baseDir
        path →
      IsKept fs matchesName homePath buildDir wildcards.groupPrefix wildcards.excludePatterns
        baseDir path)

/-- The patterns of a group have no dots in place of names. -/
def Wildcards.NoDots (wildcards : Wildcards) : Prop :=
  ∀ pattern ∈ (wildcards.patterns ++ wildcards.excludePatterns).map
      (fullPattern homePath wildcards.groupPrefix),
    ['.'] ∉ components pattern ∧ dotDot ∉ components pattern

variable {fs matchesName homePath} {buildDir groupPrefix path : PathText}
  {patterns : List PathText} {wildcards : Wildcards} {baseDir : Place}

theorem IsKept.isMatched
    (h : IsKept fs matchesName homePath buildDir groupPrefix patterns baseDir path) :
    IsMatched fs matchesName homePath groupPrefix patterns baseDir path := by
  rcases h with ⟨parent, n, hreaches, -, hpath⟩
  exact ⟨parent, n, hreaches, hpath⟩

theorem mem_filesOf_iff_isKept :
    path ∈ filesOf (expandList fs matchesName buildDir homePath groupPrefix patterns baseDir) ↔
      IsKept fs matchesName homePath buildDir groupPrefix patterns baseDir path := by
  rw [mem_filesOf_expandList_iff]
  unfold IsKept Reaches
  constructor
  · rintro ⟨pattern, hpattern, parent, n, hway, hrest⟩
    exact ⟨parent, n, ⟨pattern, hpattern, hway⟩, hrest⟩
  · rintro ⟨parent, n, ⟨pattern, hpattern, hway⟩, hrest⟩
    exact ⟨pattern, hpattern, parent, n, hway, hrest⟩

theorem mem_expandPatterns_iff :
    path ∈ expandPatterns fs matchesName buildDir homePath wildcards baseDir ↔
      IsKept fs matchesName homePath buildDir wildcards.groupPrefix wildcards.patterns baseDir
        path ∧
      ¬ IsKept fs matchesName homePath buildDir wildcards.groupPrefix wildcards.excludePatterns
        baseDir path := by
  unfold expandPatterns
  rw [List.mem_filter, decide_eq_true_iff, mem_filesOf_iff_isKept, mem_filesOf_iff_isKept]

theorem expanded_iff_textsDecide :
    (∀ path, path ∈ expandPatterns fs matchesName buildDir homePath wildcards baseDir ↔
      IsDocumented fs matchesName homePath buildDir wildcards baseDir path) ↔
    TextsDecide fs matchesName homePath buildDir wildcards baseDir := by
  simp only [mem_expandPatterns_iff]
  constructor
  · intro h path
    refine ⟨fun hdocumented => ((h path).mpr hdocumented).1, fun hnot hkept => ?_⟩
    by_contra hexcluded
    exact hnot ((h path).mp ⟨hkept, hexcluded⟩)
  · intro h path
    constructor
    · rintro ⟨hkept, hexcluded⟩
      by_contra hnot
      exact hexcluded ((h path).2 hnot hkept)
    · exact fun hdocumented => ⟨(h path).1 hdocumented,
        fun hexcluded => hdocumented.notExcluded hexcluded.isMatched⟩

/-! ## Patterns without dots -/

variable {dir : FileInfo.CleanPath} {n : PathText}

/-- The text of the path to a directory is what it should be if there are no dots. -/
theorem names_of_way {parts : List PathText} {parent : Place}
    (h : Way fs matchesName parts (placeOf dir) parent n) (hdot : ['.'] ∉ parts)
    (hdotDot : dotDot ∉ parts) : ∃ d : FileInfo.CleanPath, parent = placeOf d ∧ IsName n := by
  generalize hbase : placeOf dir = base at h
  induction h generalizing dir with
  | file _ hentry _ _ =>
      cases hbase
      exact ⟨dir, rfl, fs.isName _ _ hentry⟩
  | directory _ hentry _ _ _ ih =>
      cases hbase
      exact ih (fun h => hdot (List.mem_cons_of_mem _ h))
        (fun h => hdotDot (List.mem_cons_of_mem _ h))
        (placeOf_childPath (fs.isName _ _ hentry))
  | dot => exact absurd List.mem_cons_self hdot
  | dotDot => exact absurd List.mem_cons_self hdotDot
  | noDirectory _ ih =>
      exact ih (fun h => hdot (List.mem_cons_of_mem _ h))
        (fun h => hdotDot (List.mem_cons_of_mem _ h)) hbase
  | someDirectory hentry _ _ ih =>
      cases hbase
      exact ih hdot hdotDot (placeOf_childPath (fs.isName _ _ hentry))
  | allFiles _ ih => exact ih (by decide) (by decide) hbase

theorem startPlace_placeOf (pattern : PathText) (dir : FileInfo.CleanPath) :
    ∃ d, startPlace pattern (placeOf dir) = placeOf d := by
  unfold startPlace
  split_ifs
  · exact ⟨⟨[], FileInfo.CleanPath.names_nil⟩, rfl⟩
  · exact ⟨dir, rfl⟩

theorem cleanPath_entryPath (d : FileInfo.CleanPath) (hn : IsName n) :
    cleanPath (entryPath d.text n) = pathOf (d.segments ++ [n]) := by
  rw [FileInfo.CleanPath.text, entryPath_pathOf d.names]
  exact FileInfo.cleanPath_pathOf (d.reduced.append fun s hs => List.mem_singleton.mp hs ▸ hn)

theorem liesIn_iff (buildDir d : FileInfo.CleanPath) (hn : IsName n) :
    LiesIn buildDir.text (cleanPath (entryPath d.text n)) ↔
      buildDir.segments <+: d.segments := by
  unfold LiesIn
  rw [cleanPath_entryPath d hn, FileInfo.CleanPath.components_text, FileInfo.components_pathOf
    (d.reduced.append fun s hs => List.mem_singleton.mp hs ▸ hn), List.dropLast_concat]

theorem prefix_text_of_segments {p q : FileInfo.CleanPath} (h : p.segments <+: q.segments) :
    p.text <+: q.text := by
  rcases h with ⟨rest, hrest⟩
  unfold FileInfo.CleanPath.text pathOf
  rw [← hrest]
  by_cases hp : p.segments = []
  · rw [if_pos hp, hp]
    split_ifs with hq
    · exact List.prefix_rfl
    · cases rest with
      | nil => exact absurd rfl hq
      | cons s rest => exact ⟨_, rfl⟩
  · rw [if_neg hp, if_neg fun h => hp (List.append_eq_nil_iff.mp h).1, Segments.joined_append]
    exact List.prefix_append _ _

/-- All paths to a file are the same if there are no dots in the patterns. -/
theorem eq_of_cleanPath_eq {d d' : FileInfo.CleanPath} {n' : PathText} (hn : IsName n)
    (hn' : IsName n') (h : cleanPath (entryPath d.text n) = cleanPath (entryPath d'.text n')) :
    d = d' := by
  rw [cleanPath_entryPath d hn, cleanPath_entryPath d' hn'] at h
  have hsegments := FileInfo.pathOf_injective
    (d.reduced.append fun s hs => List.mem_singleton.mp hs ▸ hn)
    (d'.reduced.append fun s hs => List.mem_singleton.mp hs ▸ hn') h
  refine FileInfo.CleanPath.text_injective ?_
  unfold FileInfo.CleanPath.text
  rw [(List.append_inj' hsegments rfl).1]

theorem names_of_reaches {dir : FileInfo.CleanPath} {parent : Place} {n : PathText}
    (hpatterns : ∀ pattern ∈ patterns.map (fullPattern homePath groupPrefix),
      ['.'] ∉ components pattern ∧ dotDot ∉ components pattern)
    (h : Reaches fs matchesName homePath groupPrefix patterns (placeOf dir) parent n) :
    ∃ d : FileInfo.CleanPath, parent = placeOf d ∧ IsName n := by
  rcases h with ⟨pattern, hpattern, hway⟩
  rcases startPlace_placeOf pattern dir with ⟨d, hd⟩
  rw [hd] at hway
  exact names_of_way hway (hpatterns pattern hpattern).1 (hpatterns pattern hpattern).2

theorem Wildcards.NoDots.of_subset (h : wildcards.NoDots homePath)
    (hpatterns : patterns ⊆ wildcards.patterns ++ wildcards.excludePatterns) :
    ∀ pattern ∈ patterns.map (fullPattern homePath wildcards.groupPrefix),
      ['.'] ∉ components pattern ∧ dotDot ∉ components pattern :=
  fun pattern hpattern => h pattern (List.map_subset _ hpatterns hpattern)

/-- Without dots, it depends on the directories of the documented files. -/
theorem textsDecide_iff {buildDir : FileInfo.CleanPath} (hdots : wildcards.NoDots homePath) :
    TextsDecide fs matchesName homePath buildDir.text wildcards (placeOf dir) ↔
      ∀ parent n, Reaches fs matchesName homePath wildcards.groupPrefix wildcards.patterns
          (placeOf dir) parent n →
        IsDocumented fs matchesName homePath buildDir.text wildcards (placeOf dir)
          (cleanPath (entryPath parent.text n)) → ¬ buildDir.text <+: parent.text := by
  have hpatterns := hdots.of_subset (List.subset_append_left _ _)
  have hexclude := hdots.of_subset (List.subset_append_right _ _)
  constructor
  · intro h parent n hreaches hdocumented hbegins
    rcases (h _).1 hdocumented with ⟨parent', n', hreaches', hnot, heq⟩
    rcases names_of_reaches hpatterns hreaches with ⟨d, rfl, hn⟩
    rcases names_of_reaches hpatterns hreaches' with ⟨d', rfl, hn'⟩
    cases eq_of_cleanPath_eq hn hn' heq
    exact hnot hbegins
  · intro h path
    constructor
    · intro hdocumented
      rcases hdocumented.matched with ⟨parent, n, hreaches, rfl⟩
      exact ⟨parent, n, hreaches, h parent n hreaches hdocumented, rfl⟩
    · intro hnot hkept
      rcases hkept with ⟨parent, n, hreaches, hbegins, rfl⟩
      by_contra hexcluded
      rcases names_of_reaches hpatterns hreaches with ⟨d, rfl, hn⟩
      refine hnot ⟨⟨_, _, hreaches, rfl⟩, ?_, ?_⟩
      · rintro ⟨parent', n', hreaches', heq⟩
        rcases names_of_reaches hexclude hreaches' with ⟨d', rfl, hn'⟩
        cases eq_of_cleanPath_eq hn hn' heq
        exact hexcluded ⟨_, _, hreaches', hbegins, heq⟩
      · exact fun hlies =>
          hbegins (prefix_text_of_segments ((liesIn_iff buildDir d hn).mp hlies))

end Files

/-- The patterns of a group expand to the documented files exactly if the texts of the paths decide
which files lie in the build directory. If there are no dots in the patterns, they do unless one
of these files lies in a directory whose path just starts like that of the build directory, or
below one. -/
theorem expanded_as_documented_iff (fs : FileSystem) (matchesName : PathText → PathText → Bool)
    (homePath : PathText) (wildcards : Wildcards) :
    (∀ (buildDir : PathText) (baseDir : Place),
      (∀ path, path ∈ expandPatterns fs matchesName buildDir homePath wildcards baseDir ↔
        IsDocumented fs matchesName homePath buildDir wildcards baseDir path) ↔
      TextsDecide fs matchesName homePath buildDir wildcards baseDir) ∧
    ∀ buildDir dir : FileInfo.CleanPath, wildcards.NoDots homePath →
      ((∀ path,
          path ∈ expandPatterns fs matchesName buildDir.text homePath wildcards (placeOf dir) ↔
          IsDocumented fs matchesName homePath buildDir.text wildcards (placeOf dir) path) ↔
        ∀ parent n, Reaches fs matchesName homePath wildcards.groupPrefix wildcards.patterns
            (placeOf dir) parent n →
          IsDocumented fs matchesName homePath buildDir.text wildcards (placeOf dir)
            (cleanPath (entryPath parent.text n)) → ¬ buildDir.text <+: parent.text) :=
  ⟨fun _ _ => expanded_iff_textsDecide,
    fun _ _ hdots => expanded_iff_textsDecide.trans (textsDecide_iff hdots)⟩

/-! ## A sample -/

/-- The project directory has the build directory and one with tools, in which there is a file. -/
def sampleTree : FileSystem :=
  FileSystem.ofList
    [([], [("build".toList, true), ("build-tools".toList, true)]),
      (["build-tools".toList], [("x.cpp".toList, false)])]
    (by decide)

/-- Names match themselves, and a star. -/
def sampleMatches (pattern name : PathText) : Bool :=
  pattern = ['*'] || pattern = name

def sampleWildcards : Wildcards :=
  ⟨[], ["*/x.cpp".toList], []⟩

def sampleProject : FileInfo.CleanPath :=
  ⟨[], FileInfo.CleanPath.names_nil⟩

def sampleBuildDir : FileInfo.CleanPath :=
  ⟨["build".toList], by decide⟩

theorem expanded_as_documented_iff_sample : sampleWildcards.NoDots [] ∧
    ((∀ path, path ∈ expandPatterns sampleTree sampleMatches sampleBuildDir.text []
          sampleWildcards (placeOf sampleProject) ↔
        IsDocumented sampleTree sampleMatches [] sampleBuildDir.text sampleWildcards
          (placeOf sampleProject) path) ↔
      ∀ parent n, Reaches sampleTree sampleMatches [] [] sampleWildcards.patterns
          (placeOf sampleProject) parent n →
        IsDocumented sampleTree sampleMatches [] sampleBuildDir.text sampleWildcards
          (placeOf sampleProject) (cleanPath (entryPath parent.text n)) →
        ¬ sampleBuildDir.text <+: parent.text) := by
  have hdots : sampleWildcards.NoDots [] := by
    unfold Wildcards.NoDots
    decide
  exact ⟨hdots, (expanded_as_documented_iff sampleTree sampleMatches [] sampleWildcards).2
    sampleBuildDir sampleProject hdots⟩

/-- The file is left out as if the directory with the tools were the build directory. -/
theorem not_expanded_as_documented_sample :
    ¬ ∀ path, path ∈ expandPatterns sampleTree sampleMatches sampleBuildDir.text []
        sampleWildcards (placeOf sampleProject) ↔
      IsDocumented sampleTree sampleMatches [] sampleBuildDir.text sampleWildcards
        (placeOf sampleProject) path := by
  intro h
  have hway : Way sampleTree sampleMatches [['*'], "x.cpp".toList] (placeOf sampleProject)
      ⟨"/build-tools".toList, ["build-tools".toList]⟩ "x.cpp".toList :=
    have hentry : ("build-tools".toList, true) ∈ sampleTree.entries [] := by decide
    Way.directory (by decide) hentry (by decide) (Or.inr (by decide))
      (Way.file (by decide) (by decide) (by decide) (by decide))
  have hdocumented : IsDocumented sampleTree sampleMatches [] sampleBuildDir.text
      sampleWildcards (placeOf sampleProject) "/build-tools/x.cpp".toList := by
    refine ⟨⟨_, _, ⟨_, List.mem_singleton_self _, hway⟩, by decide⟩, ?_, ?_⟩
    · rintro ⟨_, _, ⟨_, hpattern, _⟩, _⟩
      cases hpattern
    · unfold LiesIn
      decide
  exact absurd ((h _).mpr hdocumented) (by decide)

end SourceWildCards

end Qbs
