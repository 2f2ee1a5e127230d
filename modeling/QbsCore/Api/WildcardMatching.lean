import QbsCore.Language.SourceWildCards
import QbsCore.Tools.Error

/-!
# Files that match wildcards

When files are added to a group or removed from it, the ones that its patterns match do not appear
in the project file.  To find these, the patterns are not expanded: each one is put together with
the directory of the group and its prefix to a regular expression for the path of the file.

Main results:

- Theorem {lit}`ProjectPrivate.matchesWildcard_iff`: a file is matched name by name.
- Theorem {lit}`ProjectPrivate.agrees_iff`: when that is what expanding the patterns finds.

Current gaps:

- The expression for a pattern is given, as are the relative paths of files.
- How the groups of an update are found is left out.
-/

namespace Qbs

namespace ProjectPrivate

open FileInfo (cleanPath components isAbsolute isPattern pathOf resolvePath normalized IsName)
open SourceWildCards

/-! ## The source functions -/

/-- What is looked at of a group that is updated. -/
structure UpdatedGroup where
  groupPrefix : PathText
  /-- The directory of the file in which the group is. -/
  directory : PathText
  wildcards : Option Wildcards

structure FileListUpdateContext where
  absoluteFilePaths : List PathText
  relativeFilePaths : List PathText
  absoluteFilePathsFromWildcards : List PathText

/-- A pattern as the path of the files that it stands for. -/
def fullPattern (directory groupPrefix pattern : PathText) : PathText :=
  let start := if isAbsolute groupPrefix then groupPrefix else directory ++ '/' :: groupPrefix
  cleanPath (start ++ '/' :: pattern)

section Source

variable (hasMatch : PathText → PathText → Bool)

def matchesWildcard (filePath : PathText) (group : UpdatedGroup) : Bool :=
  match group.wildcards with
  | none => false
  | some wildcards =>
      wildcards.patterns.any fun pattern =>
        hasMatch (fullPattern group.directory group.groupPrefix pattern) filePath

/-- The prefix that all groups have in common. -/
def commonPrefix : List UpdatedGroup → Option PathText → Except ErrorInfo (Option PathText)
  | [], found => .ok found
  | group :: groups, found =>
      if group.groupPrefix ≠ [] ∧ group.groupPrefix.getLast? ≠ some '/' then
        .error (.message "Group has non-directory prefix.")
      else if found.all fun pre => pre = group.groupPrefix then
        commonPrefix groups (some group.groupPrefix)
      else .error (.message "Cannot update: Group prefix depends on properties.")

variable (homePath : PathText) (fileExists : PathText → Bool)
  (relativeFilePath : PathText → PathText → PathText)

/-- Sort a file in. -/
def addFilePath (baseDirPath : PathText) (group : UpdatedGroup) (forAdding : Bool)
    (filesContext : FileListUpdateContext) (filePath : PathText) :
    Except ErrorInfo FileListUpdateContext :=
  let absPath := cleanPath (resolvePath homePath baseDirPath filePath)
  if absPath ∈ filesContext.absoluteFilePaths then
    .error (.message ("File '" ++ String.ofList absPath ++ "' appears more than once."))
  else if forAdding && !fileExists absPath then
    .error (.message ("File '" ++ String.ofList absPath ++ "' does not exist."))
  else if matchesWildcard hasMatch absPath group then
    .ok { filesContext with
      absoluteFilePathsFromWildcards := filesContext.absoluteFilePathsFromWildcards ++ [absPath] }
  else
    .ok { filesContext with
      absoluteFilePaths := filesContext.absoluteFilePaths ++ [absPath]
      relativeFilePaths :=
        filesContext.relativeFilePaths ++ [relativeFilePath baseDirPath absPath] }

/-- The files of an update. There is at least one group. -/
def getFileListContext (productDir : PathText) (group : UpdatedGroup) (groups : List UpdatedGroup)
    (filePaths : List PathText) (forAdding : Bool) : Except ErrorInfo FileListUpdateContext :=
  if filePaths.isEmpty then .error (.message "No files supplied.")
  else do
    let pre ← commonPrefix (group :: groups) none
    let baseDirPath := productDir ++ '/' :: pre.getD []
    filePaths.foldlM (addFilePath hasMatch homePath fileExists relativeFilePath baseDirPath group
      forAdding) ⟨[], [], []⟩

end Source

/-! ## Names and parts -/

/-- As documented, no wildcard matches a slash, so clean paths are matched name by name. -/
def MatchesByName (hasMatch matchesPart : PathText → PathText → Bool) : Prop :=
  ∀ parts names : List PathText, FileInfo.Reduced parts → names ≠ [] →
    (∀ name ∈ names, IsName name) →
    (hasMatch (pathOf parts) (pathOf names) = true ↔
      List.Forall₂ (fun part name => matchesPart part name = true) parts names)

/-- The parts of a pattern after those of the directory and of the prefix. -/
def patternParts (directory groupPrefix pattern : PathText) : List PathText :=
  let start := if isAbsolute groupPrefix then groupPrefix else directory ++ '/' :: groupPrefix
  normalized ((start ++ '/' :: pattern).splitOn '/')

section Names

variable {hasMatch matchesPart : PathText → PathText → Bool} {dir file : FileInfo.CleanPath}
  {groupPrefix pattern : PathText} {wildcards : Wildcards}

theorem isAbsolute_append {a : PathText} (h : isAbsolute a = true) (b : PathText) :
    isAbsolute (a ++ b) = true := by
  cases a with
  | nil => cases h
  | cons c a => exact h

theorem fullPattern_eq (dir : FileInfo.CleanPath) (groupPrefix pattern : PathText) :
    fullPattern dir.text groupPrefix pattern =
      pathOf (patternParts dir.text groupPrefix pattern) := by
  unfold fullPattern patternParts
  refine FileInfo.cleanPath_of_isAbsolute (isAbsolute_append ?_ _)
  split_ifs with h
  · exact h
  · exact isAbsolute_append (FileInfo.isAbsolute_pathOf dir.segments) _

/-- A pattern matches a file if it matches its path name by name. -/
theorem matchesWildcard_iff (hnames : MatchesByName hasMatch matchesPart)
    (hfile : file.segments ≠ []) :
    matchesWildcard hasMatch file.text ⟨wildcards.groupPrefix, dir.text, some wildcards⟩ = true ↔
      ∃ pattern ∈ wildcards.patterns, List.Forall₂ (fun part name => matchesPart part name = true)
        (patternParts dir.text wildcards.groupPrefix pattern) file.segments := by
  unfold matchesWildcard
  dsimp only
  rw [List.any_eq_true]
  refine exists_congr fun pattern => and_congr_right fun _ => ?_
  rw [fullPattern_eq]
  exact hnames _ _ (FileInfo.reduced_normalized (Segments.separated_splitOn _)) hfile file.names

theorem components_append_slash (a b : PathText) :
    components (a ++ '/' :: b) = components a ++ components b := by
  unfold components
  rw [List.splitOn_append_cons_self, List.filter_append]

theorem components_prefix_append (h : groupPrefix = [] ∨ groupPrefix.getLast? = some '/') :
    components (groupPrefix ++ pattern) = components groupPrefix ++ components pattern := by
  rcases h with rfl | h
  · rfl
  · rcases List.getLast?_eq_some_iff.mp h with ⟨before, rfl⟩
    rw [List.append_assoc, List.singleton_append, components_append_slash,
      components_append_slash]
    show components before ++ components pattern = components before ++ [] ++ components pattern
    rw [List.append_nil]

/-- There is nothing to clean about names. -/
theorem normalized_eq_components {path : PathText} (h : ∀ s ∈ components path, IsName s) :
    normalized (path.splitOn '/') = components path := by
  unfold components at h ⊢
  suffices hfold : ∀ stack, (path.splitOn '/').foldl FileInfo.pushSegment stack =
      ((path.splitOn '/').filter fun s => s ≠ []).reverse ++ stack by
    unfold normalized
    rw [hfold, List.append_nil, List.reverse_reverse]
  generalize path.splitOn '/' = segments at h
  induction segments with
  | nil => exact fun _ => rfl
  | cons s segments ih =>
      intro stack
      rw [List.foldl_cons]
      by_cases hs : s = []
      · rw [hs, FileInfo.pushSegment_nil, List.filter_cons_of_neg (by simp)]
        refine ih (fun t ht => h t ?_) stack
        rw [hs, List.filter_cons_of_neg (by simp)]
        exact ht
      · have hcons := List.filter_cons_of_pos (l := segments) (a := s)
          (p := fun s => decide (s ≠ [])) (decide_eq_true hs)
        rw [hcons] at h ⊢
        rw [FileInfo.pushSegment_name (h s List.mem_cons_self),
          ih (fun t ht => h t (List.mem_cons_of_mem s ht)), List.reverse_cons, List.append_assoc]
        rfl

end Names

/-! ## Ways and names -/

section Ways

variable {fs : FileSystem} {matchesName matchesPart : PathText → PathText → Bool}
  {parts : List PathText} {base parent : Place} {n : PathText}

/-- Without dots and double stars, the parts on a way match the names one by one. -/
theorem forall₂_of_way (h : Way fs matchesName parts base parent n) (hstars : doubleStar ∉ parts)
    (hdot : ['.'] ∉ parts) (hdotDot : dotDot ∉ parts) :
    ∃ rel, parent.position ++ [n] = base.position ++ rel ∧
      List.Forall₂ (fun part name => matchesName part name = true) parts rel := by
  induction h with
  | @file _ name _ _ _ hmatches _ =>
      exact ⟨[name], rfl, List.Forall₂.cons hmatches List.Forall₂.nil⟩
  | @directory _ _ name _ _ base _ _ _ hmatches _ _ ih =>
      rcases ih (fun h => hstars (List.mem_cons_of_mem _ h))
        (fun h => hdot (List.mem_cons_of_mem _ h))
        (fun h => hdotDot (List.mem_cons_of_mem _ h)) with ⟨rel, hrel, hforall⟩
      refine ⟨name :: rel, hrel.trans ?_, List.Forall₂.cons hmatches hforall⟩
      exact List.append_assoc base.position [name] rel
  | dot => exact absurd List.mem_cons_self hdot
  | dotDot => exact absurd List.mem_cons_self hdotDot
  | noDirectory => exact absurd List.mem_cons_self hstars
  | someDirectory => exact absurd List.mem_cons_self hstars
  | allFiles => exact absurd List.mem_cons_self hstars

/-- If the parts match the names of a file one by one, they lead to it, as long as nothing is
hidden. -/
theorem way_of_forall₂ {dir : FileInfo.CleanPath} {rel : List PathText}
    (h : List.Forall₂ (fun part name => matchesPart part name = true) parts rel)
    (hfile : ∀ before name after, rel = before ++ name :: after →
      (name, decide (after ≠ [])) ∈ fs.entries (dir.segments ++ before))
    (hne : parts ≠ []) (hvisible : ∀ name ∈ rel, isHidden name = false)
    (hstar : ∀ name ∈ rel, matchesName ['*'] name = true)
    (hsame : ∀ part ∈ parts, part ≠ doubleStar → ∀ name ∈ rel,
      matchesName part name = matchesPart part name) :
    ∃ (d : FileInfo.CleanPath) (n : PathText),
      Way fs matchesName parts (placeOf dir) (placeOf d) n ∧ IsName n ∧
      d.segments ++ [n] = dir.segments ++ rel := by
  induction h generalizing dir with
  | nil => exact absurd rfl hne
  | @cons part name parts rel hmatches hrest ih =>
      have hentry := hfile [] name rel rfl
      rw [List.append_nil] at hentry
      have hname := fs.isName _ _ hentry
      have hhidden := hvisible name List.mem_cons_self
      cases hrest with
      | nil =>
          refine ⟨dir, name, ?_, hname, rfl⟩
          by_cases hpart : part = doubleStar
          · rw [hpart]
            exact Way.allFiles (Way.file (by decide) hentry (hstar name List.mem_cons_self) hhidden)
          · refine Way.file hpart hentry ?_ hhidden
            rw [hsame part List.mem_cons_self hpart name List.mem_cons_self]
            exact hmatches
      | @cons next name' parts rel hmatches' hrest =>
          have hfile' : ∀ before name'' after, name' :: rel = before ++ name'' :: after →
              (name'', decide (after ≠ [])) ∈
                fs.entries ((childPath dir name hname).segments ++ before) := by
            intro before name'' after heq
            have h := hfile (name :: before) name'' after (congrArg (name :: ·) heq)
            rw [List.append_cons] at h
            exact h
          rcases ih hfile' (List.cons_ne_nil _ _)
            (fun m hm => hvisible m (List.mem_cons_of_mem _ hm))
            (fun m hm => hstar m (List.mem_cons_of_mem _ hm)) (fun p hp hstars m hm =>
              hsame p (List.mem_cons_of_mem _ hp) hstars m (List.mem_cons_of_mem _ hm)) with
            ⟨d, n, hway, hn, hsegments⟩
          rw [placeOf_childPath] at hway
          refine ⟨d, n, ?_, hn, hsegments.trans (List.append_assoc _ _ _)⟩
          by_cases hpart : part = doubleStar
          · rw [hpart]
            refine Way.someDirectory hentry ?_ (Way.noDirectory hway)
            rw [hhidden, Bool.not_false, Bool.or_true]
          · refine Way.directory hpart hentry ?_ (Or.inr hhidden) hway
            rw [hsame part List.mem_cons_self hpart name List.mem_cons_self]
            exact hmatches

end Ways

/-! ## Both implementations -/

/-- Where the names of a path begin that the parts of a pattern stand for. -/
def startOf (dir : FileInfo.CleanPath) (groupPrefix : PathText) : FileInfo.CleanPath :=
  if isAbsolute groupPrefix then ⟨[], FileInfo.CleanPath.names_nil⟩ else dir

section Agreement

variable (fs : FileSystem) (hasMatch matchesName matchesPart : PathText → PathText → Bool)
  (buildDir homePath : PathText) (dir : FileInfo.CleanPath) (wildcards : Wildcards)
  (file : FileInfo.CleanPath)

/-- The patterns are said to match a file exactly if they expand to it. -/
def Agrees : Prop :=
  matchesWildcard hasMatch file.text ⟨wildcards.groupPrefix, dir.text, some wildcards⟩ = true ↔
    file.text ∈ filesOf (expandList fs matchesName buildDir homePath wildcards.groupPrefix
      wildcards.patterns (placeOf dir))

/-- The parts of a pattern match the names of a file one by one. -/
def IsMatchedByName : Prop :=
  ∃ pattern ∈ wildcards.patterns, List.Forall₂ (fun part name => matchesPart part name = true)
    (patternParts dir.text wildcards.groupPrefix pattern) file.segments

/-- A group whose patterns just consist of parts, and whose directory has no wildcards in its
name. -/
structure IsPlain : Prop where
  directoryPrefix : wildcards.groupPrefix = [] ∨ wildcards.groupPrefix.getLast? = some '/'
  noTilde : ¬ ['~', '/'] <+: wildcards.groupPrefix
  noBackslash : ∀ pattern ∈ wildcards.patterns, '\\' ∉ wildcards.groupPrefix ++ pattern
  relative : wildcards.groupPrefix = [] → ∀ pattern ∈ wildcards.patterns,
    isAbsolute pattern = false
  parts : ∀ pattern ∈ wildcards.patterns, components pattern ≠ []
  noDots : ∀ pattern ∈ wildcards.patterns,
    ['.'] ∉ components (wildcards.groupPrefix ++ pattern) ∧
      dotDot ∉ components (wildcards.groupPrefix ++ pattern)
  literal : ∀ s ∈ (startOf dir wildcards.groupPrefix).segments, ∀ name,
    matchesPart s name = true ↔ s = name

/-- A file that is not hidden, and not in a directory whose path starts like that of the build
directory. For its names it does not matter how they are compared with a part of a pattern. -/
structure IsOrdinary : Prop where
  outside : ¬ buildDir <+: pathOf file.segments.dropLast
  visible : ∀ rel, file.segments = (startOf dir wildcards.groupPrefix).segments ++ rel →
    ∀ name ∈ rel, isHidden name = false
  star : ∀ name ∈ file.segments, matchesName ['*'] name = true
  same : ∀ pattern ∈ wildcards.patterns,
    ∀ part ∈ components (wildcards.groupPrefix ++ pattern), part ≠ doubleStar →
      ∀ name ∈ file.segments, matchesName part name = matchesPart part name

variable {fs hasMatch matchesName matchesPart buildDir homePath dir wildcards file}

theorem agrees_iff_of_names (hnames : MatchesByName hasMatch matchesPart)
    (hfile : file.segments ≠ []) :
    Agrees fs hasMatch matchesName buildDir homePath dir wildcards file ↔
      (IsMatchedByName matchesPart dir wildcards file ↔
        IsKept fs matchesName homePath buildDir wildcards.groupPrefix wildcards.patterns
          (placeOf dir) file.text) := by
  unfold Agrees IsMatchedByName
  rw [matchesWildcard_iff hnames hfile, mem_filesOf_iff_isKept]

namespace IsPlain

variable (h : IsPlain matchesPart dir wildcards) {pattern : PathText}
  (hpattern : pattern ∈ wildcards.patterns)

include h hpattern

/-- The pattern with the prefix is not changed before it is expanded. -/
theorem fullPattern_eq : SourceWildCards.fullPattern homePath wildcards.groupPrefix pattern =
    wildcards.groupPrefix ++ pattern := by
  unfold SourceWildCards.fullPattern
  rw [if_neg fun hbegins => h.noTilde (List.isPrefixOf_iff_prefix.mp hbegins)]
  refine (List.map_congr_left fun c hc => if_neg ?_).trans (List.map_id _)
  rintro rfl
  exact h.noBackslash pattern hpattern hc

theorem startPlace_eq : startPlace (wildcards.groupPrefix ++ pattern) (placeOf dir) =
    placeOf (startOf dir wildcards.groupPrefix) := by
  unfold startPlace startOf
  rcases h.directoryPrefix with hnil | hbegins
  · rw [hnil, List.nil_append, h.relative hnil pattern hpattern]
    rfl
  · have hcongr : isAbsolute (wildcards.groupPrefix ++ pattern) =
        isAbsolute wildcards.groupPrefix := by
      cases hg : wildcards.groupPrefix with
      | nil =>
          rw [hg] at hbegins
          cases hbegins
      | cons c rest => rfl
    rw [hcongr]
    split_ifs
    · rfl
    · rfl

theorem isName_of_mem {part : PathText}
    (hpart : part ∈ components (wildcards.groupPrefix ++ pattern)) : IsName part := by
  have hdots := h.noDots pattern hpattern
  unfold components at hpart
  rcases List.mem_filter.mp hpart with ⟨hsplit, hne⟩
  exact ⟨of_decide_eq_true hne, fun heq => hdots.1 (heq ▸ List.mem_filter.mpr ⟨hsplit, hne⟩),
    fun heq => hdots.2 (heq ▸ List.mem_filter.mpr ⟨hsplit, hne⟩),
    Segments.separated_splitOn _ part hsplit⟩

/-- The parts of the pattern for the path are the ones that are expanded, after those of the
directory where that starts. -/
theorem patternParts_eq : patternParts dir.text wildcards.groupPrefix pattern =
    (startOf dir wildcards.groupPrefix).segments ++
      components (wildcards.groupPrefix ++ pattern) := by
  have hbegins : components (wildcards.groupPrefix ++ pattern) =
      components wildcards.groupPrefix ++ components pattern :=
    components_prefix_append h.directoryPrefix
  have hparts : ∀ s ∈ components (wildcards.groupPrefix ++ pattern), IsName s :=
    fun s hs => h.isName_of_mem hpattern hs
  unfold patternParts startOf
  split_ifs with habs
  · have hcomponents : components (wildcards.groupPrefix ++ '/' :: pattern) =
        components (wildcards.groupPrefix ++ pattern) := by
      rw [components_append_slash, hbegins]
    refine (normalized_eq_components fun s hs => ?_).trans hcomponents
    exact hparts s (hcomponents ▸ hs)
  · have hcomponents : components (dir.text ++ '/' :: wildcards.groupPrefix ++ '/' :: pattern) =
        dir.segments ++ components (wildcards.groupPrefix ++ pattern) := by
      rw [components_append_slash, components_append_slash, hbegins,
        FileInfo.CleanPath.components_text, List.append_assoc]
    refine (normalized_eq_components fun s hs => ?_).trans hcomponents
    rw [hcomponents] at hs
    rcases List.mem_append.mp hs with hs | hs
    · exact dir.names s hs
    · exact hparts s hs

end IsPlain

theorem eq_of_forall₂_literal {R : PathText → PathText → Prop} {l m : List PathText}
    (h : List.Forall₂ R l m) (hliteral : ∀ s ∈ l, ∀ name, R s name → s = name) : l = m := by
  induction h with
  | nil => rfl
  | cons hR _ ih =>
      rw [hliteral _ List.mem_cons_self _ hR,
        ih fun s hs => hliteral s (List.mem_cons_of_mem _ hs)]

/-- A file of a plain group that is matched name by name is found, if it is an ordinary one. -/
theorem isKept_of_isMatchedByName (hplain : IsPlain matchesPart dir wildcards)
    (hordinary : IsOrdinary matchesName matchesPart buildDir dir wildcards file)
    (hfile : fs.HasFile file.segments) (h : IsMatchedByName matchesPart dir wildcards file) :
    IsKept fs matchesName homePath buildDir wildcards.groupPrefix wildcards.patterns
      (placeOf dir) file.text := by
  rcases h with ⟨pattern, hpattern, hforall⟩
  rw [hplain.patternParts_eq hpattern] at hforall
  generalize hstart : startOf dir wildcards.groupPrefix = start at hforall
  have hbefore := List.forall₂_take start.segments.length hforall
  have hrel := List.forall₂_drop start.segments.length hforall
  rw [List.take_left] at hbefore
  rw [List.drop_left] at hrel
  have hsegments : file.segments = start.segments ++ file.segments.drop start.segments.length := by
    have heq := eq_of_forall₂_literal hbefore fun s hs name =>
      (hplain.literal s (hstart ▸ hs) name).mp
    rw [heq, List.length_take_of_le, List.take_append_drop]
    rw [heq]
    exact List.length_take_le' _ _
  generalize file.segments.drop start.segments.length = rel at hrel hsegments
  have hmem : ∀ name ∈ rel, name ∈ file.segments := by
    intro name hname
    rw [hsegments]
    exact List.mem_append_right _ hname
  have hne : components (wildcards.groupPrefix ++ pattern) ≠ [] := by
    rw [components_prefix_append hplain.directoryPrefix]
    exact List.append_ne_nil_of_right_ne_nil _ (hplain.parts pattern hpattern)
  have hentries : ∀ before name after, rel = before ++ name :: after →
      (name, decide (after ≠ [])) ∈ fs.entries (start.segments ++ before) := by
    intro before name after heq
    refine hfile.entry _ name after ?_
    rw [hsegments, heq, List.append_assoc]
  rcases way_of_forall₂ hrel hentries hne (hordinary.visible rel (hstart ▸ hsegments))
    (fun name hname => hordinary.star name (hmem name hname))
    (fun part hpart hstars name hname =>
      hordinary.same pattern hpattern part hpart hstars name (hmem name hname)) with
    ⟨d, n, hway, hn, hd⟩
  have hpath : file = childPath d n hn := by
    refine FileInfo.CleanPath.text_injective (congrArg pathOf ?_)
    exact hsegments.trans hd.symm
  refine ⟨placeOf d, n, ⟨_, List.mem_map_of_mem hpattern, ?_⟩, ?_, ?_⟩
  · rw [hplain.fullPattern_eq hpattern, hplain.startPlace_eq hpattern, hstart]
    exact hway
  · have houtside := hordinary.outside
    rw [hpath] at houtside
    have hdrop : (childPath d n hn).segments.dropLast = d.segments := List.dropLast_concat
    rw [hdrop] at houtside
    exact houtside
  · rw [hpath]
    exact (cleanPath_entryPath d hn).symm

/-- Without double stars, a file of a plain group that is found is matched name by name, if it is
an ordinary one. -/
theorem isMatchedByName_of_isKept (hplain : IsPlain matchesPart dir wildcards)
    (hordinary : IsOrdinary matchesName matchesPart buildDir dir wildcards file)
    (hstars : ∀ pattern ∈ wildcards.patterns,
      doubleStar ∉ components (wildcards.groupPrefix ++ pattern))
    (h : IsKept fs matchesName homePath buildDir wildcards.groupPrefix wildcards.patterns
      (placeOf dir) file.text) : IsMatchedByName matchesPart dir wildcards file := by
  rcases h with ⟨parent, n, ⟨full, hfull, hway⟩, -, htext⟩
  rcases List.mem_map.mp hfull with ⟨pattern, hpattern, rfl⟩
  rw [hplain.fullPattern_eq hpattern, hplain.startPlace_eq hpattern] at hway
  have hdots := hplain.noDots pattern hpattern
  rcases forall₂_of_way hway (hstars pattern hpattern) hdots.1 hdots.2 with ⟨rel, hrel, hforall⟩
  rcases names_of_way hway hdots.1 hdots.2 with ⟨d, rfl, hn⟩
  have hpath : file = childPath d n hn :=
    FileInfo.CleanPath.text_injective (htext.trans (cleanPath_entryPath d hn))
  have hsegments : file.segments = (startOf dir wildcards.groupPrefix).segments ++ rel := by
    rw [hpath]
    exact hrel
  refine ⟨pattern, hpattern, ?_⟩
  rw [hplain.patternParts_eq hpattern, hsegments]
  refine List.rel_append ?_ ?_
  · exact List.forall₂_same.mpr fun s hs => (hplain.literal s hs s).mpr rfl
  · rcases List.forall₂_iff_zip.mp hforall with ⟨hlength, hzip⟩
    refine List.forall₂_iff_zip.mpr ⟨hlength, fun {part name} hmem => ?_⟩
    rcases List.of_mem_zip hmem with ⟨hpart, hname⟩
    rw [← hordinary.same pattern hpattern part hpart
      (fun heq => hstars pattern hpattern (heq ▸ hpart)) name (by
        rw [hsegments]
        exact List.mem_append_right _ hname)]
    exact hzip hmem

end Agreement

/-- For each file, the implementations agree exactly if the parts of some pattern match its names
one by one, where two stars stand for one name, whenever the parts of some pattern lead to it,
where they stand for any number of directories, and the other way round. For an ordinary file and
a plain group it is enough that the parts match if they lead to it, and they do if there are no
double stars. -/
theorem agrees_iff (fs : FileSystem) (hasMatch matchesName matchesPart : PathText → PathText → Bool)
    (hnames : MatchesByName hasMatch matchesPart) (buildDir homePath : PathText)
    (dir : FileInfo.CleanPath) (wildcards : Wildcards) (file : FileInfo.CleanPath)
    (hfile : fs.HasFile file.segments) :
    (Agrees fs hasMatch matchesName buildDir homePath dir wildcards file ↔
      (IsMatchedByName matchesPart dir wildcards file ↔
        IsKept fs matchesName homePath buildDir wildcards.groupPrefix wildcards.patterns
          (placeOf dir) file.text)) ∧
    (IsPlain matchesPart dir wildcards →
      IsOrdinary matchesName matchesPart buildDir dir wildcards file →
      (Agrees fs hasMatch matchesName buildDir homePath dir wildcards file ↔
        (IsKept fs matchesName homePath buildDir wildcards.groupPrefix wildcards.patterns
            (placeOf dir) file.text →
          IsMatchedByName matchesPart dir wildcards file)) ∧
      ((∀ pattern ∈ wildcards.patterns,
          doubleStar ∉ components (wildcards.groupPrefix ++ pattern)) →
        Agrees fs hasMatch matchesName buildDir homePath dir wildcards file)) := by
  have hiff : Agrees fs hasMatch matchesName buildDir homePath dir wildcards file ↔
      (IsMatchedByName matchesPart dir wildcards file ↔
        IsKept fs matchesName homePath buildDir wildcards.groupPrefix wildcards.patterns
          (placeOf dir) file.text) :=
    agrees_iff_of_names hnames hfile.nonempty
  refine ⟨hiff, fun hplain hordinary => ⟨hiff.trans ⟨Iff.mpr, fun h => ⟨?_, h⟩⟩,
    fun hstars => hiff.mpr ⟨?_, isMatchedByName_of_isKept hplain hordinary hstars⟩⟩⟩
  · exact isKept_of_isMatchedByName hplain hordinary hfile
  · exact isKept_of_isMatchedByName hplain hordinary hfile

/-! ## A sample -/

/-- There is just one file. -/
def oneFile : FileSystem :=
  FileSystem.ofList [([], [("x.cpp".toList, false)])] (by decide)

def oneFilePath : FileInfo.CleanPath :=
  ⟨["x.cpp".toList], by decide⟩

/-- Two stars match all names, like one. -/
def sampleMatchesPart (part name : PathText) : Bool :=
  part = doubleStar || sampleMatches part name

def sampleHasMatch (pattern path : PathText) : Bool :=
  decide (List.Forall₂ (fun part name => sampleMatchesPart part name = true) (components pattern)
    (components path))

theorem matchesByName_sample : MatchesByName sampleHasMatch sampleMatchesPart := by
  intro parts names hparts _ hnames
  unfold sampleHasMatch
  rw [decide_eq_true_iff, FileInfo.components_pathOf hparts,
    FileInfo.components_pathOf (FileInfo.Reduced.of_names hnames)]

theorem hasFile_oneFile : oneFile.HasFile oneFilePath.segments := by
  refine ⟨by decide, fun before name after h => ?_⟩
  cases before with
  | nil =>
      cases h
      decide
  | cons s before =>
      rcases List.append_eq_nil_iff.mp (List.cons.inj h).2.symm with ⟨-, h⟩
      cases h

/-- Two stars at the end match the file, so the implementations agree. -/
theorem agrees_iff_oneFile : IsPlain sampleMatchesPart sampleProject ⟨[], [doubleStar], []⟩ ∧
    IsOrdinary sampleMatches sampleMatchesPart sampleBuildDir.text sampleProject
      ⟨[], [doubleStar], []⟩ oneFilePath ∧
    Agrees oneFile sampleHasMatch sampleMatches sampleBuildDir.text [] sampleProject
      ⟨[], [doubleStar], []⟩ oneFilePath := by
  have hplain : IsPlain sampleMatchesPart sampleProject ⟨[], [doubleStar], []⟩ :=
    ⟨by decide, by decide, by decide, by decide, by decide, by decide,
      fun _ hs => absurd hs List.not_mem_nil⟩
  have hordinary : IsOrdinary sampleMatches sampleMatchesPart sampleBuildDir.text sampleProject
      ⟨[], [doubleStar], []⟩ oneFilePath := by
    refine ⟨by decide, fun rel h => ?_, by decide, by decide⟩
    cases h
    decide
  exact ⟨hplain, hordinary, ((agrees_iff oneFile sampleHasMatch sampleMatches sampleMatchesPart
    matchesByName_sample sampleBuildDir.text [] sampleProject ⟨[], [doubleStar], []⟩ oneFilePath
    hasFile_oneFile).2 hplain hordinary).1.mpr fun _ => ⟨_, List.mem_cons_self, by decide⟩⟩

/-- Two stars do not stand for no directory at all when a file is to be matched. -/
theorem not_agrees_oneFile : oneFile.HasFile oneFilePath.segments ∧
    ¬ LiesIn sampleBuildDir.text oneFilePath.text ∧
    ¬ Agrees oneFile sampleHasMatch sampleMatches sampleBuildDir.text [] sampleProject
      ⟨[], ["**/x.cpp".toList], []⟩ oneFilePath := by
  refine ⟨hasFile_oneFile, by unfold LiesIn; decide, ?_⟩
  unfold Agrees
  decide

end ProjectPrivate

end Qbs
