import QbsCore.Library.Fallible
import QbsCore.Tools.CleanPaths
import QbsCore.Tools.Error

/-!
# Installing products

The target of an installed file is below the install root: in the directory that the prefix
and the install directory of the file lead to, and there either directly or, if the file has a
source base, in the directory that it has below the source base.

Main results:

- Theorem {lit}`pathRight_iff`: when the target is the right one.
- Theorem {lit}`install_distinct`: what an installation without an error has not overwritten.

Current gaps:

- What becomes of a file that cannot be copied is left open.
-/

namespace Qbs

namespace ProductInstaller

open FileInfo

/-- The properties of a file that say where to install it. -/
structure InstallProperties where
  install : Bool
  installDir : PathText
  installPrefix : PathText
  installSourceBase : PathText
  installRoot : PathText

structure InstallOptions where
  installRoot : PathText
  removeExistingInstallation : Bool
  dryRun : Bool
  keepGoing : Bool

/-- The install root that the project gives is taken if the options have none. -/
def initInstallRoot (effectiveInstallRoot : PathText) (options : InstallOptions) :
    InstallOptions :=
  if options.installRoot ≠ [] then options
  else { options with installRoot := effectiveInstallRoot }

def outsideError (sourceFilePath targetDir installRoot : PathText) : ErrorInfo :=
  .message ("Cannot install '" ++ String.ofList sourceFilePath ++
    "', because target directory '" ++ String.ofList targetDir ++
    "' is outside of install root '" ++ String.ofList installRoot ++ "'")

def baseError (sourceFilePath localAbsBasePath : PathText) : ErrorInfo :=
  .message ("Cannot install '" ++ String.ofList sourceFilePath ++
    "', because it doesn't start with the value of qbs.installSourceBase '" ++
    String.ofList localAbsBasePath ++ "'.")

def targetFilePath (homePath effectiveInstallRoot productSourceDir sourceFilePath : PathText)
    (properties : InstallProperties) (options : InstallOptions) : Except ErrorInfo PathText :=
  if !properties.install then .ok []
  else
    let installRoot := (initInstallRoot effectiveInstallRoot options).installRoot
    let root := if installRoot = [] then properties.installRoot else installRoot
    let targetDir := cleanPath
      (root ++ '/' :: (properties.installPrefix ++ '/' :: properties.installDir))
    if properties.installSourceBase = [] then
      if !installRoot.isPrefixOf targetDir then
        .error (outsideError sourceFilePath targetDir installRoot)
      else .ok (cleanPath (targetDir ++ '/' :: fileName sourceFilePath))
    else
      let localAbsBasePath := resolvePath homePath (cleanPath productSourceDir)
        (cleanPath properties.installSourceBase)
      if !localAbsBasePath.isPrefixOf sourceFilePath then
        .error (baseError sourceFilePath localAbsBasePath)
      else
        let remainder := sourceFilePath.drop
          (localAbsBasePath.length + if localAbsBasePath.getLast? = some '/' then 0 else 1)
        .ok (cleanPath (targetDir ++ '/' :: remainder))

/-! ## Files to be installed -/

/-- A file that is to be installed. The install root comes from the options, from the project or,
if neither has one, from the properties. -/
structure InstallCase where
  home : CleanPath
  rootOfOptions : Option CleanPath
  rootOfProject : Option CleanPath
  rootOfProperties : CleanPath
  installPrefix : PathText
  installDir : PathText
  sourceDirectory : CleanPath
  installSourceBase : PathText
  base_clean : isAbsolute installSourceBase = true →
    ∃ path : CleanPath, installSourceBase = path.text
  file : CleanPath
  file_nonempty : file.segments ≠ []

/-- The text of a path that may be missing. -/
def textOf : Option CleanPath → PathText
  | none => []
  | some path => path.text

namespace InstallCase

variable (c : InstallCase)

def properties : InstallProperties where
  install := true
  installDir := c.installDir
  installPrefix := c.installPrefix
  installSourceBase := c.installSourceBase
  installRoot := c.rootOfProperties.text

/-- Where the file is installed. -/
def target : Except ErrorInfo PathText :=
  targetFilePath c.home.text (textOf c.rootOfProject) c.sourceDirectory.text c.file.text
    c.properties ⟨textOf c.rootOfOptions, false, false, false⟩

/-- The root that the options or the project give. -/
def givenRoot : Option CleanPath :=
  c.rootOfOptions.or c.rootOfProject

def root : CleanPath :=
  c.givenRoot.getD c.rootOfProperties

/-- Where the prefix and the directory lead to from the root. -/
def targetDir : List PathText :=
  normalized (c.root.segments ++ (c.installPrefix ++ '/' :: c.installDir).splitOn '/')

def base : PathText :=
  resolvePath c.home.text c.sourceDirectory.text (cleanPath c.installSourceBase)

end InstallCase

/-- One path is properly below another one. -/
def Below (l m : List PathText) : Prop :=
  l <+: m ∧ l ≠ m

/-- One path leads to a directory next to another one, or below it, whose name only starts with
the name of that one. -/
def BesideLonger (l m : List PathText) : Prop :=
  ∃ before a b rest, l = before ++ [a] ∧ m = before ++ b :: rest ∧ a <+: b ∧ a ≠ b

namespace InstallCase

variable (c : InstallCase)

/-- The path of the file below its source base. -/
def relativePath : List PathText :=
  c.file.segments.drop (components c.base).length

def BelowBase : Prop :=
  Below (components c.base) c.file.segments

/-- The target is inside the install root. With a source base there is one exactly for the files
below the source base, and it is the target directory with the path below the source base. -/
def PathRight : Prop :=
  if c.installSourceBase = [] then
    ∀ target, c.target = .ok target → Below c.root.segments (components target)
  else
    ((∃ error, c.target = .error error) ↔ ¬ c.BelowBase) ∧
      ∀ target, c.target = .ok target →
        target = pathOf (c.targetDir ++ c.relativePath) ∧
          Below c.root.segments (components target)

/-- The condition for a file with a source base not to be taken for one below another directory:
it is not beside the source base with a longer name, and not the source base itself. A source base
below the home directory must not have the file if the home directory is the root. -/
def BaseCondition : Prop :=
  if ['/', '/'].isPrefixOf c.base then ¬ c.BelowBase
  else ¬ BesideLonger (components c.base) c.file.segments ∧
    components c.base ≠ c.file.segments

/-- The condition for the target to be the right one. -/
def PathCondition : Prop :=
  if c.installSourceBase = [] then
    if c.givenRoot = none then c.root.segments <+: c.targetDir
    else ¬ BesideLonger c.root.segments c.targetDir
  else c.BaseCondition ∧ (c.BelowBase → Below c.root.segments (c.targetDir ++ c.relativePath))

end InstallCase

/-! ## Prefixes of paths -/

theorem fileName_append {before name : PathText} (h : '/' ∉ name) :
    fileName (before ++ '/' :: name) = name := by
  have hname : ∀ c, c ∈ name.reverse → decide (c ≠ '/') = true := by
    intro c hc
    refine decide_eq_true fun heq => h ?_
    rw [← heq]
    exact List.mem_reverse.mp hc
  unfold fileName
  rw [List.reverse_append, List.reverse_cons, List.append_assoc,
    List.takeWhile_append_of_pos hname]
  simp

/-- When the text of a path starts with the text of another one. -/
theorem text_prefix_iff {path : CleanPath} {segments : List PathText} (h : Reduced segments) :
    path.text.isPrefixOf (pathOf segments) = true ↔
      path.segments <+: segments ∨ BesideLonger path.segments segments := by
  rw [List.isPrefixOf_iff_prefix]
  rcases List.eq_nil_or_concat path.segments with hpath | ⟨before, name, hpath⟩
  · rw [hpath]
    have htext : path.text = ['/'] := by
      unfold CleanPath.text
      rw [hpath]
      rfl
    have habs := isAbsolute_pathOf segments
    rw [htext]
    refine iff_of_true ?_ (Or.inl List.nil_prefix)
    cases hsegments : pathOf segments with
    | nil => exact absurd hsegments (pathOf_ne_nil segments)
    | cons c rest =>
        rw [hsegments] at habs
        unfold isAbsolute at habs
        rw [List.head?_cons, decide_eq_true_eq] at habs
        cases habs
        exact ⟨rest, rfl⟩
  · rw [List.concat_eq_append] at hpath
    have htext : path.text = Segments.joined '/' (before ++ [name]) := by
      unfold CleanPath.text
      rw [hpath]
      exact if_neg (by simp)
    have hseparated := path.separated
    rw [hpath] at hseparated
    have hempty : ¬ Segments.joined '/' (before ++ [name]) <+: ['/'] := by
      intro hbegins
      have hlength := hbegins.length_le
      have hname : name ≠ [] := (path.names name (by simp [hpath])).nonempty
      have hpos := List.length_pos_iff.mpr hname
      rw [Segments.joined_append, Segments.joined_cons, List.length_append, List.length_cons,
        List.length_append, List.length_singleton] at hlength
      omega
    rw [htext, hpath]
    by_cases hsegments : segments = []
    · rw [hsegments]
      refine iff_of_false hempty ?_
      rintro (h | ⟨before', a, b, rest, -, hrest, -⟩)
      · simp at h
      · simp at hrest
    · rw [pathOf, if_neg hsegments, Segments.joined_prefix_iff hseparated h.separated]
      constructor
      · rintro ⟨b, rest, hsplit, hbegins⟩
        by_cases hb : name = b
        · rw [hb, hsplit]
          exact Or.inl ⟨rest, by simp⟩
        · exact Or.inr ⟨before, name, b, rest, rfl, hsplit, hbegins, hb⟩
      · rintro (⟨rest, hrest⟩ | ⟨before', a, b, rest, hpath', hrest, hbegins, -⟩)
        · exact ⟨name, rest, by rw [← hrest]; simp, List.prefix_rfl⟩
        · rcases List.append_inj' hpath' rfl with ⟨rfl, hname⟩
          cases hname
          exact ⟨b, rest, hrest, hbegins⟩

/-- A path is not both below another one and beside it. -/
theorem not_prefix_of_besideLonger {l m : List PathText} (h : BesideLonger l m) : ¬ l <+: m := by
  rcases h with ⟨before, a, b, rest, rfl, rfl, -, hne⟩
  rw [List.prefix_append_right_inj, List.cons_prefix_cons]
  exact fun h => hne h.1

theorem below_append_singleton {l m : List PathText} {name : PathText} :
    Below l (m ++ [name]) ↔ l <+: m := by
  unfold Below
  rw [List.prefix_concat_iff]
  constructor
  · rintro ⟨rfl | h, hne⟩
    · exact absurd rfl hne
    · exact h
  · intro h
    refine ⟨Or.inr h, ?_⟩
    rintro rfl
    have hlength := h.length_le
    rw [List.length_append, List.length_singleton] at hlength
    omega

/-! ## The target directory -/

namespace InstallCase

variable {c : InstallCase}

theorem installRoot_eq :
    (initInstallRoot (textOf c.rootOfProject)
      ⟨textOf c.rootOfOptions, false, false, false⟩).installRoot = textOf c.givenRoot := by
  unfold initInstallRoot givenRoot
  cases hoptions : c.rootOfOptions with
  | none => rfl
  | some path =>
      exact congrArg InstallOptions.installRoot (if_pos (pathOf_ne_nil path.segments))

theorem rootText_eq :
    (if textOf c.givenRoot = [] then c.rootOfProperties.text else textOf c.givenRoot) =
      c.root.text := by
  unfold root
  cases hroot : c.givenRoot with
  | none => rfl
  | some path => exact if_neg (pathOf_ne_nil path.segments)

theorem reduced_targetDir : Reduced c.targetDir :=
  reduced_normalized (Segments.separated_append c.root.separated (Segments.separated_splitOn _))

theorem cleanPath_targetDir :
    cleanPath (c.root.text ++ '/' :: (c.installPrefix ++ '/' :: c.installDir)) =
      pathOf c.targetDir :=
  cleanPath_join c.root.separated _

/-- Cleaning a path below the target directory. -/
theorem cleanPath_below {names : List PathText} (h : ∀ s, s ∈ names → IsName s)
    (hne : names ≠ []) :
    cleanPath (pathOf c.targetDir ++ '/' :: ['/'].intercalate names) =
      pathOf (c.targetDir ++ names) := by
  rw [cleanPath_join reduced_targetDir.separated,
    List.splitOn_intercalate '/' (fun s hs => (h s hs).noSlash) hne,
    normalized_of_reduced (reduced_targetDir.append h)]

theorem exists_fileName : ∃ before name, c.file.segments = before ++ [name] ∧ IsName name := by
  rcases List.eq_nil_or_concat c.file.segments with h | ⟨before, name, h⟩
  · exact absurd h c.file_nonempty
  · rw [List.concat_eq_append] at h
    exact ⟨before, name, h, c.file.names name (by simp [h])⟩

theorem fileText_eq : c.file.text = Segments.joined '/' c.file.segments :=
  if_neg c.file_nonempty

theorem target_eq :
    c.target =
      if c.installSourceBase = [] then
        if !(textOf c.givenRoot).isPrefixOf (pathOf c.targetDir) then
          .error (outsideError c.file.text (pathOf c.targetDir) (textOf c.givenRoot))
        else .ok (cleanPath (pathOf c.targetDir ++ '/' :: fileName c.file.text))
      else if !c.base.isPrefixOf c.file.text then .error (baseError c.file.text c.base)
      else
        .ok (cleanPath (pathOf c.targetDir ++ '/' ::
          c.file.text.drop (c.base.length + if c.base.getLast? = some '/' then 0 else 1))) := by
  unfold target targetFilePath base
  dsimp only [properties]
  rw [installRoot_eq, rootText_eq, cleanPath_targetDir, CleanPath.cleanPath_text]
  rfl

/-- The target of a file without a source base. -/
theorem target_of_noBase (h : c.installSourceBase = []) {before : List PathText} {name : PathText}
    (hfile : c.file.segments = before ++ [name]) (hname : IsName name) :
    c.target =
      if !(textOf c.givenRoot).isPrefixOf (pathOf c.targetDir) then
        .error (outsideError c.file.text (pathOf c.targetDir) (textOf c.givenRoot))
      else .ok (pathOf (c.targetDir ++ [name])) := by
  have hfileName : fileName c.file.text = name := by
    rw [fileText_eq, hfile, Segments.joined_append, Segments.joined_cons, Segments.joined_nil,
      List.append_nil, fileName_append hname.noSlash]
  have hnames : ∀ s, s ∈ [name] → IsName s := fun s hs => by rwa [List.mem_singleton.mp hs]
  have htarget := cleanPath_below (c := c) hnames (List.cons_ne_nil _ _)
  rw [intercalate_singleton] at htarget
  rw [target_eq, if_pos h, hfileName, htarget]

theorem pathRight_of_noBase (h : c.installSourceBase = []) : c.PathRight ↔ c.PathCondition := by
  rcases exists_fileName (c := c) with ⟨before, name, hfile, hname⟩
  have hcomponents : components (pathOf (c.targetDir ++ [name])) = c.targetDir ++ [name] :=
    components_pathOf (reduced_targetDir.append fun s hs => by rwa [List.mem_singleton.mp hs])
  unfold PathRight PathCondition
  rw [if_pos h, if_pos h, target_of_noBase h hfile hname]
  cases hroot : c.givenRoot with
  | none =>
      rw [if_pos rfl, if_neg (by simp [textOf])]
      constructor
      · intro hright
        have hbelow := hright _ rfl
        rwa [hcomponents, below_append_singleton] at hbelow
      · intro hbegins target htarget
        cases htarget
        rwa [hcomponents, below_append_singleton]
  | some path =>
      have hpath : c.root = path := by
        unfold root
        rw [hroot]
        rfl
      have hstarts := @text_prefix_iff path _ (reduced_targetDir (c := c))
      rw [if_neg (Option.some_ne_none path), hpath]
      change (∀ target, (if !path.text.isPrefixOf (pathOf c.targetDir) then _ else _) =
        Except.ok target → _) ↔ _
      constructor
      · intro hright hbeside
        have hbegins := hstarts.mpr (Or.inr hbeside)
        rw [hbegins] at hright
        have hbelow := hright _ rfl
        rw [hcomponents, below_append_singleton] at hbelow
        exact not_prefix_of_besideLonger hbeside hbelow
      · intro hbeside target htarget
        split_ifs at htarget with hbegins
        cases htarget
        rw [Bool.not_eq_true', Bool.not_eq_false] at hbegins
        rw [hcomponents, below_append_singleton]
        exact (hstarts.mp hbegins).resolve_right hbeside

/-- What the source base stands for: a directory, or a path that starts with two slashes. -/
theorem base_cases (h : c.installSourceBase ≠ []) :
    (∀ s, s ∈ components c.base → IsName s) ∧
      (Denotes c.base (components c.base) ∨
        components c.base ≠ [] ∧ c.base = '/' :: Segments.joined '/' (components c.base)) := by
  cases habs : isAbsolute c.installSourceBase with
  | true =>
      rcases c.base_clean habs with ⟨path, hpath⟩
      have hbase : c.base = path.text := by
        have hsource : isAbsolute c.sourceDirectory.text = true := isAbsolute_pathOf _
        have hpath' : isAbsolute path.text = true := isAbsolute_pathOf _
        unfold base resolvePath
        rw [hpath, CleanPath.cleanPath_text, hsource, hpath']
        rfl
      rw [hbase, CleanPath.components_text]
      exact ⟨path.names, Or.inl (Or.inr rfl)⟩
  | false =>
      rcases resolvePath_cleanPath c.home.names c.sourceDirectory.names habs h with
        ⟨segments, hnames, hdenotes | ⟨hne, hslash⟩⟩
      · have hcomponents : components c.base = segments := components_of_denotes hnames hdenotes
        rw [hcomponents]
        exact ⟨hnames, Or.inl hdenotes⟩
      · have hbase : c.base = '/' :: Segments.joined '/' segments := hslash
        have hcomponents : components c.base = segments := by
          rw [hbase, components_slash, components_joined hnames]
        rw [hcomponents]
        exact ⟨hnames, Or.inr ⟨hne, hbase⟩⟩

/-- A clean path does not start with two slashes. -/
theorem not_slashes_prefix {segments : List PathText} (h : ∀ s, s ∈ segments → IsName s)
    {text : PathText} (htext : Denotes text segments) : ¬ ['/', '/'] <+: text := by
  have hpath : ¬ ['/', '/'] <+: pathOf segments := by
    cases segments with
    | nil => decide
    | cons s segments =>
        have hs := h s List.mem_cons_self
        rw [pathOf, if_neg (List.cons_ne_nil s segments), Segments.joined_cons,
          List.cons_prefix_cons]
        rintro ⟨-, hslash⟩
        cases s with
        | nil => exact hs.nonempty rfl
        | cons c s =>
            rw [List.cons_append, List.cons_prefix_cons] at hslash
            rcases hslash with ⟨rfl, -⟩
            exact hs.noSlash List.mem_cons_self
  rcases htext with htext | htext
  · by_cases hnil : segments = []
    · rw [htext, hnil]
      decide
    · rwa [pathOf, if_neg hnil, ← htext] at hpath
  · rwa [htext]

/-- When the text of the file starts with that of its source base. -/
theorem base_prefix_iff (hnames : ∀ s, s ∈ components c.base → IsName s)
    (hdenotes : Denotes c.base (components c.base)) :
    c.base.isPrefixOf c.file.text = true ↔
      components c.base <+: c.file.segments ∨
        BesideLonger (components c.base) c.file.segments := by
  have hpath := @text_prefix_iff ⟨components c.base, hnames⟩ _ c.file.reduced
  rcases hdenotes with hbase | hbase
  · by_cases hnil : components c.base = []
    · rw [hnil] at hbase ⊢
      rw [hbase]
      exact iff_of_true rfl (Or.inl List.nil_prefix)
    · have htext : c.base = CleanPath.text ⟨components c.base, hnames⟩ :=
        hbase.trans (if_neg hnil).symm
      rw [← htext] at hpath
      exact hpath
  · have htext : c.base = CleanPath.text ⟨components c.base, hnames⟩ := hbase
    rw [← htext] at hpath
    exact hpath

/-- The target of a file below its source base. -/
theorem cleanPath_relativePath (hnames : ∀ s, s ∈ components c.base → IsName s)
    (hdenotes : Denotes c.base (components c.base)) (hbelow : c.BelowBase) :
    cleanPath (pathOf c.targetDir ++ '/' ::
        c.file.text.drop (c.base.length + if c.base.getLast? = some '/' then 0 else 1)) =
      pathOf (c.targetDir ++ c.relativePath) := by
  rcases hbelow with ⟨⟨rest, hfile⟩, hne⟩
  have hrest : rest ≠ [] := by
    rintro rfl
    exact hne ((List.append_nil _).symm.trans hfile)
  have hrelative : c.relativePath = rest := by
    unfold relativePath
    rw [← hfile, List.drop_left]
  have hdrop := drop_of_denotes hdenotes (Reduced.of_names hnames) (['/'].intercalate rest)
  rw [fileText_eq, ← hfile, Segments.joined_append, joined_eq_intercalate hrest, hdrop, hrelative]
  refine cleanPath_below (fun s hs => c.file.names s ?_) hrest
  rw [← hfile]
  exact List.mem_append_right _ hs

theorem target_of_belowBase (h : c.installSourceBase ≠ [])
    (hnames : ∀ s, s ∈ components c.base → IsName s)
    (hdenotes : Denotes c.base (components c.base)) (hbelow : c.BelowBase) :
    c.target = .ok (pathOf (c.targetDir ++ c.relativePath)) := by
  rw [target_eq, if_neg h, (base_prefix_iff hnames hdenotes).mpr (Or.inl hbelow.1),
    if_neg (by decide), cleanPath_relativePath hnames hdenotes hbelow]

/-- No target is given for a file that does not start with two slashes as its source base does. -/
theorem prefix_base_false (hne : components c.base ≠ [])
    (hbase : c.base = '/' :: Segments.joined '/' (components c.base)) :
    ['/', '/'] <+: c.base ∧ c.base.isPrefixOf c.file.text = false := by
  have hslashes : ['/', '/'] <+: c.base := by
    rw [hbase]
    cases hsegments : components c.base with
    | nil => exact absurd hsegments hne
    | cons s segments => exact ⟨_, rfl⟩
  refine ⟨hslashes, ?_⟩
  rw [← Bool.not_eq_true, List.isPrefixOf_iff_prefix]
  exact fun hbegins => not_slashes_prefix c.file.names (Or.inr rfl) (hslashes.trans hbegins)

theorem components_relativePath :
    components (pathOf (c.targetDir ++ c.relativePath)) = c.targetDir ++ c.relativePath :=
  components_pathOf (reduced_targetDir.append fun s hs => c.file.names s (List.mem_of_mem_drop hs))

theorem pathRight_of_base (h : c.installSourceBase ≠ []) : c.PathRight ↔ c.PathCondition := by
  rcases base_cases h with ⟨hnames, hdenotes | ⟨hne, hbase⟩⟩
  · have hslashes : ¬ ['/', '/'].isPrefixOf c.base = true := by
      rw [List.isPrefixOf_iff_prefix]
      exact not_slashes_prefix hnames hdenotes
    have hstarts := base_prefix_iff hnames hdenotes
    have hbelowOk : c.BelowBase → c.target = .ok (pathOf (c.targetDir ++ c.relativePath)) :=
      target_of_belowBase h hnames hdenotes
    unfold PathRight PathCondition BaseCondition
    rw [if_neg h, if_neg h, if_neg hslashes]
    constructor
    · rintro ⟨herror, hok⟩
      -- A file whose text starts with that of the source base is not refused.
      have hbelowOfStarts : c.base.isPrefixOf c.file.text = true → c.BelowBase := by
        intro hbegins
        by_contra hbelow
        rcases herror.mpr hbelow with ⟨error, htarget⟩
        rw [target_eq, if_neg h, hbegins, if_neg (by decide)] at htarget
        cases htarget
      refine ⟨⟨fun hbeside => ?_, fun heq => ?_⟩, fun hbelow => ?_⟩
      · exact not_prefix_of_besideLonger hbeside
          (hbelowOfStarts (hstarts.mpr (Or.inr hbeside))).1
      · have hbegins : components c.base <+: c.file.segments := heq ▸ List.prefix_rfl
        exact (hbelowOfStarts (hstarts.mpr (Or.inl hbegins))).2 heq
      · have hroot := (hok _ (hbelowOk hbelow)).2
        rwa [components_relativePath] at hroot
    · rintro ⟨⟨hbeside, hne⟩, hroot⟩
      have hbelowIff : c.base.isPrefixOf c.file.text = true ↔ c.BelowBase := by
        rw [hstarts, or_iff_left hbeside]
        exact ⟨fun hbegins => ⟨hbegins, hne⟩, And.left⟩
      by_cases hbelow : c.BelowBase
      · rw [hbelowOk hbelow]
        refine ⟨iff_of_false (by rintro ⟨error, herror⟩; cases herror) (not_not_intro hbelow),
          fun target htarget => ?_⟩
        cases htarget
        exact ⟨rfl, by rw [components_relativePath]; exact hroot hbelow⟩
      · have hbegins : c.base.isPrefixOf c.file.text = false := by
          rw [← Bool.not_eq_true]
          exact fun hbegins => hbelow (hbelowIff.mp hbegins)
        rw [target_eq, if_neg h, hbegins, if_pos (by decide)]
        exact ⟨iff_of_true ⟨_, rfl⟩ hbelow, fun target htarget => by cases htarget⟩
  · rcases prefix_base_false hne hbase with ⟨hslashes, hbegins⟩
    unfold PathRight PathCondition BaseCondition
    rw [if_neg h, if_neg h, if_pos (List.isPrefixOf_iff_prefix.mpr hslashes), target_eq, if_neg h,
      hbegins, if_pos (by decide)]
    constructor
    · rintro ⟨herror, -⟩
      have hbelow := herror.mp ⟨_, rfl⟩
      exact ⟨hbelow, fun h => absurd h hbelow⟩
    · rintro ⟨hbelow, -⟩
      exact ⟨iff_of_true ⟨_, rfl⟩ hbelow, fun target htarget => by cases htarget⟩

/-- When the target of a file is the right one. -/
theorem pathRight_iff : c.PathRight ↔ c.PathCondition := by
  by_cases h : c.installSourceBase = []
  · exact pathRight_of_noBase h
  · exact pathRight_of_base h

/-- The same case with another file. -/
def withFile (c : InstallCase) (file : CleanPath) (h : file.segments ≠ []) : InstallCase :=
  { c with file := file, file_nonempty := h }

/-- Two files below the same source base do not get the same target. -/
theorem file_eq_of_target_eq {file : CleanPath} {hfile : file.segments ≠ []} {target : PathText}
    (h : c.installSourceBase ≠ []) (hbelow : c.BelowBase)
    (hbelow' : (c.withFile file hfile).BelowBase) (htarget : c.target = .ok target)
    (htarget' : (c.withFile file hfile).target = .ok target) :
    file = c.file := by
  rcases base_cases h with ⟨hnames, hdenotes | ⟨hne, hbase⟩⟩
  · rw [target_of_belowBase h hnames hdenotes hbelow] at htarget
    rw [target_of_belowBase (c := c.withFile file hfile) h hnames hdenotes hbelow'] at htarget'
    have htexts := Except.ok.inj (htarget'.trans htarget.symm)
    have hpaths := congrArg components htexts
    rw [components_relativePath, components_relativePath] at hpaths
    have hrelative : (c.withFile file hfile).relativePath = c.relativePath :=
      List.append_cancel_left hpaths
    refine CleanPath.text_injective (congrArg pathOf ?_)
    calc file.segments = components c.base ++ (c.withFile file hfile).relativePath :=
          (List.prefix_iff_eq_append.mp hbelow'.1).symm
      _ = components c.base ++ c.relativePath := by rw [hrelative]
      _ = c.file.segments := List.prefix_iff_eq_append.mp hbelow.1
  · rw [target_eq, if_neg h, (prefix_base_false hne hbase).2, if_pos (by decide)] at htarget
    cases htarget

end InstallCase

/-! ## Installing -/

/-- An artifact, and what happens when it is copied. -/
structure Attempt where
  filePath : PathText
  sourceDirectory : PathText
  properties : InstallProperties
  canceled : Bool
  mkpath : Bool
  copyError : Option String

/-- What is the same for all artifacts. -/
structure Installer where
  homePath : PathText
  effectiveInstallRoot : PathText
  options : InstallOptions
  configuration : String
  removeError : Option String

/-- The map of the targets, and the targets of the files that have been copied. -/
structure InstallState where
  targetFilePathsMap : List (PathText × PathText)
  installed : List (PathText × PathText)

namespace Installer

variable (installer : Installer)

def handleError (message : String) : Except ErrorInfo Unit :=
  if !installer.options.keepGoing then .error (.message message) else .ok ()

def removeInstallRoot : Except ErrorInfo Unit :=
  if installer.options.dryRun then .ok ()
  else
    match installer.removeError with
    | none => .ok ()
    | some error =>
        installer.handleError ("Cannot remove install root '" ++
          String.ofList installer.options.installRoot ++ "': " ++ error)

def targetOf (a : Attempt) : Except ErrorInfo PathText :=
  targetFilePath installer.homePath installer.effectiveInstallRoot a.sourceDirectory a.filePath
    a.properties installer.options

/-- Two files with the same target are an error. -/
def checkTarget (s : InstallState) (target filePath : PathText) : Except ErrorInfo Unit :=
  match s.targetFilePathsMap.lookup target with
  | none => .ok ()
  | some other =>
      if filePath ≠ other then
        installer.handleError ("Cannot install files '" ++ String.ofList filePath ++ "' and '" ++
          String.ofList other ++ "' to the same location '" ++ String.ofList target ++
          "'. If you are attempting to install a directory hierarchy, consider " ++
          "using the qbs.installSourceBase property.")
      else .ok ()

def copyFile (s : InstallState) (a : Attempt) : Except ErrorInfo InstallState :=
  if a.canceled then
    .error (.message
      ("Installation canceled for configuration '" ++ installer.configuration ++ "'."))
  else do
    let target ← installer.targetOf a
    if installer.options.dryRun then .ok s
    else if !a.mkpath then do
      installer.handleError ("Directory '" ++ String.ofList (path target) ++
        "' could not be created.")
      .ok s
    else do
      installer.checkTarget s target a.filePath
      let s := { s with targetFilePathsMap := (target, a.filePath) :: s.targetFilePathsMap }
      match a.copyError with
      | none => .ok { s with installed := s.installed ++ [(target, a.filePath)] }
      | some error => do
          installer.handleError ("Installation error: " ++ error)
          .ok s

def install (artifacts : List Attempt) : Except ErrorInfo InstallState := do
  if installer.options.removeExistingInstallation then installer.removeInstallRoot
  (artifacts.filter fun a => a.properties.install).foldlM installer.copyFile ⟨[], []⟩

variable {installer : Installer} {s s' : InstallState} {a : Attempt}

theorem handleError_of_not_keepGoing (h : installer.options.keepGoing = false)
    (message : String) : installer.handleError message = .error (.message message) := by
  unfold handleError
  rw [h]
  rfl

theorem checkTarget_eq_ok (h : installer.options.keepGoing = false) {target filePath : PathText}
    (hcheck : installer.checkTarget s target filePath = .ok ()) :
    ∀ other, s.targetFilePathsMap.lookup target = some other → other = filePath := by
  intro other hother
  unfold checkTarget at hcheck
  rw [hother] at hcheck
  dsimp only at hcheck
  rw [handleError_of_not_keepGoing h] at hcheck
  by_contra hne
  rw [if_pos (Ne.symm hne)] at hcheck
  cases hcheck

/-- What copying a file without an error has done. -/
theorem copyFile_eq_ok (h : installer.options.keepGoing = false)
    (hcopy : installer.copyFile s a = .ok s') :
    ∃ target, installer.targetOf a = .ok target ∧
      (installer.options.dryRun = true ∧ s' = s ∨
        (∀ other, s.targetFilePathsMap.lookup target = some other → other = a.filePath) ∧
          s' = ⟨(target, a.filePath) :: s.targetFilePathsMap,
            s.installed ++ [(target, a.filePath)]⟩) := by
  unfold copyFile at hcopy
  cases hcanceled : a.canceled with
  | true =>
      rw [hcanceled, if_pos rfl] at hcopy
      cases hcopy
  | false =>
  rw [hcanceled, if_neg (by decide)] at hcopy
  rcases Fallible.bind_eq_ok_iff.mp hcopy with ⟨target, htarget, hcopy⟩
  refine ⟨target, htarget, ?_⟩
  split_ifs at hcopy with hdry hmkpath
  · exact Or.inl ⟨hdry, (Except.ok.inj hcopy).symm⟩
  · rw [handleError_of_not_keepGoing h] at hcopy
    cases hcopy
  · rcases Fallible.bind_eq_ok_iff.mp hcopy with ⟨⟨⟩, hcheck, hcopy⟩
    refine Or.inr ⟨checkTarget_eq_ok h hcheck, ?_⟩
    cases herror : a.copyError with
    | none =>
        rw [herror] at hcopy
        exact (Except.ok.inj hcopy).symm
    | some error =>
        rw [herror] at hcopy
        dsimp only at hcopy
        rw [handleError_of_not_keepGoing h] at hcopy
        cases hcopy

/-- The map knows for each target which file has been copied there. -/
def Known (s : InstallState) : Prop :=
  ∀ e, e ∈ s.installed → s.targetFilePathsMap.lookup e.1 = some e.2

theorem known_copyFile (h : installer.options.keepGoing = false) (hs : Known s)
    (hcopy : installer.copyFile s a = .ok s') : Known s' := by
  rcases copyFile_eq_ok h hcopy with ⟨target, -, ⟨-, rfl⟩ | ⟨hknown, rfl⟩⟩
  · exact hs
  · intro e he
    dsimp only at he ⊢
    rw [List.lookup_cons]
    rcases List.mem_append.mp he with he | he
    · cases heq : e.1 == target with
      | false => exact hs e he
      | true =>
          have hlookup := hs e he
          rw [eq_of_beq heq] at hlookup
          rw [hknown _ hlookup]
    · rw [List.mem_singleton.mp he, beq_self_eq_true]

/-- The files that have been copied, as far as the installation is not just tried. -/
theorem installed_foldlM (h : installer.options.keepGoing = false)
    (hdry : installer.options.dryRun = false) {artifacts : List Attempt}
    (hloop : artifacts.foldlM installer.copyFile s = .ok s') :
    (∀ e, e ∈ s.installed → e ∈ s'.installed) ∧
      ∀ a, a ∈ artifacts → ∃ target, installer.targetOf a = .ok target ∧
        (target, a.filePath) ∈ s'.installed := by
  induction artifacts generalizing s with
  | nil =>
      rw [List.foldlM_nil, Fallible.pure_eq_ok_iff] at hloop
      rw [hloop]
      exact ⟨fun _ he => he, fun _ ha => absurd ha List.not_mem_nil⟩
  | cons a artifacts ih =>
      rw [List.foldlM_cons] at hloop
      rcases Fallible.bind_eq_ok_iff.mp hloop with ⟨t, hcopy, hrest⟩
      rcases copyFile_eq_ok h hcopy with ⟨target, htarget, ⟨hdry', -⟩ | ⟨-, rfl⟩⟩
      · rw [hdry] at hdry'
        cases hdry'
      · rcases ih hrest with ⟨hkeep, hall⟩
        refine ⟨fun e he => hkeep e (List.mem_append_left _ he), fun b hb => ?_⟩
        rcases List.mem_cons.mp hb with rfl | hb
        · exact ⟨target, htarget,
            hkeep _ (List.mem_append_right _ (List.mem_singleton_self _))⟩
        · exact hall b hb

/-- After an installation without an error that was to stop at the first one, no two files have
been copied to the same target; and all files have been copied to their targets unless that was
just tried. -/
theorem install_distinct (h : installer.options.keepGoing = false) {artifacts : List Attempt}
    (hinstall : installer.install artifacts = .ok s) :
    (∀ target filePath filePath', (target, filePath) ∈ s.installed →
        (target, filePath') ∈ s.installed → filePath = filePath') ∧
      (installer.options.dryRun = false → ∀ a, a ∈ artifacts → a.properties.install = true →
        ∃ target, installer.targetOf a = .ok target ∧ (target, a.filePath) ∈ s.installed) := by
  have hloop : (artifacts.filter fun a => a.properties.install).foldlM installer.copyFile
      ⟨[], []⟩ = .ok s := by
    unfold install at hinstall
    split_ifs at hinstall
    · rcases Fallible.bind_eq_ok_iff.mp hinstall with ⟨⟨⟩, -, hloop⟩
      exact hloop
    · exact hinstall
  have hknown : Known s :=
    Fallible.foldlM_invariant (P := Known) (fun _ _ _ _ hs hcopy => known_copyFile h hs hcopy)
      (fun _ he => absurd he List.not_mem_nil) hloop
  refine ⟨fun target filePath filePath' hmem hmem' => ?_, fun hdry a ha hainstall => ?_⟩
  · exact Option.some.inj ((hknown _ hmem).symm.trans (hknown _ hmem'))
  · exact (installed_foldlM h hdry hloop).2 a (List.mem_filter.mpr ⟨ha, hainstall⟩)

end Installer

/-- The target of a file is the right one exactly under the condition, two files below the same
source base never have the same target, and an installation that has not failed has not copied two
files to the same target. -/
theorem targets_right (c : InstallCase) (installer : Installer) :
    (c.PathRight ↔ c.PathCondition) ∧
      (∀ (file : CleanPath) (hfile : file.segments ≠ []) (target : PathText),
        c.installSourceBase ≠ [] → c.BelowBase → (c.withFile file hfile).BelowBase →
          file ≠ c.file → c.target = .ok target → (c.withFile file hfile).target ≠ .ok target) ∧
      ∀ (artifacts : List Attempt) (s : InstallState),
        installer.options.keepGoing = false → installer.install artifacts = .ok s →
          (∀ target filePath filePath', (target, filePath) ∈ s.installed →
            (target, filePath') ∈ s.installed → filePath = filePath') ∧
          (installer.options.dryRun = false → ∀ a, a ∈ artifacts → a.properties.install = true →
            ∃ target, installer.targetOf a = .ok target ∧ (target, a.filePath) ∈ s.installed) :=
  ⟨InstallCase.pathRight_iff,
    fun _ _ _ h hbelow hbelow' hne htarget htarget' =>
      hne (InstallCase.file_eq_of_target_eq h hbelow hbelow' htarget htarget'),
    fun _ _ h hinstall => Installer.install_distinct h hinstall⟩

/-! ## A sample -/

/-- A file with a source base, and a prefix that leads out of the install root. -/
def sampleCase (installPrefix : String) : InstallCase where
  home := ⟨["home".toList], by decide⟩
  rootOfOptions := some ⟨["p".toList, "root".toList], by decide⟩
  rootOfProject := none
  rootOfProperties := ⟨["p".toList, "root".toList], by decide⟩
  installPrefix := installPrefix.toList
  installDir := []
  sourceDirectory := ⟨["p".toList], by decide⟩
  installSourceBase := ".".toList
  base_clean h := by cases h
  file := ⟨["p".toList, "a.h".toList], by decide⟩
  file_nonempty := by decide

/-- Another file. -/
def sampleFile : CleanPath :=
  ⟨["p".toList, "b.h".toList], by decide⟩

/-- Both files are to be installed. -/
def sampleArtifacts : List Attempt :=
  [(sampleCase "include").file, sampleFile].map fun file =>
    ⟨file.text, "/p".toList, (sampleCase "include").properties, false, true, none⟩

def sampleInstaller : Installer :=
  ⟨"/home".toList, [], ⟨"/p/root".toList, false, false, false⟩, "default", none⟩

theorem pathCondition_sampleCase : (sampleCase "include").PathCondition := by
  have hbelow : Below ["p".toList] ["p".toList, "a.h".toList] := by
    unfold Below
    decide
  have hroot : Below ["p".toList, "root".toList]
      ["p".toList, "root".toList, "include".toList, "a.h".toList] := by
    unfold Below
    decide
  refine ⟨⟨fun hbeside => not_prefix_of_besideLonger hbeside hbelow.1, hbelow.2⟩, fun _ => hroot⟩

/-- A prefix that stays inside the install root, two files, and their installation. -/
theorem targets_right_sampleCase :
    (sampleCase "include").PathRight ∧
      ((sampleCase "include").withFile sampleFile (by decide)).target ≠
        .ok "/p/root/include/a.h".toList ∧
      ∃ s, sampleInstaller.install sampleArtifacts = .ok s ∧
        ∀ target filePath filePath', (target, filePath) ∈ s.installed →
          (target, filePath') ∈ s.installed → filePath = filePath' :=
  ⟨(targets_right (sampleCase "include") sampleInstaller).1.mpr pathCondition_sampleCase,
    (targets_right (sampleCase "include") sampleInstaller).2.1 sampleFile (by decide) _ (by decide)
      (by unfold InstallCase.BelowBase Below; decide)
      (by unfold InstallCase.BelowBase Below; decide)
      (fun h => absurd (congrArg CleanPath.segments h) (by decide)) rfl,
    _, rfl, ((targets_right (sampleCase "include") sampleInstaller).2.2 sampleArtifacts _ rfl
      rfl).1⟩

/-- The target is outside of the install root, and there is no error. -/
theorem not_pathRight_sampleCase : ¬ (sampleCase "../include").PathRight := by
  intro h
  have hroot := (h.2 "/p/include/a.h".toList rfl).2
  unfold Below at hroot
  exact absurd hroot (by decide)

end ProductInstaller

end Qbs
