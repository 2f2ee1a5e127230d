import QbsCore.Tools.CleanPaths

/-!
# Resolving relative paths

A relative path is resolved by cutting segments off the base path for the segments at its start
that go up.  The general meaning of a path is the list of names that is left when its segments
are followed one after the other from the root, where going up from the root leads to the root.

Main results:

- Theorem {lit}`FileInfo.resolvesRight_iff`: which relative paths are resolved to an absolute
  path with the right meaning.
-/

namespace Qbs

namespace FileInfo

/-! ## Following the segments of a path -/

/-- Follow one segment from a directory, whose last name comes first. -/
def followSegment (dir : List PathText) (s : PathText) : List PathText :=
  if s = [] ∨ s = ['.'] then dir
  else if s = dotDot then dir.tail
  else s :: dir

/-- Follow the segments of a text. -/
def follow (dir : List PathText) (text : PathText) : List PathText :=
  (text.splitOn '/').foldl followSegment dir

/-- The names that an absolute path stands for. -/
def followed (path : PathText) : List PathText :=
  (follow [] path).reverse

@[simp]
theorem followSegment_nil (dir : List PathText) : followSegment dir [] = dir := by
  simp [followSegment]

@[simp]
theorem followSegment_dotDot (dir : List PathText) : followSegment dir dotDot = dir.tail := by
  simp [followSegment, dotDot]

variable {s : PathText}

theorem followSegment_name (h : IsName s) (dir : List PathText) :
    followSegment dir s = s :: dir := by
  simp [followSegment, h.nonempty, h.notDot, h.notDotDot]

@[simp]
theorem follow_nil (dir : List PathText) : follow dir [] = dir := by
  simp [follow]

theorem follow_segment (h : '/' ∉ s) (dir : List PathText) :
    follow dir s = followSegment dir s := by
  simp [follow, List.splitOn_eq_singleton h]

theorem follow_append (dir : List PathText) (first second : PathText) :
    follow dir (first ++ '/' :: second) = follow (follow dir first) second := by
  simp [follow, List.splitOn_append_cons_self]

@[simp]
theorem follow_slash (dir : List PathText) (text : PathText) :
    follow dir ('/' :: text) = follow dir text := by
  simpa using follow_append dir [] text

theorem follow_dotDot_slash (dir : List PathText) (text : PathText) :
    follow dir ('.' :: '.' :: '/' :: text) = follow dir.tail text := by
  have happend := follow_append dir dotDot text
  rw [follow_segment slash_notMem_dotDot, followSegment_dotDot] at happend
  exact happend

/-- Names are followed down. -/
theorem follow_joined {names : List PathText} (h : ∀ s ∈ names, IsName s) (dir : List PathText) :
    follow dir (Segments.joined '/' names) = names.reverse ++ dir := by
  have hsplit : Segments.Separated '/' names := fun s hs => (h s hs).noSlash
  rw [follow, Segments.splitOn_joined hsplit, List.foldl_cons, followSegment_nil]
  clear hsplit
  induction names generalizing dir with
  | nil => simp
  | cons s names ih =>
      rw [List.foldl_cons, followSegment_name (h s (by simp)), ih fun t ht => h t (by simp [ht])]
      simp

/-! ## Relative paths -/

/-- A path that starts neither at the root nor at the home directory. -/
structure RelativePath where
  text : PathText
  notAbsolute : isAbsolute text = false
  notHome : text.head? ≠ some '~'

/-- A text with a number of segments that go up. -/
def upsText (k : ℕ) : PathText :=
  (List.replicate k (dotDot ++ ['/'])).flatten

/-- The path only goes up, with one slash after each segment or between the segments, and reaches
the root from a directory. -/
def EndsAtRoot (dir : List PathText) (rel : PathText) : Prop :=
  ∃ k, dir.length ≤ k ∧ (rel = upsText k ∨ rel ++ ['/'] = upsText k)

theorem upsText_succ (k : ℕ) : upsText (k + 1) = '.' :: '.' :: '/' :: upsText k := by
  simp [upsText, List.replicate_succ, dotDot]

variable {dir : List PathText}

theorem endsAtRoot_up :
    EndsAtRoot dir ('.' :: '.' :: '/' :: s) ↔ EndsAtRoot dir.dropLast s := by
  constructor
  · intro ⟨k, hlength, htext⟩
    cases k with
    | zero => simp [upsText] at htext
    | succ k => exact ⟨k, by simp; omega, by simpa [upsText_succ] using htext⟩
  · intro ⟨k, hlength, htext⟩
    exact ⟨k + 1, by simp at hlength; omega, by simpa [upsText_succ] using htext⟩

theorem endsAtRoot_dotDot :
    EndsAtRoot dir dotDot ↔ dir.dropLast = [] := by
  constructor
  · intro ⟨k, hlength, htext⟩
    match k with
    | 0 => simp [upsText, dotDot] at htext
    | 1 => exact List.length_eq_zero_iff.mp (by simp; omega)
    | k + 2 => simp [upsText_succ, dotDot] at htext
  · intro h
    have hlength : dir.length - 1 = 0 := by simpa [← List.length_eq_zero_iff] using h
    exact ⟨1, by omega, .inr (by simp [upsText])⟩

theorem endsAtRoot_other (hups : ∀ rest, s ≠ '.' :: '.' :: '/' :: rest) (hdots : s ≠ dotDot) :
    EndsAtRoot dir s ↔ dir = [] ∧ s = [] := by
  constructor
  · intro ⟨k, hlength, htext⟩
    cases k with
    | zero => exact ⟨List.length_eq_zero_iff.mp (by omega), by simpa [upsText] using htext⟩
    | succ k =>
        rw [upsText_succ] at htext
        rcases htext with htext | htext
        · exact absurd htext (hups _)
        · match s with
          | [] | [_] => simp at htext
          | [a, b] =>
              simp only [List.cons_append, List.cons.injEq] at htext
              simp [htext.1, htext.2.1, dotDot] at hdots
          | a :: b :: c :: rest =>
              simp only [List.cons_append, List.cons.injEq] at htext
              exact absurd (by rw [htext.1, htext.2.1, htext.2.2.1]) (hups rest)
  · intro ⟨hdir, hs⟩
    exact ⟨0, by simp [hdir], by simp [upsText, hs]⟩

/-- What going up leaves: a part of the directory that leads to the same names with the rest of the
path. -/
theorem goUp_spec (r s : PathText) (hr : r = Segments.joined '/' dir) (hdir : ∀ t ∈ dir, IsName t) :
    ∃ left, (goUp r s).1 = Segments.joined '/' left ∧ (∀ t ∈ left, IsName t) ∧
      follow left.reverse (goUp r s).2 = follow dir.reverse s ∧
      (left = [] ∧ (goUp r s).2 = [] ↔ EndsAtRoot dir s) := by
  have hslash : ∀ {dir : List PathText}, (∀ t ∈ dir, IsName t) → Segments.Separated '/' dir :=
    fun hdir t ht => (hdir t ht).noSlash
  fun_induction goUp r s generalizing dir with
  | case1 r s ih =>
      have hcut : truncated r = Segments.joined '/' dir.dropLast := by
        rw [hr, truncated_joined (hslash hdir)]
      obtain ⟨left, hleft, hnames, hfollow, hends⟩ :=
        ih hcut fun t ht => hdir t (List.dropLast_subset dir ht)
      refine ⟨left, hleft, hnames, ?_, hends.trans endsAtRoot_up.symm⟩
      rw [hfollow, follow_dotDot_slash, List.tail_reverse]
  | case2 r hups =>
      refine ⟨dir.dropLast, ?_, fun t ht => hdir t (List.dropLast_subset dir ht), ?_, ?_⟩
      · rw [hr, truncated_joined (hslash hdir)]
      · rw [follow_nil, follow_segment slash_notMem_dotDot, followSegment_dotDot,
          List.tail_reverse]
      · simp [endsAtRoot_dotDot]
  | case3 r s hups hdots =>
      exact ⟨dir, hr, hdir, rfl, (endsAtRoot_other (fun rest => hups rest) hdots).symm⟩

/-! ## Resolving -/

/-- The result is an absolute path that stands for the same as the two paths together. -/
structure ResolvesRight (homePath : PathText) (base : CleanPath) (rel : RelativePath) : Prop where
  absolute : isAbsolute (resolvePath homePath base.text rel.text) = true
  same : pathOf (followed (resolvePath homePath base.text rel.text)) =
    pathOf (followed (base.text ++ '/' :: rel.text))

theorem resolvePath_relative (homePath : PathText) (base : CleanPath) (rel : RelativePath) :
    resolvePath homePath base.text rel.text =
      if rel.text = ['.'] then base.text
      else
        let parts := goUp (Segments.joined '/' base.segments) rel.text
        if parts.2 = [] then parts.1 else parts.1 ++ '/' :: parts.2 := by
  have hhome : rel.text ≠ ['~'] ∧ ['~', '/'].isPrefixOf rel.text = false := by
    have hhead := rel.notHome
    cases htext : rel.text with
    | nil => simp
    | cons c text =>
        have hc : c ≠ '~' := by simpa [htext] using hhead
        exact ⟨by simp [hc], by simp [List.isPrefixOf, Ne.symm hc]⟩
  have habsolute : isAbsolute base.text = true := isAbsolute_pathOf base.segments
  rw [resolvePath, if_neg (by simp [habsolute]), if_neg (by simp [rel.notAbsolute]),
    CleanPath.text, pathOf_chop base.reduced]
  by_cases hdot : rel.text = ['.']
  · simp [hdot]
  · rw [if_neg hdot, if_neg hdot, if_neg hhome.1, if_neg (by rw [hhome.2]; decide)]

theorem followed_text (base : CleanPath) : followed base.text = base.segments := by
  unfold followed CleanPath.text pathOf
  split_ifs with hnil
  · simp [hnil]
  · simp [follow_joined base.names]

/-- The result stands for the same as the two paths together. -/
theorem followed_resolvePath (homePath : PathText) (base : CleanPath) (rel : RelativePath) :
    followed (resolvePath homePath base.text rel.text) =
      followed (base.text ++ '/' :: rel.text) := by
  have hwhole : followed (base.text ++ '/' :: rel.text) =
      (follow base.segments.reverse rel.text).reverse := by
    rw [followed, follow_append, ← followed_text base, followed, List.reverse_reverse]
  rw [hwhole, resolvePath_relative]
  split_ifs with hdot
  · rw [followed_text, hdot, follow_segment (by simp)]
    simp [followSegment]
  · obtain ⟨left, hleft, hnames, hfollow, _⟩ :=
      goUp_spec (Segments.joined '/' base.segments) rel.text rfl base.names
    have hjoined : follow [] (Segments.joined '/' left) = left.reverse := by
      simp [follow_joined hnames]
    rw [← hfollow, followed]
    simp only [hleft]
    split_ifs with hrest
    · rw [hrest, hjoined, follow_nil]
    · rw [follow_append, hjoined]

/-- The result is empty if the path ends with going up to the root, and absolute otherwise. -/
theorem isAbsolute_resolvePath_iff (homePath : PathText) (base : CleanPath) (rel : RelativePath) :
    isAbsolute (resolvePath homePath base.text rel.text) = true ↔
      ¬ EndsAtRoot base.segments rel.text := by
  rw [resolvePath_relative]
  split_ifs with hdot
  · rw [hdot, endsAtRoot_other (by simp) (by simp [dotDot])]
    exact iff_of_true (isAbsolute_pathOf base.segments) (by simp)
  · obtain ⟨left, hleft, _, _, hends⟩ :=
      goUp_spec (Segments.joined '/' base.segments) rel.text rfl base.names
    rw [← hends]
    simp only [hleft]
    cases left with
    | nil => split_ifs with hrest <;> simp [isAbsolute, hrest]
    | cons s left => split_ifs <;> simp [isAbsolute]

/-- A relative path is resolved right exactly if it does not end with going up to the root. -/
theorem resolvesRight_iff (homePath : PathText) (base : CleanPath) (rel : RelativePath) :
    ResolvesRight homePath base rel ↔ ¬ EndsAtRoot base.segments rel.text := by
  rw [← isAbsolute_resolvePath_iff homePath]
  constructor
  · intro h
    exact h.absolute
  · intro h
    exact ⟨h, congrArg pathOf (followed_resolvePath homePath base rel)⟩

/-- Going up from a directory below the root gives an empty text. -/
theorem not_resolvesRight_up :
    ¬ ResolvesRight "/home/me".toList ⟨["abc".toList], by decide⟩
      ⟨dotDot, by decide, by decide⟩ := by
  intro h
  exact absurd h.absolute (by decide)

end FileInfo

end Qbs
