import QbsCore.Tools.FileInfo

/-!
# Clean paths

An absolute path is clean if its segments are names: none of them is empty or consists of
one or two dots.  Cleaning another absolute path leaves segments that go up at most at its
start.

Main results:

- Theorem {lit}`FileInfo.cleanPath_join`: cleaning a path that is put together.
- Theorem {lit}`FileInfo.resolvePath_cleanPath`: what a cleaned path stands for below a clean one.
- Theorem {lit}`FileInfo.components_pathOf`: the segments of a path can be read off.
-/

namespace Qbs

namespace FileInfo

/-! ## Names -/

/-- A segment that is neither redundant nor goes up. -/
structure IsName (s : PathText) : Prop where
  nonempty : s ≠ []
  notDot : s ≠ ['.']
  notDotDot : s ≠ dotDot
  noSlash : '/' ∉ s

instance (s : PathText) : Decidable (IsName s) :=
  decidable_of_iff (s ≠ [] ∧ s ≠ ['.'] ∧ s ≠ dotDot ∧ '/' ∉ s)
    ⟨fun h => ⟨h.1, h.2.1, h.2.2.1, h.2.2.2⟩,
      fun h => ⟨h.nonempty, h.notDot, h.notDotDot, h.noSlash⟩⟩

/-- An absolute path with some segments. -/
def pathOf (segments : List PathText) : PathText :=
  if segments = [] then ['/'] else Segments.joined '/' segments

/-- The segments of a path that are not empty. -/
def components (path : PathText) : List PathText :=
  (path.splitOn '/').filter fun s => s ≠ []

/-- Segments that go up, followed by names. -/
structure Reduced (segments : List PathText) : Prop where
  split : ∃ ups names : List PathText, segments = ups ++ names ∧ (∀ s, s ∈ ups → s = dotDot) ∧
    ∀ s, s ∈ names → IsName s

theorem slash_notMem_dotDot : '/' ∉ dotDot := by
  decide

theorem dotDot_ne_nil : dotDot ≠ [] := by
  decide

variable {names segments stack : List PathText} {s : PathText}

theorem Reduced.of_names (h : ∀ s, s ∈ segments → IsName s) :
    Reduced segments :=
  ⟨[], segments, rfl, fun _ hs => absurd hs List.not_mem_nil, h⟩

theorem Reduced.separated (h : Reduced segments) :
    Segments.Separated '/' segments := by
  rcases h.split with ⟨ups, names, rfl, hups, hnames⟩
  intro s hs
  rcases List.mem_append.mp hs with hs | hs
  · rw [hups s hs]
    exact slash_notMem_dotDot
  · exact (hnames s hs).noSlash

theorem Reduced.ne_nil (h : Reduced segments) (hs : s ∈ segments) : s ≠ [] := by
  rcases h.split with ⟨ups, names, rfl, hups, hnames⟩
  rcases List.mem_append.mp hs with hs | hs
  · rw [hups s hs]
    exact dotDot_ne_nil
  · exact (hnames s hs).nonempty

theorem Reduced.ne_dot (h : Reduced segments) (hs : s ∈ segments) : s ≠ ['.'] := by
  rcases h.split with ⟨ups, names, rfl, hups, hnames⟩
  rcases List.mem_append.mp hs with hs | hs
  · rw [hups s hs]
    decide
  · exact (hnames s hs).notDot

theorem Reduced.append (h : Reduced segments) (hnames : ∀ s, s ∈ names → IsName s) :
    Reduced (segments ++ names) := by
  rcases h.split with ⟨ups, names', rfl, hups, hnames'⟩
  refine ⟨ups, names' ++ names, List.append_assoc _ _ _, hups, fun s hs => ?_⟩
  rcases List.mem_append.mp hs with hs | hs
  · exact hnames' s hs
  · exact hnames s hs

theorem splitOn_pathOf (h : Segments.Separated '/' segments) :
    (pathOf segments).splitOn '/' = if segments = [] then [[], []] else [] :: segments := by
  unfold pathOf
  split_ifs
  · rfl
  · exact Segments.splitOn_joined h

@[simp]
theorem components_pathOf (h : Reduced segments) :
    components (pathOf segments) = segments := by
  unfold components
  rw [splitOn_pathOf h.separated]
  split_ifs with hnil
  · rw [hnil]
    rfl
  · rw [List.filter_cons_of_neg (by simp), List.filter_eq_self]
    intro s hs
    exact decide_eq_true (h.ne_nil hs)

theorem pathOf_injective {l m : List PathText} (hl : Reduced l) (hm : Reduced m)
    (h : pathOf l = pathOf m) : l = m := by
  rw [← components_pathOf hl, h, components_pathOf hm]

theorem isAbsolute_pathOf (segments : List PathText) : isAbsolute (pathOf segments) = true := by
  unfold isAbsolute pathOf
  cases segments <;> rfl

theorem pathOf_ne_nil (segments : List PathText) : pathOf segments ≠ [] := by
  intro h
  have habs := isAbsolute_pathOf segments
  rw [h] at habs
  cases habs

/-! ## Cleaning -/

theorem pushSegment_name (h : IsName s) :
    pushSegment stack s = s :: stack := by
  unfold pushSegment
  rw [if_neg (not_or.mpr ⟨h.nonempty, h.notDot⟩), if_neg h.notDotDot]

theorem pushSegment_nil (stack : List PathText) : pushSegment stack [] = stack :=
  if_pos (Or.inl rfl)

theorem foldl_pushSegment_names (h : ∀ s, s ∈ names → IsName s) (stack : List PathText) :
    names.foldl pushSegment stack = names.reverse ++ stack := by
  induction names generalizing stack with
  | nil => rfl
  | cons s names ih =>
      rw [List.foldl_cons, pushSegment_name (h s List.mem_cons_self),
        ih fun t ht => h t (List.mem_cons_of_mem s ht), List.reverse_cons, List.append_assoc]
      rfl

theorem foldl_pushSegment_ups {ups : List PathText} (h : ∀ s, s ∈ ups → s = dotDot)
    (hstack : ∀ s, s ∈ stack → s = dotDot) :
    ups.foldl pushSegment stack = ups.reverse ++ stack := by
  induction ups generalizing stack with
  | nil => rfl
  | cons s ups ih =>
      have hs : s = dotDot := h s List.mem_cons_self
      have hpush : pushSegment stack s = s :: stack := by
        rw [hs]
        cases stack with
        | nil => rfl
        | cons t stack =>
            rw [hstack t List.mem_cons_self]
            rfl
      rw [List.foldl_cons, hpush, ih (fun t ht => h t (List.mem_cons_of_mem s ht)) fun t ht => by
        rcases List.mem_cons.mp ht with rfl | ht
        · exact hs
        · exact hstack t ht, List.reverse_cons, List.append_assoc]
      rfl

/-- Reduced segments are pushed one after the other. -/
theorem foldl_pushSegment_reduced (h : Reduced segments) :
    segments.foldl pushSegment [] = segments.reverse := by
  rcases h.split with ⟨ups, names, rfl, hups, hnames⟩
  rw [List.foldl_append, foldl_pushSegment_ups hups fun s hs => absurd hs List.not_mem_nil,
    List.append_nil, foldl_pushSegment_names hnames, List.reverse_append]

theorem normalized_of_reduced (h : Reduced segments) :
    normalized segments = segments := by
  unfold normalized
  rw [foldl_pushSegment_reduced h, List.reverse_reverse]

/-- The stack holds names above segments that go up. -/
theorem reduced_pushSegment (h : Reduced stack.reverse) (hs : '/' ∉ s) :
    Reduced (pushSegment stack s).reverse := by
  unfold pushSegment
  split_ifs with hskip hup
  · exact h
  · rcases h.split with ⟨ups, names, hstack, hups, hnames⟩
    cases stack with
    | nil => exact ⟨[s], [], rfl, fun t ht => (List.mem_singleton.mp ht).trans hup,
        fun _ ht => absurd ht List.not_mem_nil⟩
    | cons top rest =>
        rw [List.reverse_cons] at hstack
        dsimp only
        rcases List.eq_nil_or_concat names with rfl | ⟨names, top', rfl⟩
        · -- There are no names left that could be removed.
          rw [List.append_nil] at hstack
          have htop : top = dotDot := hups top (by
            rw [← hstack]
            exact List.mem_append_right _ (List.mem_singleton_self top))
          rw [if_pos htop, List.reverse_cons, List.reverse_cons, hstack]
          refine ⟨ups ++ [s], [], (List.append_nil _).symm, fun t ht => ?_,
            fun _ ht => absurd ht List.not_mem_nil⟩
          rcases List.mem_append.mp ht with ht | ht
          · exact hups t ht
          · exact (List.mem_singleton.mp ht).trans hup
        · rw [List.concat_eq_append, ← List.append_assoc] at hstack
          rcases List.append_inj' hstack rfl with ⟨hrest, htop⟩
          cases htop
          rw [if_neg (hnames top (by simp)).notDotDot, hrest]
          exact ⟨ups, names, rfl, hups, fun t ht => hnames t (by
            rw [List.concat_eq_append]
            exact List.mem_append_left _ ht)⟩
  · rw [not_or] at hskip
    rw [List.reverse_cons]
    refine h.append fun t ht => ?_
    rw [List.mem_singleton.mp ht]
    exact ⟨hskip.1, hskip.2, hup, hs⟩

theorem reduced_normalized (h : Segments.Separated '/' segments) :
    Reduced (normalized segments) := by
  suffices hfold : ∀ stack : List PathText, Reduced stack.reverse →
      Reduced (segments.foldl pushSegment stack).reverse from
    hfold [] (Reduced.of_names fun _ hs => absurd hs List.not_mem_nil)
  induction segments with
  | nil => exact fun _ hstack => hstack
  | cons s segments ih =>
      intro stack hstack
      exact ih h.cons.2 _ (reduced_pushSegment hstack h.cons.1)

theorem cleanPath_of_isAbsolute {path : PathText} (h : isAbsolute path = true) :
    cleanPath path = pathOf (normalized (path.splitOn '/')) := by
  unfold cleanPath pathOf
  cases path with
  | nil => cases h
  | cons c path => rw [if_neg (List.cons_ne_nil c path), if_pos h]

/-- The segments of an absolute path with reduced segments may be pushed instead of those that its
text is split into. -/
theorem foldl_pushSegment_splitOn_pathOf (h : Segments.Separated '/' segments)
    (stack : List PathText) :
    ((pathOf segments).splitOn '/').foldl pushSegment stack =
      segments.foldl pushSegment stack := by
  rw [splitOn_pathOf h]
  split_ifs with hnil
  · rw [hnil]
    rfl
  · rw [List.foldl_cons, pushSegment_nil]

/-- Cleaning a path that is put together from an absolute path and a text. -/
theorem cleanPath_join (h : Segments.Separated '/' segments) (rel : PathText) :
    cleanPath (pathOf segments ++ '/' :: rel) =
      pathOf (normalized (segments ++ rel.splitOn '/')) := by
  have habs : isAbsolute (pathOf segments ++ '/' :: rel) = true := by
    have h := isAbsolute_pathOf segments
    cases hpath : pathOf segments with
    | nil => exact absurd hpath (pathOf_ne_nil segments)
    | cons c path =>
        rw [hpath] at h
        exact h
  rw [cleanPath_of_isAbsolute habs, List.splitOn_append_cons_self]
  unfold normalized
  rw [List.foldl_append, List.foldl_append, foldl_pushSegment_splitOn_pathOf h]

theorem cleanPath_pathOf (h : Reduced segments) :
    cleanPath (pathOf segments) = pathOf segments := by
  rw [cleanPath_of_isAbsolute (isAbsolute_pathOf segments)]
  unfold normalized
  rw [foldl_pushSegment_splitOn_pathOf h.separated, foldl_pushSegment_reduced h,
    List.reverse_reverse]

/-! ## Resolving -/

theorem beforeLastSlash_append {before name : PathText} (h : '/' ∉ name) :
    beforeLastSlash (before ++ '/' :: name) = before := by
  have hname : ∀ c, c ∈ name.reverse → decide (c ≠ '/') = true := by
    intro c hc
    refine decide_eq_true fun heq => h ?_
    rw [← heq]
    exact List.mem_reverse.mp hc
  unfold beforeLastSlash
  rw [List.reverse_append, List.reverse_cons, List.append_assoc,
    List.dropWhile_append_of_pos hname]
  simp

/-- What is left of a clean path without its last segment. -/
theorem truncated_joined (h : Segments.Separated '/' segments) :
    truncated (Segments.joined '/' segments) = Segments.joined '/' segments.dropLast := by
  rcases List.eq_nil_or_concat segments with rfl | ⟨before, name, rfl⟩
  · rfl
  · rw [List.concat_eq_append] at h ⊢
    rw [List.dropLast_concat, Segments.joined_append, Segments.joined_cons, Segments.joined_nil,
      List.append_nil]
    unfold truncated
    rw [if_pos (List.mem_append_right _ List.mem_cons_self),
      beforeLastSlash_append (h name (List.mem_append_right _ (List.mem_singleton_self name)))]

theorem intercalate_cons_cons (s t : PathText) (segments : List PathText) :
    ['/'].intercalate (s :: t :: segments) = s ++ '/' :: ['/'].intercalate (t :: segments) :=
  rfl

theorem intercalate_singleton (s : PathText) : ['/'].intercalate [s] = s := by
  simp

/-- A text that starts with a name goes up no further. -/
theorem goUp_names (h : ∀ s, s ∈ names → IsName s) (r : PathText) :
    goUp r (['/'].intercalate names) = (r, ['/'].intercalate names) := by
  have hnoSlash : ∀ {text : PathText}, '.' :: '.' :: '/' :: text ≠ ['/'].intercalate names := by
    intro text heq
    cases names with
    | nil => cases heq
    | cons s names =>
        have hs := h s List.mem_cons_self
        have hhead : ∃ rest, s ++ rest = '.' :: '.' :: '/' :: text ∧
            (rest = [] ∨ rest.head? = some '/') := by
          cases names with
          | nil => exact ⟨[], by rw [heq, intercalate_singleton, List.append_nil], Or.inl rfl⟩
          | cons t names => exact ⟨_, heq.symm, Or.inr rfl⟩
        rcases hhead with ⟨rest, heq, hrest⟩
        match s, hs with
        | [], hs => exact hs.nonempty rfl
        | [a], hs =>
            cases heq
            exact hs.notDot rfl
        | [a, b], hs =>
            cases heq
            exact hs.notDotDot rfl
        | a :: b :: c :: s, hs =>
            cases heq
            exact hs.noSlash (by simp)
  unfold goUp
  split
  · rename_i heq
    exact absurd heq.symm hnoSlash
  · rw [if_neg]
    intro heq
    cases names with
    | nil => cases heq
    | cons s names =>
        have hs := h s List.mem_cons_self
        cases names with
        | nil =>
            rw [intercalate_singleton] at heq
            exact hs.notDotDot heq
        | cons t names =>
            rw [intercalate_cons_cons] at heq
            exact slash_notMem_dotDot (by
              rw [← heq]
              exact List.mem_append_right _ List.mem_cons_self)

/-- Each segment that goes up takes one segment away, as long as there are any. -/
theorem goUp_intercalate {ups : List PathText} (hsegments : Segments.Separated '/' segments)
    (hups : ∀ s, s ∈ ups → s = dotDot) (hnames : ∀ s, s ∈ names → IsName s) :
    goUp (Segments.joined '/' segments) (['/'].intercalate (ups ++ names)) =
      (Segments.joined '/' (segments.take (segments.length - ups.length)),
        ['/'].intercalate names) := by
  induction ups generalizing segments with
  | nil =>
      rw [List.nil_append, goUp_names hnames, List.length_nil, Nat.sub_zero, List.take_length]
  | cons u ups ih =>
      have hu : u = dotDot := hups u List.mem_cons_self
      have hdrop : Segments.Separated '/' segments.dropLast :=
        fun s hs => hsegments s (List.dropLast_subset segments hs)
      have htake : segments.dropLast.take (segments.dropLast.length - ups.length) =
          segments.take (segments.length - (u :: ups).length) := by
        rw [List.dropLast_eq_take, List.take_take, List.length_take, List.length_cons]
        congr 1
        omega
      rw [hu, List.cons_append]
      cases hrest : ups ++ names with
      | nil =>
          rcases List.append_eq_nil_iff.mp hrest with ⟨rfl, rfl⟩
          rw [intercalate_singleton]
          change (truncated (Segments.joined '/' segments), _) = _
          rw [truncated_joined hsegments, List.dropLast_eq_take]
          rfl
      | cons s rest =>
          rw [intercalate_cons_cons, ← hrest]
          change goUp (truncated (Segments.joined '/' segments)) _ = _
          rw [truncated_joined hsegments,
            ih hdrop fun s hs => hups s (List.mem_cons_of_mem u hs), htake, hu]

/-- The last segment of a path does not end with a slash. -/
theorem getLast?_joined (h : Reduced segments) :
    (Segments.joined '/' segments).getLast? ≠ some '/' := by
  rcases List.eq_nil_or_concat segments with rfl | ⟨before, name, rfl⟩
  · simp
  · rw [List.concat_eq_append] at h ⊢
    have hmem : name ∈ before ++ [name] := List.mem_append_right _ (List.mem_singleton_self name)
    rw [Segments.joined_append, Segments.joined_cons, Segments.joined_nil, List.append_nil]
    intro hlast
    rcases List.eq_nil_or_concat name with rfl | ⟨init, c, rfl⟩
    · exact h.ne_nil hmem rfl
    · rw [List.concat_eq_append] at h hlast hmem
      rw [← List.cons_append, ← List.append_assoc, List.getLast?_concat] at hlast
      cases hlast
      exact h.separated _ hmem (List.mem_append_right _ (List.mem_singleton_self _))

/-- The path of a directory without a slash at its end. -/
theorem pathOf_chop (h : Reduced segments) :
    (if (pathOf segments).getLast? = some '/' then (pathOf segments).dropLast
      else pathOf segments) = Segments.joined '/' segments := by
  by_cases hnil : segments = []
  · rw [hnil]
    rfl
  · rw [pathOf, if_neg hnil, if_neg (getLast?_joined h)]

theorem intercalate_eq_iff {text : PathText} (htext : '/' ∉ text) :
    ['/'].intercalate (s :: segments) = text ↔ segments = [] ∧ s = text := by
  cases segments with
  | nil =>
      rw [intercalate_singleton]
      exact ⟨fun h => ⟨rfl, h⟩, And.right⟩
  | cons t segments =>
      rw [intercalate_cons_cons]
      constructor
      · intro h
        refine absurd ?_ htext
        rw [← h]
        exact List.mem_append_right _ List.mem_cons_self
      · rintro ⟨h, -⟩
        cases h

/-- Segments of which the first one is given. -/
theorem prefix_intercalate_iff {text : PathText} (hs : '/' ∉ s) (htext : '/' ∉ text) :
    text ++ ['/'] <+: ['/'].intercalate (s :: segments) ↔ segments ≠ [] ∧ s = text := by
  cases segments with
  | nil =>
      rw [intercalate_singleton]
      constructor
      · intro h
        exact absurd (h.subset (List.mem_append_right _ (List.mem_singleton_self '/'))) hs
      · rintro ⟨h, -⟩
        exact absurd rfl h
  | cons t segments =>
      rw [intercalate_cons_cons]
      constructor
      · rintro ⟨rest, h⟩
        have hsplit := congrArg (List.splitOn '/') h
        rw [List.append_assoc, List.singleton_append, List.splitOn_append_cons_self,
          List.splitOn_append_cons_self, List.splitOn_eq_singleton hs,
          List.splitOn_eq_singleton htext] at hsplit
        exact ⟨List.cons_ne_nil t segments, (List.cons.inj hsplit).1.symm⟩
      · rintro ⟨-, rfl⟩
        exact ⟨['/'].intercalate (t :: segments), by simp⟩

theorem joined_eq_intercalate (h : segments ≠ []) :
    Segments.joined '/' segments = '/' :: ['/'].intercalate segments := by
  induction segments with
  | nil => exact absurd rfl h
  | cons s segments ih =>
      cases segments with
      | nil => simp
      | cons t segments =>
          rw [Segments.joined_cons, ih (List.cons_ne_nil t segments), intercalate_cons_cons]

/-- A text stands for a directory; the root directory may be empty. -/
def Denotes (text : PathText) (segments : List PathText) : Prop :=
  text = Segments.joined '/' segments ∨ text = pathOf segments

/-- What a cleaned path that is not absolute stands for below a clean one: a directory, or a path
that starts with two slashes if the path is below the home directory and that is the root. -/
theorem resolvePath_cleanPath {home source : List PathText} (hhome : ∀ s, s ∈ home → IsName s)
    (hsource : ∀ s, s ∈ source → IsName s) {rel : PathText} (hrel : isAbsolute rel = false)
    (hne : rel ≠ []) :
    ∃ base, (∀ s, s ∈ base → IsName s) ∧
      (Denotes (resolvePath (pathOf home) (pathOf source) (cleanPath rel)) base ∨
        base ≠ [] ∧ resolvePath (pathOf home) (pathOf source) (cleanPath rel) =
          '/' :: Segments.joined '/' base) := by
  have habs : (!isAbsolute (pathOf source)) = false := by rw [isAbsolute_pathOf]; rfl
  unfold cleanPath
  rw [if_neg hne, if_neg (by rw [hrel]; decide)]
  have hseparated : Segments.Separated '/' (rel.splitOn '/') := Segments.separated_splitOn rel
  have hreduced := reduced_normalized hseparated
  generalize normalized (rel.splitOn '/') = segments at *
  split_ifs with hnil
  · -- The directory itself.
    refine ⟨source, hsource, Or.inl (Or.inr ?_)⟩
    unfold resolvePath
    rw [if_neg (by rw [habs]; decide), if_neg (by decide), if_pos rfl]
  · cases segments with
    | nil => exact absurd rfl hnil
    | cons s segments =>
        have hs : '/' ∉ s := hreduced.separated s List.mem_cons_self
        have hrelative : isAbsolute (['/'].intercalate (s :: segments)) = false := by
          have hsne := hreduced.ne_nil (List.mem_cons_self (a := s))
          cases s with
          | nil => exact absurd rfl hsne
          | cons c s =>
              have hc : c ≠ '/' := fun h => hs (h ▸ List.mem_cons_self)
              cases segments <;> simp [isAbsolute, hc]
        have hnotDot : s ≠ ['.'] := hreduced.ne_dot List.mem_cons_self
        unfold resolvePath
        rw [if_neg (by rw [habs]; decide), if_neg (by rw [hrelative]; decide),
          if_neg (fun h => hnotDot ((intercalate_eq_iff (by decide)).mp h).2)]
        dsimp only
        rw [pathOf_chop (Reduced.of_names hsource)]
        rcases hreduced.split with ⟨ups, names, heq, hups, hnames⟩
        have hgoUp := goUp_intercalate (Reduced.of_names hsource).separated hups hnames
        rw [← heq] at hgoUp
        split_ifs with hhomeItself hbelowHome hparts
        · exact ⟨home, hhome, Or.inl (Or.inr rfl)⟩
        · -- The first segment is no name of a directory and stands for the home directory.
          rw [List.isPrefixOf_iff_prefix] at hbelowHome
          have hfirst : segments ≠ [] ∧ s = ['~'] :=
            (prefix_intercalate_iff hs (by decide)).mp hbelowHome
          rcases hfirst with ⟨hmore, rfl⟩
          have hsegments : ∀ t, t ∈ segments → IsName t := by
            intro t ht
            cases ups with
            | nil =>
                rw [List.nil_append] at heq
                refine hnames t ?_
                rw [← heq]
                exact List.mem_cons_of_mem _ ht
            | cons u ups =>
                cases heq
                exact absurd (hups _ List.mem_cons_self) (by decide)
          have hrest : (['/'].intercalate (['~'] :: segments)).drop 1 =
              Segments.joined '/' segments := by
            cases segments with
            | nil => exact absurd rfl hmore
            | cons t segments =>
                rw [joined_eq_intercalate hmore]
                rfl
          rw [hrest]
          by_cases hroot : home = []
          · refine ⟨segments, hsegments, Or.inr ⟨hmore, ?_⟩⟩
            rw [hroot]
            rfl
          · refine ⟨home ++ segments, fun t ht => ?_, Or.inl (Or.inl ?_)⟩
            · rcases List.mem_append.mp ht with ht | ht
              · exact hhome t ht
              · exact hsegments t ht
            · rw [Segments.joined_append, pathOf, if_neg hroot]
        · rw [hgoUp]
          exact ⟨_, fun t ht => hsource t (List.mem_of_mem_take ht), Or.inl (Or.inl rfl)⟩
        · rw [hgoUp] at hparts ⊢
          have hmore : names ≠ [] := by
            rintro rfl
            exact hparts rfl
          refine ⟨source.take (source.length - ups.length) ++ names, fun t ht => ?_,
            Or.inl (Or.inl ?_)⟩
          · rcases List.mem_append.mp ht with ht | ht
            · exact hsource t (List.mem_of_mem_take ht)
            · exact hnames t ht
          · rw [Segments.joined_append, joined_eq_intercalate hmore]

theorem components_joined (h : ∀ s, s ∈ segments → IsName s) :
    components (Segments.joined '/' segments) = segments := by
  have hreduced := Reduced.of_names h
  unfold components
  rw [Segments.splitOn_joined hreduced.separated, List.filter_cons_of_neg (by simp),
    List.filter_eq_self]
  intro s hs
  exact decide_eq_true (h s hs).nonempty

theorem components_of_denotes {text : PathText} (hnames : ∀ s, s ∈ segments → IsName s)
    (h : Denotes text segments) :
    components text = segments := by
  rcases h with rfl | rfl
  · exact components_joined hnames
  · exact components_pathOf (Reduced.of_names hnames)

/-- What is left of a path below a directory after that and one slash. -/
theorem drop_of_denotes {text : PathText} (h : Denotes text segments) (hreduced : Reduced segments)
    (rest : PathText) :
    (Segments.joined '/' segments ++ '/' :: rest).drop
        (text.length + if text.getLast? = some '/' then 0 else 1) = rest := by
  have hjoined : text = Segments.joined '/' segments →
      (Segments.joined '/' segments ++ '/' :: rest).drop
        (text.length + if text.getLast? = some '/' then 0 else 1) = rest := by
    intro htext
    rw [htext, if_neg (getLast?_joined hreduced), List.drop_append]
    simp
  rcases h with htext | htext
  · exact hjoined htext
  · by_cases hnil : segments = []
    · rw [htext, hnil]
      rfl
    · exact hjoined (htext.trans (if_neg hnil))

theorem components_slash (text : PathText) : components ('/' :: text) = components text := by
  unfold components
  rw [List.splitOn_cons_eq_if_modifyHead, if_pos (beq_self_eq_true _),
    List.filter_cons_of_neg (by simp)]

/-- An absolute clean path. -/
structure CleanPath where
  segments : List PathText
  names : ∀ s, s ∈ segments → IsName s

namespace CleanPath

theorem names_nil : ∀ s, s ∈ ([] : List PathText) → IsName s :=
  fun _ hs => absurd hs List.not_mem_nil

def text (path : CleanPath) : PathText :=
  pathOf path.segments

theorem reduced (path : CleanPath) : Reduced path.segments :=
  Reduced.of_names path.names

theorem separated (path : CleanPath) : Segments.Separated '/' path.segments :=
  path.reduced.separated

@[simp]
theorem components_text (path : CleanPath) : components path.text = path.segments :=
  components_pathOf path.reduced

@[simp]
theorem cleanPath_text (path : CleanPath) : cleanPath path.text = path.text :=
  cleanPath_pathOf path.reduced

theorem text_injective {p q : CleanPath} (h : p.text = q.text) : p = q := by
  have hsegments := pathOf_injective p.reduced q.reduced h
  cases p
  cases q
  cases hsegments
  rfl

end CleanPath

end FileInfo

end Qbs
