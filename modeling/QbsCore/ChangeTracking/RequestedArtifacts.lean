import Mathlib.Data.Fintype.EquivFin
import QbsCore.ChangeTracking.Tracker

/-!
# Uniting records of requested artifacts

Each command of a transformer leaves a record of what it has requested from the artifacts
maps of products.  The records of all commands are united into the one of the transformer,
product by product, and later compared with the current state of the project.

Main results:

- Definition {lit}`RequestedArtifacts.unite`: the union of two records.
- Theorem {lit}`RequestedArtifacts.recordedIn_of_reads`: what the record of a command says.
- Theorem {lit}`RequestedArtifacts.unite_tracks_iff`: when the union is up to date exactly when
  both records are.

Current gaps:

- A script is given by its accesses to artifacts maps.
-/

namespace Qbs

/-! ## Union -/

namespace RequestedArtifactsPerProduct

/-- Unite what was read of one product. -/
def unite (ra other : RequestedArtifactsPerProduct) : RequestedArtifactsPerProduct :=
  if ra.allTags.isEmpty then other
  else
    { ra with
      allTags := other.allTags
      requestedTags :=
        AssocMap.modifyAll ra.requestedTags ∅ (fun filePaths _ => filePaths) other.requestedTags }

end RequestedArtifactsPerProduct

namespace RequestedArtifacts

/-- Unite two records product by product. -/
def unite (r other : RequestedArtifacts) : RequestedArtifacts :=
  AssocMap.modifyAll r default (fun rb ra => RequestedArtifactsPerProduct.unite ra rb) other

/-- The union has the union of the entries. -/
theorem lookup_unite (a b : RequestedArtifacts) (p : ProductId) :
    (a.unite b).lookup p =
      (b.lookup p).elim (a.lookup p) fun rb => some (((a.lookup p).getD default).unite rb) :=
  AssocMap.lookup_modifyAll a default _ b p

end RequestedArtifacts

/-! ## The record of a command -/

/-- What a script does with the artifacts map of a product: ask for a tag, or enumerate it. -/
inductive ArtifactsUse where
  | ask (tag : FileTag)
  | enumerate

/-- One access of a script to the artifacts map of a product, with what it does with the map. -/
structure MapRead where
  product : ProductId
  forceUpdate : Bool
  uses : List ArtifactsUse

/-- A tag for which the map offers nothing counts as one that does not exist. -/
def ArtifactsUse.access (g : BuildGraph) (product : ProductId) : ArtifactsUse → Access
  | .ask tag =>
      if tag ∈ g.visibleTags product then .artifactsForTag product tag
      else .nonExistingTag product tag
  | .enumerate => .artifactsEnumerated product

theorem ArtifactsUse.access_ask_of_mem {g : BuildGraph} {product : ProductId} {tag : FileTag}
    (h : tag ∈ g.visibleTags product) :
    (ArtifactsUse.ask tag).access g product = .artifactsForTag product tag :=
  if_pos h

theorem ArtifactsUse.access_ask_of_not_mem {g : BuildGraph} {product : ProductId} {tag : FileTag}
    (h : tag ∉ g.visibleTags product) :
    (ArtifactsUse.ask tag).access g product = .nonExistingTag product tag :=
  if_neg h

/-- What the engine observes of an access to an artifacts map. -/
def MapRead.accesses (g : BuildGraph) (r : MapRead) : List (BuildGraph × Access) :=
  (g, .artifactsMap r.product r.forceUpdate) ::
    r.uses.map fun u => (g, u.access g r.product)

namespace RequestedArtifacts

/-- The files that are recorded for a tag. -/
def recordedFiles (g : BuildGraph) (product : ProductId) (tag : FileTag) : SortedSet FilePath :=
  if tag ∈ g.visibleTags product then g.filePathsForTag product tag else ∅

/-- A record that was made in a state of the products. -/
structure RecordedIn (g : BuildGraph) (r : RequestedArtifacts) : Prop where
  productData : ∀ p ra, r.lookup p = some ra → g.productData p ≠ none
  allTags : ∀ p ra, r.lookup p = some ra → ra.allTags = g.artifactTags p
  filePaths : ∀ p ra, r.lookup p = some ra → ∀ tag fs,
    ra.requestedTags.lookup tag = some fs → fs = recordedFiles g p tag

variable {g : BuildGraph} {a b r : RequestedArtifacts} {p : ProductId}

/-- Registering the tags of a product in one state can only lead to its tags. -/
theorem registerTags_cases (g : BuildGraph) (p : ProductId) (tags : SortedSet FileTag)
    (access : Access) :
    Access.registerTags p tags (g, access) = tags ∨
      Access.registerTags p tags (g, access) = g.artifactTags p := by
  cases access with
  | artifactsMap q forceUpdate =>
      show (if _ then g.artifactTags p else tags) = tags ∨ (if _ then g.artifactTags p else tags) = _
      split
      · exact Or.inr rfl
      · exact Or.inl rfl
  | _ => exact Or.inl rfl

theorem registerTags_map (g : BuildGraph) (p : ProductId) {tags : SortedSet FileTag}
    (htags : tags = ∅ ∨ tags = g.artifactTags p) (forceUpdate : Bool) :
    Access.registerTags p tags (g, .artifactsMap p forceUpdate) = g.artifactTags p := by
  show (if p = p ∧ (tags.isEmpty = true ∨ forceUpdate = true) then g.artifactTags p else tags) = _
  rcases htags with h | h
  · exact if_pos ⟨rfl, Or.inl (SortedSet.isEmpty_iff.mpr h)⟩
  · split
    · rfl
    · exact h

/-- After an access to the artifacts map of a product, its tags are registered. -/
theorem registerTags_foldl {accesses : List Access} {tags : SortedSet FileTag}
    (htags : tags = ∅ ∨ tags = g.artifactTags p)
    (h : tags = g.artifactTags p ∨ ∃ forceUpdate, .artifactsMap p forceUpdate ∈ accesses) :
    (accesses.map fun access => (g, access)).foldl (Access.registerTags p) tags =
      g.artifactTags p := by
  induction accesses generalizing tags with
  | nil => exact h.resolve_right fun h => List.not_mem_nil h.choose_spec
  | cons access accesses ih =>
      rw [List.map_cons, List.foldl_cons]
      have hcases := registerTags_cases g p tags access
      have htags' : Access.registerTags p tags (g, access) = ∅ ∨
          Access.registerTags p tags (g, access) = g.artifactTags p := by
        rcases hcases with h' | h'
        · rw [h']
          exact htags
        · exact Or.inr h'
      apply ih htags'
      rcases h with h | ⟨forceUpdate, hmem⟩
      · rw [h] at hcases ⊢
        exact Or.inl (hcases.elim id id)
      · rcases List.mem_cons.mp hmem with rfl | hmem
        · exact Or.inl (registerTags_map g p htags forceUpdate)
        · exact Or.inr ⟨forceUpdate, hmem⟩

/-- All accesses of a script to artifacts maps. -/
def mapAccesses (g : BuildGraph) (reads : List MapRead) : List Access :=
  reads.flatMap fun r =>
    .artifactsMap r.product r.forceUpdate :: r.uses.map fun u => u.access g r.product

theorem accesses_eq (g : BuildGraph) (reads : List MapRead) :
    reads.flatMap (MapRead.accesses g) = (mapAccesses g reads).map fun access => (g, access) := by
  unfold mapAccesses
  induction reads with
  | nil => rfl
  | cons r reads ih =>
      rw [List.flatMap_cons, List.flatMap_cons, List.map_append, ← ih]
      simp [MapRead.accesses]

variable {reads : List MapRead}

/-- An access to what a product has comes with one to its artifacts map. -/
theorem mapAccess_of_concerns {access : Access} (hmem : access ∈ mapAccesses g reads)
    (hp : Access.concernsArtifactsOf p (g, access)) :
    ∃ r, r ∈ reads ∧ r.product = p := by
  unfold mapAccesses at hmem
  rw [List.mem_flatMap] at hmem
  rcases hmem with ⟨r, hr, hmem⟩
  refine ⟨r, hr, ?_⟩
  rcases List.mem_cons.mp hmem with rfl | hmem
  · exact hp
  · rcases List.mem_map.mp hmem with ⟨u, -, rfl⟩
    cases u with
    | ask tag =>
        by_cases ht : tag ∈ g.visibleTags r.product
        · rw [ArtifactsUse.access_ask_of_mem ht] at hp
          exact hp
        · rw [ArtifactsUse.access_ask_of_not_mem ht] at hp
          exact hp
    | enumerate => exact hp

/-- A request for a tag is recorded as what it finds. -/
def FindsTag (g : BuildGraph) : Access → Prop
  | .artifactsForTag product tag => tag ∈ g.visibleTags product
  | .nonExistingTag product tag => tag ∉ g.visibleTags product
  | _ => True

theorem findsTag_of_mem {access : Access} (hmem : access ∈ mapAccesses g reads) :
    FindsTag g access := by
  unfold mapAccesses at hmem
  rw [List.mem_flatMap] at hmem
  rcases hmem with ⟨r, -, hmem⟩
  rcases List.mem_cons.mp hmem with rfl | hmem
  · trivial
  · rcases List.mem_map.mp hmem with ⟨u, -, rfl⟩
    cases u with
    | ask t =>
        by_cases ht : t ∈ g.visibleTags r.product
        · rw [ArtifactsUse.access_ask_of_mem ht]
          exact ht
        · rw [ArtifactsUse.access_ask_of_not_mem ht]
          exact ht
    | enumerate => trivial

/-- The record of a command says what the artifacts maps had to offer. -/
theorem recordedIn_of_reads {e : ScriptEngine}
    (hdata : ∀ r, r ∈ reads → g.productData r.product ≠ none)
    (h : (reads.flatMap (MapRead.accesses g)).foldlM ScriptEngine.observe .cleared = .ok e) :
    RecordedIn g e.requestedArtifacts := by
  rw [accesses_eq] at h
  have hnotes := (ScriptEngine.notes_foldlM_observe h).artifacts
  have hread (p : ProductId) (ra : RequestedArtifactsPerProduct)
      (hra : e.requestedArtifacts.lookup p = some ra) : ∃ r, r ∈ reads ∧ r.product = p := by
    rcases (hnotes.artifactsMap p).mp ⟨ra, hra⟩ with ⟨ra₀, hra₀⟩ | ⟨access, hmem, hconcerns⟩
    · cases hra₀
    · rcases List.mem_map.mp hmem with ⟨access', hmem', rfl⟩
      exact mapAccess_of_concerns hmem' hconcerns
  have hperProduct (p : ProductId) (ra : RequestedArtifactsPerProduct)
      (hra : e.requestedArtifacts.lookup p = some ra) : e.requestedArtifacts.perProduct p = ra := by
    unfold perProduct
    rw [hra]
    rfl
  refine ⟨fun p ra hra => ?_, fun p ra hra => ?_, fun p ra hra tag fs hfs => ?_⟩
  · rcases hread p ra hra with ⟨r, hr, hp⟩
    exact hp ▸ hdata r hr
  · rcases hread p ra hra with ⟨r, hr, hp⟩
    rw [← hperProduct p ra hra, hnotes.allTags]
    refine registerTags_foldl (Or.inl rfl) (Or.inr ⟨r.forceUpdate, ?_⟩)
    exact List.mem_flatMap.mpr ⟨r, hr, hp ▸ List.mem_cons_self⟩
  · have hfiles : e.requestedArtifacts.requestedFilePaths p tag = fs := by
      unfold requestedFilePaths
      rw [hperProduct p ra hra, hfs]
      rfl
    have hmem (f : FilePath) : f ∈ fs ↔ .artifactsForTag p tag ∈ mapAccesses g reads ∧
        f ∈ g.filePathsForTag p tag := by
      rw [← hfiles, hnotes.filePaths]
      simp [ScriptEngine.cleared, requestedFilePaths, perProduct, default]
    have hasked := (hnotes.tags p tag).mp ⟨fs, by rw [hperProduct p ra hra]; exact hfs⟩
    unfold recordedFiles
    ext f
    rw [hmem]
    split <;> rename_i hvisible
    · refine and_iff_right ?_
      rcases hasked with ⟨fs₀, hfs₀⟩ | ⟨access, haccess, hasks⟩
      · cases hfs₀
      · rcases List.mem_map.mp haccess with ⟨access', haccess', rfl⟩
        cases access' with
        | artifactsForTag q t =>
            rcases hasks with ⟨rfl, rfl⟩
            exact haccess'
        | nonExistingTag q t =>
            rcases hasks with ⟨rfl, rfl⟩
            exact absurd hvisible (findsTag_of_mem haccess')
        | _ => exact absurd hasks id
    · constructor
      · exact fun h => absurd (findsTag_of_mem h.1) hvisible
      · exact fun h => absurd h (SortedSet.not_mem_empty f)

end RequestedArtifacts

namespace BuildGraph

variable {g : BuildGraph} {p : ProductId} {tag : FileTag}

/-- No file tag map has an entry without artifacts. -/
def NoEmptyEntries (g : BuildGraph) : Prop :=
  ∀ p d, g.productData p = some d → d.artifactsByFileTag.NoEmptyEntries

theorem mem_artifactTags_iff_lookup :
    tag ∈ g.artifactTags p ↔
      ∃ d s, g.productData p = some d ∧ d.artifactsByFileTag.lookup tag = some s := by
  unfold artifactTags
  cases hd : g.productData p with
  | none => simp
  | some d =>
      dsimp only
      rw [SortedSet.mem_ofList, ← AList.mem_keys, ← AList.lookup_isSome, Option.isSome_iff_exists]
      simp

theorem filePathsForTag_of_not_mem (h : tag ∉ g.artifactTags p) : g.filePathsForTag p tag = ∅ := by
  have hnone : g.lookupArtifactsByFileTag p tag = ∅ := by
    unfold lookupArtifactsByFileTag ArtifactSetByFileTag.value
    cases hd : g.productData p with
    | none => rfl
    | some d =>
        cases hs : d.artifactsByFileTag.lookup tag with
        | none => simp [hs]
        | some s => exact absurd (mem_artifactTags_iff_lookup.mpr ⟨d, s, hd, hs⟩) h
  unfold filePathsForTag
  rw [hnone]
  rfl

/-- A product has files for all of its tags. -/
theorem filePathsForTag_ne_empty (hg : g.NoEmptyEntries) (h : tag ∈ g.artifactTags p) :
    g.filePathsForTag p tag ≠ ∅ := by
  rcases mem_artifactTags_iff_lookup.mp h with ⟨d, s, hd, hs⟩
  have hlookup : g.lookupArtifactsByFileTag p tag = s := by
    unfold lookupArtifactsByFileTag ArtifactSetByFileTag.value
    simp [hd, hs]
  have hempty : s.isEmpty = false := by
    rw [← Bool.not_eq_true, SortedSet.isEmpty_iff]
    exact hg p d hd tag s hs
  rcases SortedSet.isEmpty_eq_false_iff.mp hempty with ⟨a, ha⟩
  intro hnone
  have hmem : (g.artifact a).filePath ∈ g.filePathsForTag p tag := by
    unfold filePathsForTag
    rw [hlookup, SortedSet.mem_ofList]
    exact List.mem_map_of_mem ha
  rw [hnone] at hmem
  exact SortedSet.not_mem_empty _ hmem

end BuildGraph

namespace RequestedArtifactsPerProduct

variable {ra rb : RequestedArtifactsPerProduct} {g : BuildGraph} {p : ProductId}

/-- Two records of one product that were made in the same state. -/
structure Together (ra rb : RequestedArtifactsPerProduct) : Prop where
  allTags : rb.allTags = ra.allTags
  agree : ∀ tag fs fs', ra.requestedTags.lookup tag = some fs →
    rb.requestedTags.lookup tag = some fs' → fs = fs'
  noFiles : ra.allTags = ∅ → ∀ tag fs, ra.requestedTags.lookup tag = some fs → fs = ∅

theorem unite_of_empty (h : ra.allTags = ∅) : ra.unite rb = rb :=
  if_pos (SortedSet.isEmpty_iff.mpr h)

theorem unite_of_ne_empty (h : ra.allTags ≠ ∅) :
    ra.unite rb = { ra with
      allTags := rb.allTags
      requestedTags :=
        AssocMap.modifyAll ra.requestedTags ∅ (fun filePaths _ => filePaths) rb.requestedTags } :=
  if_neg fun hempty => h (SortedSet.isEmpty_iff.mp hempty)

/-- The union of two records of a product with tags has the requested tags of both. -/
theorem unite_requestedTags (h : Together ra rb) (hne : ra.allTags ≠ ∅) {tag : FileTag}
    {fs : SortedSet FilePath} :
    (ra.unite rb).requestedTags.lookup tag = some fs ↔
      ra.requestedTags.lookup tag = some fs ∨ rb.requestedTags.lookup tag = some fs := by
  rw [unite_of_ne_empty hne]
  dsimp only
  rw [AssocMap.lookup_modifyAll]
  cases hb : rb.requestedTags.lookup tag with
  | none => simp
  | some fs' =>
      simp only [Option.elim_some, Option.some.injEq]
      constructor
      · exact Or.inr
      · rintro (ha | heq)
        · exact (h.agree tag fs fs' ha hb).symm
        · exact heq

/-- The condition under which nothing is lost in the union of two records of a product. -/
def Survives (ra rb : RequestedArtifactsPerProduct) : Prop :=
  if ra.allTags = ∅ then
    (ra.artifactsEnumerated = true → rb.artifactsEnumerated = true) ∧
      (rb.artifactsEnumerated = true ∨ ∀ tag, tag ∈ ra.requestedTags → tag ∈ rb.requestedTags)
  else rb.artifactsEnumerated = true → ra.artifactsEnumerated = true

/-- If nothing is lost, the union is up to date exactly if both records are. -/
theorem unite_isUpToDate_iff (h : Together ra rb) (hsurvives : Survives ra rb) :
    (ra.unite rb).isUpToDate g p = true ↔
      ra.isUpToDate g p = true ∧ rb.isUpToDate g p = true := by
  unfold Survives at hsurvives
  by_cases hempty : ra.allTags = ∅
  · rw [unite_of_empty hempty]
    rw [if_pos hempty] at hsurvives
    refine ⟨fun hb => ⟨?_, hb⟩, And.right⟩
    rw [TrackingContext.perProduct_isUpToDate_iff] at hb ⊢
    rcases hb with ⟨hdata, htags, henum⟩
    refine ⟨hdata, fun tag fs hfs => ?_, fun ha => ?_⟩
    · have hnone := h.noFiles hempty tag fs hfs
      rcases hsurvives.2 with hb | hsub
      · have htag : tag ∉ g.artifactTags p := by
          rw [henum hb, h.allTags, hempty]
          exact SortedSet.not_mem_empty tag
        rw [BuildGraph.filePathsForTag_of_not_mem htag, hnone]
      · have hmem := hsub tag (AList.lookup_isSome.mp (by rw [hfs]; rfl))
        rcases Option.isSome_iff_exists.mp (AList.lookup_isSome.mpr hmem) with ⟨fs', hfs'⟩
        rw [htags tag fs' hfs', h.agree tag fs fs' hfs hfs']
    · rw [henum (hsurvives.1 ha), h.allTags]
  · rw [if_neg hempty] at hsurvives
    simp only [TrackingContext.perProduct_isUpToDate_iff, unite_requestedTags h hempty]
    rw [unite_of_ne_empty hempty]
    dsimp only
    constructor
    · rintro ⟨hdata, htags, henum⟩
      refine ⟨⟨hdata, fun tag fs hfs => htags tag fs (Or.inl hfs), fun ha => ?_⟩, hdata,
        fun tag fs hfs => htags tag fs (Or.inr hfs), fun hb => henum (hsurvives hb)⟩
      rw [henum ha, h.allTags]
    · rintro ⟨⟨hdata, ha, henum⟩, -, hb, -⟩
      refine ⟨hdata, fun tag fs hfs => hfs.elim (ha tag fs) (hb tag fs), fun he => ?_⟩
      rw [henum he, h.allTags]

end RequestedArtifactsPerProduct

namespace RequestedArtifacts

variable {g : BuildGraph} {a b r : RequestedArtifacts} {p : ProductId}

/-! ## Records of one state -/

theorem RecordedIn.together (ha : RecordedIn g a) (hb : RecordedIn g b)
    {ra rb : RequestedArtifactsPerProduct} (hra : a.lookup p = some ra)
    (hrb : b.lookup p = some rb) : ra.Together rb where
  allTags := (hb.allTags p rb hrb).trans (ha.allTags p ra hra).symm
  agree tag fs fs' hfs hfs' :=
    (ha.filePaths p ra hra tag fs hfs).trans (hb.filePaths p rb hrb tag fs' hfs').symm
  noFiles hempty tag fs hfs := by
    have hnot : tag ∉ g.visibleTags p := by
      intro hvisible
      have hmem : tag ∈ g.artifactTags p := (SortedSet.mem_filter.mp hvisible).1
      rw [← ha.allTags p ra hra, hempty] at hmem
      exact SortedSet.not_mem_empty tag hmem
    rw [ha.filePaths p ra hra tag fs hfs]
    exact if_neg hnot

/-- The union of records that were made in one state is such a record. -/
theorem RecordedIn.unite (ha : RecordedIn g a) (hb : RecordedIn g b) :
    RecordedIn g (a.unite b) := by
  have hcases : ∀ p r, (a.unite b).lookup p = some r → a.lookup p = some r ∨ b.lookup p = some r ∨
      ∃ ra rb, a.lookup p = some ra ∧ b.lookup p = some rb ∧ ra.allTags ≠ ∅ ∧ r = ra.unite rb := by
    intro p r hr
    rw [lookup_unite] at hr
    cases hrb : b.lookup p with
    | none =>
        rw [hrb] at hr
        exact Or.inl hr
    | some rb =>
        rw [hrb] at hr
        refine Or.inr ?_
        cases hra : a.lookup p with
        | none =>
            rw [hra] at hr
            exact Or.inl ((RequestedArtifactsPerProduct.unite_of_empty rfl).symm.trans
              (Option.some.inj hr) ▸ rfl)
        | some ra =>
            rw [hra] at hr
            by_cases hempty : ra.allTags = ∅
            · exact Or.inl ((RequestedArtifactsPerProduct.unite_of_empty hempty).symm.trans
                (Option.some.inj hr) ▸ rfl)
            · exact Or.inr ⟨ra, rb, rfl, rfl, hempty, (Option.some.inj hr).symm⟩
  refine ⟨fun p r hr => ?_, fun p r hr => ?_, fun p r hr tag fs hfs => ?_⟩
  · rcases hcases p r hr with h | h | ⟨ra, rb, hra, -⟩
    · exact ha.productData p r h
    · exact hb.productData p r h
    · exact ha.productData p ra hra
  · rcases hcases p r hr with h | h | ⟨ra, rb, hra, hrb, hne, rfl⟩
    · exact ha.allTags p r h
    · exact hb.allTags p r h
    · rw [RequestedArtifactsPerProduct.unite_of_ne_empty hne]
      exact hb.allTags p rb hrb
  · rcases hcases p r hr with h | h | ⟨ra, rb, hra, hrb, hne, rfl⟩
    · exact ha.filePaths p r h tag fs hfs
    · exact hb.filePaths p r h tag fs hfs
    · rw [RequestedArtifactsPerProduct.unite_requestedTags (ha.together hb hra hrb) hne] at hfs
      rcases hfs with h | h
      · exact ha.filePaths p ra hra tag fs h
      · exact hb.filePaths p rb hrb tag fs h

/-- The union tracks what both records track: in every later state of the project, it is up to
date exactly if both records are. -/
def UnionTracks (a b : RequestedArtifacts) : Prop :=
  ∀ (project : Project) (g' : BuildGraph), g'.NoEmptyEntries →
    ((a.unite b).isUpToDate project g' = true ↔
      a.isUpToDate project g' = true ∧ b.isUpToDate project g' = true)

/-- Nothing is lost for any product that occurs in both records. -/
def Survives (a b : RequestedArtifacts) : Prop :=
  ∀ p ra rb, a.lookup p = some ra → b.lookup p = some rb → ra.Survives rb

/-- A record of which the union can never be up to date: the map of a product was enumerated in the
first record that has the product, and one of the records asked for a tag of it for which the map
has only hidden artifacts. -/
def Blocked (a b : RequestedArtifacts) (p : ProductId) : Prop :=
  (∃ r, (a.lookup p).or (b.lookup p) = some r ∧ r.artifactsEnumerated = true) ∧
    ∃ r, (a.lookup p = some r ∨ b.lookup p = some r) ∧
      ∃ tag, tag ∈ r.allTags ∧ r.requestedTags.lookup tag = some ∅

theorem unionTracks_of_survives (ha : RecordedIn g a) (hb : RecordedIn g b)
    (h : Survives a b) : UnionTracks a b := by
  intro project g' _
  simp only [TrackingContext.artifactsMapRequested_isUpToDate_iff]
  rw [← forall_and]
  refine forall_congr' fun p => ?_
  rw [lookup_unite]
  cases hrb : b.lookup p with
  | none => simp
  | some rb =>
      cases hra : a.lookup p with
      | none =>
          have hunite : (default : RequestedArtifactsPerProduct).unite rb = rb :=
            RequestedArtifactsPerProduct.unite_of_empty rfl
          simp [hunite]
      | some ra =>
          have hiff := RequestedArtifactsPerProduct.unite_isUpToDate_iff (g := g') (p := p)
            (ha.together hb hra hrb) (h p ra rb hra hrb)
          simp only [Option.elim_some, Option.getD_some, Option.some.injEq, forall_eq', hiff]
          tauto

/-! ## Records that are never up to date -/

/-- The record of a product that can never be up to date. -/
def NeverUpToDate (r : RequestedArtifacts) (p : ProductId) : Prop :=
  ∃ ra, r.lookup p = some ra ∧ ra.artifactsEnumerated = true ∧
    ∃ tag, tag ∈ ra.allTags ∧ ra.requestedTags.lookup tag = some ∅

theorem NeverUpToDate.not_isUpToDate (h : NeverUpToDate r p) {g' : BuildGraph}
    (hg' : g'.NoEmptyEntries) (project : Project) : ¬r.isUpToDate project g' = true := by
  rw [TrackingContext.artifactsMapRequested_isUpToDate_iff]
  rcases h with ⟨ra, hra, henum, tag, htag, hnone⟩
  intro hup
  have hproduct := TrackingContext.perProduct_isUpToDate_iff.mp (hup p ra hra).2
  have hmem : tag ∈ g'.artifactTags p := by
    rw [hproduct.2.2 henum]
    exact htag
  exact BuildGraph.filePathsForTag_ne_empty hg' hmem (hproduct.2.1 tag ∅ hnone)

theorem blocked_iff (ha : RecordedIn g a) (hb : RecordedIn g b) :
    Blocked a b p ↔ NeverUpToDate (a.unite b) p := by
  unfold Blocked NeverUpToDate
  rw [lookup_unite]
  cases hra : a.lookup p with
  | none =>
      cases hrb : b.lookup p with
      | none => simp
      | some rb =>
          have hunite : (default : RequestedArtifactsPerProduct).unite rb = rb :=
            RequestedArtifactsPerProduct.unite_of_empty rfl
          simp [hunite]
  | some ra =>
      cases hrb : b.lookup p with
      | none => simp
      | some rb =>
          have htogether := ha.together hb hra hrb
          simp only [Option.some_or, Option.some.injEq, exists_eq_left', Option.elim_some,
            Option.getD_some]
          by_cases hempty : ra.allTags = ∅
          · have hempty' : rb.allTags = ∅ := htogether.allTags.trans hempty
            rw [RequestedArtifactsPerProduct.unite_of_empty hempty, hempty']
            constructor
            · rintro ⟨-, r, rfl | rfl, tag, htag, -⟩
              · rw [hempty] at htag
                exact absurd htag (SortedSet.not_mem_empty tag)
              · rw [hempty'] at htag
                exact absurd htag (SortedSet.not_mem_empty tag)
            · rintro ⟨-, tag, htag, -⟩
              exact absurd htag (SortedSet.not_mem_empty tag)
          · simp only [RequestedArtifactsPerProduct.unite_requestedTags htogether hempty]
            rw [RequestedArtifactsPerProduct.unite_of_ne_empty hempty]
            dsimp only
            refine and_congr_right fun _ => ?_
            constructor
            · rintro ⟨r, rfl | rfl, tag, htag, hnone⟩
              · exact ⟨tag, htogether.allTags ▸ htag, Or.inl hnone⟩
              · exact ⟨tag, htag, Or.inr hnone⟩
            · rintro ⟨tag, htag, hnone | hnone⟩
              · exact ⟨ra, Or.inl rfl, tag, htogether.allTags ▸ htag, hnone⟩
              · exact ⟨rb, Or.inr rfl, tag, htag, hnone⟩

/-- Two records of which the union can never be up to date are never both up to date. -/
theorem Blocked.not_both (ha : RecordedIn g a) (hb : RecordedIn g b) (h : Blocked a b p)
    {g' : BuildGraph} (hg' : g'.NoEmptyEntries) (project : Project) :
    ¬(a.isUpToDate project g' = true ∧ b.isUpToDate project g' = true) := by
  simp only [TrackingContext.artifactsMapRequested_isUpToDate_iff]
  rintro ⟨hupA, hupB⟩
  have hup : ∀ r, (a.lookup p = some r ∨ b.lookup p = some r) →
      r.allTags = g.artifactTags p ∧ (∀ tag fs, r.requestedTags.lookup tag = some fs →
        g'.filePathsForTag p tag = fs) ∧
          (r.artifactsEnumerated = true → g'.artifactTags p = r.allTags) := by
    rintro r (hr | hr)
    · exact ⟨ha.allTags p r hr, (TrackingContext.perProduct_isUpToDate_iff.mp (hupA p r hr).2).2⟩
    · exact ⟨hb.allTags p r hr, (TrackingContext.perProduct_isUpToDate_iff.mp (hupB p r hr).2).2⟩
  rcases h with ⟨⟨r, hr, henum⟩, r', hr', tag, htag, hnone⟩
  have hr : a.lookup p = some r ∨ b.lookup p = some r := by
    rcases Option.or_eq_some_iff.mp hr with h | ⟨-, h⟩
    · exact Or.inl h
    · exact Or.inr h
  have hmem : tag ∈ g'.artifactTags p := by
    rw [(hup r hr).2.2 henum, (hup r hr).1, ← (hup r' hr').1]
    exact htag
  exact BuildGraph.filePathsForTag_ne_empty hg' hmem ((hup r' hr').2.1 tag ∅ hnone)

/-! ## A later state in which something lost shows -/

/-- The file tag map of a product in a later state: without the tags that are hidden, if these are
dropped, and perhaps with one more tag. -/
def laterMap (g : BuildGraph) (p : ProductId) (keepHidden : Bool) (extra : Option FileTag)
    (m : ArtifactSetByFileTag) : ArtifactSetByFileTag :=
  let m := if keepHidden then m
    else ((g.artifactTags p).subtract (g.visibleTags p)).elems.foldl (fun m t => m.erase t) m
  match extra with
  | none => m
  | some t => m.add t 0

/-- A later state of the products. -/
def laterGraph (g : BuildGraph) (keepHidden : ProductId → Bool)
    (extra : ProductId → Option FileTag) : BuildGraph :=
  { g with
    productData := fun p => (g.productData p).map fun d =>
      { d with
        artifactsByFileTag := laterMap g p (keepHidden p) (extra p) d.artifactsByFileTag } }

variable {keepHidden : ProductId → Bool} {extra : ProductId → Option FileTag}

theorem laterGraph_noEmptyEntries (hg : g.NoEmptyEntries) :
    (laterGraph g keepHidden extra).NoEmptyEntries := by
  intro p d' hd'
  rcases Option.map_eq_some_iff.mp hd' with ⟨d, hd, rfl⟩
  have hm := hg p d hd
  have hdropped : (if keepHidden p then d.artifactsByFileTag
      else ((g.artifactTags p).subtract (g.visibleTags p)).elems.foldl
        (fun m t => m.erase t) d.artifactsByFileTag : ArtifactSetByFileTag).NoEmptyEntries := by
    split
    · exact hm
    · intro tag s hs
      rw [AssocMap.lookup_foldl_erase] at hs
      split at hs
      · cases hs
      · exact hm tag s hs
  dsimp only
  unfold laterMap
  cases extra p with
  | none => exact hdropped
  | some t => exact hdropped.add t 0

theorem laterGraph_lookup {tag : FileTag} (hextra : extra p ≠ some tag) :
    (laterGraph g keepHidden extra).lookupArtifactsByFileTag p tag =
      if keepHidden p = false ∧ tag ∈ g.artifactTags p ∧ tag ∉ g.visibleTags p then ∅
      else g.lookupArtifactsByFileTag p tag := by
  have hmap (m : ArtifactSetByFileTag) : (laterMap g p (keepHidden p) (extra p) m).value tag =
      if keepHidden p = false ∧ tag ∈ g.artifactTags p ∧ tag ∉ g.visibleTags p then ∅
      else m.value tag := by
    have hdropped : (if keepHidden p then m
        else ((g.artifactTags p).subtract (g.visibleTags p)).elems.foldl
          (fun m t => m.erase t) m : ArtifactSetByFileTag).value tag =
        if keepHidden p = false ∧ tag ∈ g.artifactTags p ∧ tag ∉ g.visibleTags p then ∅
        else m.value tag := by
      cases keepHidden p with
      | true => simp
      | false =>
          have hmem : tag ∈ ((g.artifactTags p).subtract (g.visibleTags p)).elems ↔
              tag ∈ g.artifactTags p ∧ tag ∉ g.visibleTags p := SortedSet.mem_subtract
          simp only [Bool.false_eq_true, if_false, true_and]
          unfold ArtifactSetByFileTag.value
          rw [AssocMap.lookup_foldl_erase]
          simp only [hmem]
          split <;> simp
    rw [← hdropped]
    unfold laterMap
    dsimp only
    cases ht : extra p with
    | none => rfl
    | some t =>
        have hne : tag ≠ t := fun heq => hextra (heq ▸ ht)
        dsimp only
        rw [ArtifactSetByFileTag.value_add, if_neg hne]
  unfold BuildGraph.lookupArtifactsByFileTag laterGraph
  dsimp only
  cases g.productData p with
  | none =>
      dsimp only [Option.map_none]
      split <;> rfl
  | some d => exact hmap d.artifactsByFileTag

theorem laterGraph_filePathsForTag {tag : FileTag} (hextra : extra p ≠ some tag) :
    (laterGraph g keepHidden extra).filePathsForTag p tag =
      if keepHidden p = false ∧ tag ∈ g.artifactTags p ∧ tag ∉ g.visibleTags p then ∅
      else g.filePathsForTag p tag := by
  unfold BuildGraph.filePathsForTag
  rw [laterGraph_lookup hextra]
  split
  · rfl
  · rfl

theorem laterGraph_artifactTags (hkeep : keepHidden p = true) (hextra : extra p = none) :
    (laterGraph g keepHidden extra).artifactTags p = g.artifactTags p := by
  unfold BuildGraph.artifactTags laterGraph laterMap
  dsimp only
  rw [hkeep, hextra]
  cases g.productData p with
  | none => rfl
  | some d => rfl

theorem laterGraph_mem_artifactTags {tag : FileTag} (hextra : extra p = some tag)
    (hdata : g.productData p ≠ none) : tag ∈ (laterGraph g keepHidden extra).artifactTags p := by
  rcases Option.ne_none_iff_exists'.mp hdata with ⟨d, hd⟩
  have hlater : (laterGraph g keepHidden extra).productData p = some
      { d with artifactsByFileTag := laterMap g p (keepHidden p) (extra p) d.artifactsByFileTag } := by
    unfold laterGraph
    dsimp only
    rw [hd]
    rfl
  have hentry : ∃ s, (laterMap g p (keepHidden p) (extra p) d.artifactsByFileTag).lookup tag =
      some s := by
    unfold laterMap
    dsimp only
    rw [hextra]
    exact ⟨_, AList.lookup_insert _⟩
  rcases hentry with ⟨s, hs⟩
  exact BuildGraph.mem_artifactTags_iff_lookup.mpr ⟨_, s, hlater, hs⟩

/-- The tags that a record enumerates. -/
def enumerates (r : RequestedArtifacts) (p : ProductId) : Bool :=
  (r.lookup p).any fun ra => ra.artifactsEnumerated

/-- A record that can be up to date is so in the later state, if the new tag is none it has asked
for in a product that it has not enumerated. -/
theorem laterGraph_isUpToDate (hr : RecordedIn g r) {project : Project} {p₀ : ProductId}
    {newTag : FileTag} (hproject : ∀ p ra, r.lookup p = some ra → project.product? p ≠ none)
    (hpossible : ∀ p, ¬NeverUpToDate r p)
    (hnew : ∀ ra, r.lookup p₀ = some ra → ra.artifactsEnumerated = false ∧
      ra.requestedTags.lookup newTag = none) :
    r.isUpToDate project
      (laterGraph g r.enumerates fun p => if p = p₀ then some newTag else none) = true := by
  rw [TrackingContext.artifactsMapRequested_isUpToDate_iff]
  intro p ra hra
  refine ⟨hproject p ra hra, ?_⟩
  rw [TrackingContext.perProduct_isUpToDate_iff]
  have henumerates : r.enumerates p = ra.artifactsEnumerated := by
    unfold enumerates
    rw [hra]
    rfl
  refine ⟨?_, fun tag fs hfs => ?_, fun henum => ?_⟩
  · intro hnone
    exact hr.productData p ra hra (Option.map_eq_none_iff.mp hnone)
  · have hextra : (if p = p₀ then some newTag else none) ≠ some tag := by
      split <;> rename_i hp
      · intro htag
        rw [hp] at hra
        have hasked := (hnew ra hra).2
        rw [Option.some.inj htag, hfs] at hasked
        cases hasked
      · intro htag
        cases htag
    rw [laterGraph_filePathsForTag hextra, hr.filePaths p ra hra tag fs hfs, henumerates]
    unfold recordedFiles
    by_cases hvisible : tag ∈ g.visibleTags p
    · simp [hvisible]
    · rw [if_neg hvisible]
      by_cases htag : tag ∈ g.artifactTags p
      · cases henum : ra.artifactsEnumerated with
        | false => simp [htag, hvisible]
        | true =>
            have hnone : fs = ∅ := by
              rw [hr.filePaths p ra hra tag fs hfs]
              exact if_neg hvisible
            refine absurd ⟨ra, hra, henum, tag, ?_, ?_⟩ (hpossible p)
            · rw [hr.allTags p ra hra]
              exact htag
            · rw [hfs, hnone]
      · rw [BuildGraph.filePathsForTag_of_not_mem htag]
        split <;> rfl
  · have hp : p ≠ p₀ := by
      rintro rfl
      rw [(hnew ra hra).1] at henum
      cases henum
    rw [laterGraph_artifactTags (henumerates.trans henum) (if_neg hp), hr.allTags p ra hra]

end RequestedArtifacts

/-! ## Projects -/

/-- A product with a name only. -/
def namedProduct (name : ProductId) : ResolvedProduct :=
  ResolvedProduct.create name ∅

/-- A project with products of some names. -/
def namedProject (names : List ProductId) : Project where
  name := ""
  allProducts := names.dedup.map namedProduct
  projectProperties _ := none
  rule _ := default
  uniqueNames := List.pairwise_map.mpr names.nodup_dedup

theorem namedProject_product? {names : List ProductId} {name : ProductId} (h : name ∈ names) :
    (namedProject names).product? name ≠ none := by
  have hmem : namedProduct name ∈ (namedProject names).allProducts :=
    List.mem_map_of_mem (List.mem_dedup.mpr h)
  have hfound := Project.product?_of_mem hmem
  rw [show (namedProduct name).uniqueName = name from rfl] at hfound
  rw [hfound]
  exact Option.some_ne_none _

namespace RequestedArtifacts

variable {g : BuildGraph} {a b : RequestedArtifacts}

/-- If something is lost in the union for a product, there is a tag that the union cannot notice
and one of the records does. -/
theorem exists_lost_tag {p : ProductId} (ha : RecordedIn g a) (hb : RecordedIn g b)
    {ra rb : RequestedArtifactsPerProduct} (hra : a.lookup p = some ra) (hrb : b.lookup p = some rb)
    (h : ¬ra.Survives rb) :
    ∃ newTag, ((ra.unite rb).artifactsEnumerated = false ∧
      (ra.unite rb).requestedTags.lookup newTag = none) ∧ newTag ∉ g.artifactTags p ∧
        (ra.artifactsEnumerated = true ∨ rb.artifactsEnumerated = true ∨
          ra.requestedTags.lookup newTag = some ∅) := by
  have hall : ra.allTags = g.artifactTags p := ha.allTags p ra hra
  have hfresh : ∃ newTag : FileTag, newTag ∉ (ra.unite rb).requestedTags ∧
      newTag ∉ g.artifactTags p := by
    rcases Infinite.exists_notMem_finset
      ((ra.unite rb).requestedTags.keys ++ (g.artifactTags p).elems).toFinset with ⟨newTag, hnew⟩
    rw [List.mem_toFinset, List.mem_append, not_or] at hnew
    exact ⟨newTag, fun hmem => hnew.1 (AList.mem_keys.mp hmem), hnew.2⟩
  unfold RequestedArtifactsPerProduct.Survives at h
  by_cases hempty : ra.allTags = ∅
  · rw [if_pos hempty] at h
    rw [RequestedArtifactsPerProduct.unite_of_empty hempty] at hfresh ⊢
    have hnot : ∀ tag, tag ∉ g.artifactTags p := by
      intro tag
      rw [← hall, hempty]
      exact SortedSet.not_mem_empty tag
    by_cases henum : ra.artifactsEnumerated = true ∧ rb.artifactsEnumerated = false
    · rcases hfresh with ⟨newTag, hnew, -⟩
      exact ⟨newTag, ⟨henum.2, AList.lookup_eq_none.mpr hnew⟩, hnot newTag, Or.inl henum.1⟩
    · have himp : ra.artifactsEnumerated = true → rb.artifactsEnumerated = true := by
        intro he
        by_contra hne
        exact henum ⟨he, by simpa using hne⟩
      have hsub : ¬(rb.artifactsEnumerated = true ∨
          ∀ tag, tag ∈ ra.requestedTags → tag ∈ rb.requestedTags) := fun h' => h ⟨himp, h'⟩
      push Not at hsub
      rcases hsub with ⟨hb', tag, htag, htag'⟩
      rcases Option.isSome_iff_exists.mp (AList.lookup_isSome.mpr htag) with ⟨fs, hfs⟩
      refine ⟨tag, ⟨by simpa using hb', AList.lookup_eq_none.mpr htag'⟩, hnot tag, ?_⟩
      rw [(ha.together hb hra hrb).noFiles hempty tag fs hfs] at hfs
      exact Or.inr (Or.inr hfs)
  · rw [if_neg hempty] at h
    push Not at h
    rcases hfresh with ⟨newTag, hnew, hnot⟩
    refine ⟨newTag, ⟨?_, AList.lookup_eq_none.mpr hnew⟩, hnot, Or.inr (Or.inl h.1)⟩
    rw [RequestedArtifactsPerProduct.unite_of_ne_empty hempty]
    simpa using h.2

/-- The union of two records that were made in one state tracks what both track exactly if nothing
is lost for the products that occur in both, or if the union can never be up to date. -/
theorem unite_tracks_iff (g : BuildGraph) (a b : RequestedArtifacts) (hg : g.NoEmptyEntries)
    (ha : RecordedIn g a) (hb : RecordedIn g b) :
    UnionTracks a b ↔ (∃ p, Blocked a b p) ∨ Survives a b := by
  constructor
  · intro htracks
    by_contra hno
    rw [not_or] at hno
    rcases hno with ⟨hblocked, hsurvives⟩
    unfold Survives at hsurvives
    push Not at hsurvives
    rcases hsurvives with ⟨p₀, ra, rb, hra, hrb, hlost⟩
    have hunite : (a.unite b).lookup p₀ = some (ra.unite rb) := by
      rw [lookup_unite, hra, hrb]
      rfl
    rcases exists_lost_tag ha hb hra hrb hlost with ⟨newTag, hnew, hnot, hnotice⟩
    have hpossible : ∀ p, ¬NeverUpToDate (a.unite b) p :=
      fun p hp => hblocked ⟨p, (blocked_iff ha hb).mpr hp⟩
    have hproject : ∀ p r, (a.unite b).lookup p = some r →
        (namedProject (a.unite b).keys).product? p ≠ none := by
      intro p r hr
      apply namedProject_product?
      rw [← AList.mem_keys, ← AList.lookup_isSome, hr]
      rfl
    have hup := @laterGraph_isUpToDate _ _ (ha.unite hb) _ p₀ newTag hproject hpossible
      (fun r hr => by
        rw [hunite] at hr
        rw [← Option.some.inj hr]
        exact hnew)
    have hboth := (htracks _ _ (laterGraph_noEmptyEntries hg)).mp hup
    simp only [TrackingContext.artifactsMapRequested_isUpToDate_iff] at hboth
    have hupA := TrackingContext.perProduct_isUpToDate_iff.mp (hboth.1 p₀ ra hra).2
    have hupB := TrackingContext.perProduct_isUpToDate_iff.mp (hboth.2 p₀ rb hrb).2
    have hmem : newTag ∈ (laterGraph g (a.unite b).enumerates fun p =>
        if p = p₀ then some newTag else none).artifactTags p₀ :=
      laterGraph_mem_artifactTags (if_pos rfl) (ha.productData p₀ ra hra)
    rcases hnotice with henum | henum | hasked
    · rw [hupA.2.2 henum, ha.allTags p₀ ra hra] at hmem
      exact hnot hmem
    · rw [hupB.2.2 henum, hb.allTags p₀ rb hrb] at hmem
      exact hnot hmem
    · exact BuildGraph.filePathsForTag_ne_empty (laterGraph_noEmptyEntries hg) hmem
        (hupA.2.1 newTag ∅ hasked)
  · rintro (⟨p, hp⟩ | hsurvives)
    · intro project g' hg'
      have hnever := ((blocked_iff ha hb).mp hp).not_isUpToDate hg' project
      exact iff_of_false hnever (hp.not_both ha hb hg' project)
    · exact unionTracks_of_survives ha hb hsurvives

/-! ## An enumeration in the second command only -/

/-- The file tag map of a product whose only file has some tags. -/
def oneFile (tags : List FileTag) : BuildGraph :=
  { BuildGraph.empty with
    artifact := fun _ => Artifact.create .sourceFile "/src/main.cpp"
    productData := fun p =>
      if p = "lib" then
        some { (default : ProductBuildData) with
          artifactsByFileTag := tags.foldl (fun m t => m.add t 0) ∅ }
      else none }

theorem oneFile_noEmptyEntries (tags : List FileTag) : (oneFile tags).NoEmptyEntries := by
  intro p d hd
  have hempty : ArtifactSetByFileTag.NoEmptyEntries ∅ := by
    intro tag s hs
    cases hs
  unfold oneFile at hd
  dsimp only at hd
  split at hd
  · cases hd
    exact hempty.foldl_add tags 0
  · cases hd

/-- What a command does with the artifacts map of the product. -/
def commandReads (use : ArtifactsUse) : List MapRead :=
  [⟨"lib", true, [use]⟩]

/-- The record of a command. -/
def commandRecord (use : ArtifactsUse) : RequestedArtifacts :=
  match ((commandReads use).flatMap (MapRead.accesses (oneFile ["cpp"]))).foldlM
    ScriptEngine.observe .cleared with
  | .ok e => e.requestedArtifacts
  | .error _ => ∅

theorem commandRecord_recordedIn (use : ArtifactsUse) :
    RecordedIn (oneFile ["cpp"]) (commandRecord use) := by
  unfold commandRecord
  split <;> rename_i h
  · refine recordedIn_of_reads (fun r hr => ?_) h
    rw [List.mem_singleton.mp hr]
    exact Option.some_ne_none _
  · refine ⟨fun p ra hra => ?_, fun p ra hra => ?_, fun p ra hra => ?_⟩
    all_goals cases hra

/-- The first command asks for a tag, the second one enumerates the map. That the product gets
another tag is not noticed. -/
theorem enumeration_lost :
    ¬∀ g a b, BuildGraph.NoEmptyEntries g → RecordedIn g a → RecordedIn g b → UnionTracks a b := by
  intro h
  have htracks := h (oneFile ["cpp"]) (commandRecord (.ask "cpp")) (commandRecord .enumerate)
    (oneFile_noEmptyEntries _) (commandRecord_recordedIn _) (commandRecord_recordedIn _)
    (namedProject ["lib"]) (oneFile ["cpp", "hpp"]) (oneFile_noEmptyEntries _)
  have hunion : ((commandRecord (.ask "cpp")).unite (commandRecord .enumerate)).isUpToDate
      (namedProject ["lib"]) (oneFile ["cpp", "hpp"]) = true := by decide +kernel
  have hsecond : (commandRecord .enumerate).isUpToDate (namedProject ["lib"])
      (oneFile ["cpp", "hpp"]) = false := by decide +kernel
  rw [(htracks.mp hunion).2] at hsecond
  cases hsecond

/-- Two commands that enumerate the map. -/
theorem unite_tracks_iff_enumerate :
    UnionTracks (commandRecord .enumerate) (commandRecord .enumerate) ↔
      (∃ p, Blocked (commandRecord .enumerate) (commandRecord .enumerate) p) ∨
        Survives (commandRecord .enumerate) (commandRecord .enumerate) :=
  unite_tracks_iff (oneFile ["cpp"]) _ _ (oneFile_noEmptyEntries _) (commandRecord_recordedIn _)
    (commandRecord_recordedIn _)

end RequestedArtifacts

end Qbs
