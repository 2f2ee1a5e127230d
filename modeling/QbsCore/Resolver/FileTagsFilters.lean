import QbsCore.ChangeTracking.RuleComparison

/-!
# Groups with a file tags filter

The groups of a product that have a file tags filter give properties to its artifacts:
to the source files when the product is resolved, and to the generated files when the
artifacts are created.  The first loop overwrites what an earlier group has given, the
second one stops at the first group.

Main results:

- Theorem {lit}`matchArtifactProperties_properties`: a source file gets the properties of
  the last group that it matches.
- Theorem {lit}`provideFullFileTagsAndProperties_properties`: a generated file gets those
  of the first one.
- Theorem {lit}`treatedAlike_iff`: when both get the same.
-/

namespace Qbs

/-- A source file of a product, with the values of its properties. -/
structure SourceArtifact where
  absoluteFilePath : FilePath
  fileTags : FileTags
  targetOfModule : String
  properties : VariantMap

def SourceArtifact.isTargetOfModule (artifact : SourceArtifact) : Bool :=
  artifact.targetOfModule ≠ ""

namespace FileTagsFilters

/-- Look at one group for a source file. -/
def matchProperties (artifact : SourceArtifact) (artifactProperties : ArtifactProperties) :
    SourceArtifact :=
  if !artifact.isTargetOfModule &&
      artifact.fileTags.intersects artifactProperties.fileTagsFilter then
    { artifact with properties := artifactProperties.propertyMap }
  else artifact

/-- Give the source files of a product the properties of the groups that they match. -/
def matchArtifactProperties (product : ResolvedProduct) (artifacts : List SourceArtifact) :
    List SourceArtifact :=
  artifacts.map fun artifact => product.artifactProperties.foldl matchProperties artifact

/-- The last artifact properties in a list with a filter that certain tags pass. -/
def lastMatch (l : List ArtifactProperties) (tags : FileTags) : Option ArtifactProperties :=
  l.reverse.find? fun ap => tags.intersects ap.fileTagsFilter

theorem lastMatch_some {l : List ArtifactProperties} {tags : FileTags} {ap : ArtifactProperties}
    (h : lastMatch l tags = some ap) : ap ∈ l ∧ tags.intersects ap.fileTagsFilter = true := by
  have h' := RuleComparison.firstMatch_some (l := l.reverse) h
  exact ⟨List.mem_reverse.mp h'.1, h'.2⟩

theorem lastMatch_eq_none {l : List ArtifactProperties} {tags : FileTags} :
    lastMatch l tags = none ↔ ∀ ap, ap ∈ l → ¬tags.intersects ap.fileTagsFilter = true := by
  unfold lastMatch
  rw [List.find?_eq_none]
  simp only [List.mem_reverse]

/-- A group changes nothing but the properties. -/
theorem matchProperties_eq {artifact : SourceArtifact} (hmodule : artifact.targetOfModule = "")
    (ap : ArtifactProperties) :
    matchProperties artifact ap =
      { artifact with
        properties :=
          if artifact.fileTags.intersects ap.fileTagsFilter then ap.propertyMap
          else artifact.properties } := by
  have hnotTarget : artifact.isTargetOfModule = false := by
    simp [SourceArtifact.isTargetOfModule, hmodule]
  unfold matchProperties
  rw [hnotTarget, Bool.not_false, Bool.true_and]
  split_ifs <;> rfl

/-- A source file gets the properties of the last group that it matches. -/
theorem foldl_matchProperties {artifact : SourceArtifact} (hmodule : artifact.targetOfModule = "")
    (l : List ArtifactProperties) :
    l.foldl matchProperties artifact =
      { artifact with
        properties :=
          ((lastMatch l artifact.fileTags).map ArtifactProperties.propertyMap).getD
            artifact.properties } := by
  induction l using List.reverseRecOn with
  | nil => rfl
  | append_singleton l ap ih =>
      rw [List.foldl_append, ih, List.foldl_cons, List.foldl_nil, matchProperties_eq (by exact hmodule)]
      unfold lastMatch
      rw [List.reverse_append, List.reverse_singleton, List.singleton_append, List.find?_cons]
      dsimp only
      cases artifact.fileTags.intersects ap.fileTagsFilter <;> rfl

/-- The properties of the source files of a product. -/
theorem matchArtifactProperties_properties (product : ResolvedProduct)
    (artifacts : List SourceArtifact)
    (hmodule : ∀ artifact, artifact ∈ artifacts → artifact.targetOfModule = "") :
    (matchArtifactProperties product artifacts).map SourceArtifact.properties =
      artifacts.map fun artifact =>
        ((lastMatch product.artifactProperties artifact.fileTags).map
          ArtifactProperties.propertyMap).getD artifact.properties := by
  unfold matchArtifactProperties
  rw [List.map_map]
  apply List.map_congr_left
  intro artifact hartifact
  rw [Function.comp_apply, foldl_matchProperties (hmodule artifact hartifact)]

/-- A generated file gets the properties of the first group that it matches. -/
theorem provideFullFileTagsAndProperties_properties (g : BuildGraph) (product : ResolvedProduct)
    (a : NodeId) :
    ((g.provideFullFileTagsAndProperties product a).artifact a).properties =
      ((RuleComparison.firstMatch product.artifactProperties
          (RuleComparison.tagsOf product (g.artifact a))).map
        ArtifactProperties.propertyMap).getD product.moduleProperties := by
  have h := RuleComparison.provideFullFileTagsAndProperties_artifact g product a
  rw [(Prod.mk.inj h).2]
  unfold ResolvedProduct.fullFileTagsAndProperties RuleComparison.firstMatch RuleComparison.tagsOf
  dsimp only
  generalize (if (g.artifact a).pureFileTags.isEmpty = true then
    product.fileTagsForFileName (FilePath.fileName (g.artifact a).filePath)
    else (g.artifact a).pureFileTags) = tags
  cases product.artifactProperties.find? fun ap => tags.intersects ap.fileTagsFilter <;> rfl

/-- The properties of a source file and of a generated file are those of the same group that both
match, or those of the product if they match none. -/
structure TreatedAlike (product : ResolvedProduct) (source : SourceArtifact) (g : BuildGraph)
    (a : NodeId) : Prop where
  matched : (∃ ap, ap ∈ product.artifactProperties ∧
      source.fileTags.intersects ap.fileTagsFilter = true) →
    ∃ ap, ap ∈ product.artifactProperties ∧
      source.fileTags.intersects ap.fileTagsFilter = true ∧
      (matchArtifactProperties product [source]).map SourceArtifact.properties =
        [ap.propertyMap] ∧
      ((g.provideFullFileTagsAndProperties product a).artifact a).properties = ap.propertyMap
  unmatched : (∀ ap, ap ∈ product.artifactProperties →
      ¬source.fileTags.intersects ap.fileTagsFilter = true) →
    (matchArtifactProperties product [source]).map SourceArtifact.properties =
        [product.moduleProperties] ∧
      ((g.provideFullFileTagsAndProperties product a).artifact a).properties =
        product.moduleProperties

/-- The first and the last group that certain tags match have the same properties. -/
def SameFirstAndLast (l : List ArtifactProperties) (tags : FileTags) : Prop :=
  (RuleComparison.firstMatch l tags).map ArtifactProperties.propertyMap =
    (lastMatch l tags).map ArtifactProperties.propertyMap

/-- A source file and a generated file with the same tags are treated alike exactly if the first
and the last group that they match have the same properties and, if there is none, the source file
has the properties of the product. -/
theorem treatedAlike_iff (product : ResolvedProduct) (source : SourceArtifact) (g : BuildGraph)
    (a : NodeId) (hmodule : source.targetOfModule = "")
    (htags : RuleComparison.tagsOf product (g.artifact a) = source.fileTags) :
    TreatedAlike product source g a ↔
      SameFirstAndLast product.artifactProperties source.fileTags ∧
        ((∀ ap, ap ∈ product.artifactProperties →
            ¬source.fileTags.intersects ap.fileTagsFilter = true) →
          source.properties = product.moduleProperties) := by
  have hsource := matchArtifactProperties_properties product [source] (by simpa using hmodule)
  have hgenerated := provideFullFileTagsAndProperties_properties g product a
  rw [htags] at hgenerated
  rw [List.map_singleton] at hsource
  unfold SameFirstAndLast
  cases hlast : lastMatch product.artifactProperties source.fileTags with
  | none =>
      have hnone := lastMatch_eq_none.mp hlast
      have hfirst := RuleComparison.firstMatch_eq_none.mpr hnone
      rw [hlast, Option.map_none, Option.getD_none] at hsource
      rw [hfirst, Option.map_none, Option.getD_none] at hgenerated
      rw [hfirst]
      constructor
      · intro h
        have hunmatched := (h.unmatched hnone).1
        rw [hsource] at hunmatched
        exact ⟨rfl, fun _ => List.singleton_inj.mp hunmatched⟩
      · intro h
        refine ⟨?_, fun _ => ⟨by rw [hsource, h.2 hnone], hgenerated⟩⟩
        rintro ⟨ap, hap, hmatch⟩
        exact absurd hmatch (hnone ap hap)
  | some last =>
      have hmatch := lastMatch_some hlast
      rcases RuleComparison.exists_firstMatch hmatch.1 hmatch.2 with ⟨first, hfirst⟩
      rw [hlast, Option.map_some, Option.getD_some] at hsource
      rw [hfirst, Option.map_some, Option.getD_some] at hgenerated
      rw [hfirst, Option.map_some, Option.map_some, Option.some.injEq]
      have hnot : ¬∀ ap, ap ∈ product.artifactProperties →
          ¬source.fileTags.intersects ap.fileTagsFilter = true :=
        fun h => h last hmatch.1 hmatch.2
      constructor
      · intro h
        rcases h.matched ⟨last, hmatch⟩ with ⟨ap, -, -, hsource', hgenerated'⟩
        rw [hsource] at hsource'
        rw [hgenerated] at hgenerated'
        exact ⟨hgenerated'.trans (List.singleton_inj.mp hsource').symm,
          fun hnone => absurd hnone hnot⟩
      · intro h
        exact ⟨fun _ => ⟨last, hmatch.1, hmatch.2, hsource, hgenerated.trans h.1⟩,
          fun hnone => absurd hnone hnot⟩

/-! ## A sample -/

/-- A product with a group for all C++ files and one for C++ files that are processed by moc. -/
def sampleProduct : ResolvedProduct :=
  { ResolvedProduct.create "app" {"application"} with
    artifactProperties :=
      [⟨{"cpp"}, ∅, VariantMap.setConfigProperty [] ["cpp", "optimization"] (.string "fast")⟩,
        ⟨{"moc_cpp"}, ∅, VariantMap.setConfigProperty [] ["cpp", "optimization"] (.string "none")⟩] }

def sampleSource (fileTags : FileTags) : SourceArtifact :=
  ⟨"/src/main.cpp", fileTags, "", []⟩

def sampleGraph (fileTags : FileTags) : BuildGraph :=
  { BuildGraph.empty with
    artifact := fun _ =>
      { Artifact.create .generated "/build/generated.cpp" with pureFileTags := fileTags } }

/-- Files that only match the first group are treated alike. -/
theorem treatedAlike_sampleProduct :
    TreatedAlike sampleProduct (sampleSource {"cpp"}) (sampleGraph {"cpp"}) 0 := by
  refine (treatedAlike_iff _ _ _ 0 rfl rfl).mpr ⟨rfl, fun hnone => ?_⟩
  exact absurd (by decide) (hnone _ List.mem_cons_self)

/-- A source file that matches both groups gets the properties of the second one, and a generated
file those of the first one. -/
theorem not_treatedAlike_sampleProduct :
    ¬TreatedAlike sampleProduct (sampleSource {"cpp", "moc_cpp"})
      (sampleGraph {"cpp", "moc_cpp"}) 0 := by
  intro h
  rcases h.matched ⟨_, List.mem_cons_self, by decide⟩ with ⟨ap, hap, -, hsource, hgenerated⟩
  have hlast : (matchArtifactProperties sampleProduct
      [sampleSource {"cpp", "moc_cpp"}]).map SourceArtifact.properties =
        [VariantMap.setConfigProperty [] ["cpp", "optimization"] (.string "none")] := by
    decide
  have hfirst := provideFullFileTagsAndProperties_properties (sampleGraph {"cpp", "moc_cpp"})
    sampleProduct 0
  rw [hlast] at hsource
  rw [hfirst, ← List.singleton_inj.mp hsource] at hgenerated
  exact absurd hgenerated (by decide)

end FileTagsFilters

end Qbs
