import QbsCore.Library.TransitionSystem
import QbsCore.Rules.OutputArtifacts

/-!
# File tags, file tag maps and root artifacts

The file tags of an artifact are kept in three places: in the artifact, in the file tag map
of its product, and in the set of root nodes, to which an artifact belongs if it has a tag of
the product type.  They are changed by the insertion of artifacts, by their removal and by
changes of their tags, in any order.

Main results:

- Structure {lit}`FileTagMap.Indexed`: what the build data of a product say about file tags.
- Theorem {lit}`FileTagMap.consistent_step_iff`: when one call keeps this.
- Theorem {lit}`FileTagMap.consistent_iff`: when it holds in all states of a run.

Current gaps:

- The lock around the file tag map and its flag for scripts are left out.
-/

namespace Qbs

namespace FileTagMap

/-! ## Calls -/

/-- The calls that insert and remove artifacts and change their tags. A new artifact may have tags
before it is inserted. -/
inductive ArtifactCall where
  | newArtifact (data : Artifact)
  | insertArtifact (product : ProductId) (a : NodeId)
  | removeArtifact (a : NodeId)
  | addFileTag (a : NodeId) (t : FileTag)
  | removeFileTag (a : NodeId) (t : FileTag)
  | setFileTags (a : NodeId) (newFileTags : FileTags)

/-- Perform a call. An artifact whose product has no name has not been inserted. -/
def perform (products : ProductId → ResolvedProduct) (g : BuildGraph) :
    ArtifactCall → Except ErrorInfo BuildGraph
  | .newArtifact data => .ok (g.newArtifact data).1
  | .insertArtifact product a => do
      qbsCheck (g.productOf a = "") "!artifact->product"
      g.insertArtifact product a
  | .removeArtifact a => .ok (g.removeArtifactFromProduct a)
  | .addFileTag a t => .ok (g.addFileTag (products (g.productOf a)) a t)
  | .removeFileTag a t => .ok (g.removeFileTag (products (g.productOf a)) a t)
  | .setFileTags a newFileTags => .ok (g.setFileTags (products (g.productOf a)) a newFileTags)

/-- The artifact of a call exists. -/
def Exists (g : BuildGraph) : ArtifactCall → Prop
  | .newArtifact _ => True
  | .insertArtifact _ a | .removeArtifact a | .addFileTag a _ | .removeFileTag a _
  | .setFileTags a _ => a < g.nextNode ∧ g.isArtifact a = true

/-- A call that succeeds. -/
def Step (products : ProductId → ResolvedProduct) (g : BuildGraph) (call : ArtifactCall)
    (g' : BuildGraph) : Prop :=
  Exists g call ∧ perform products g call = .ok g'

/-! ## What the build data say -/

/-- The file tag map has for each tag the artifacts of the product with this tag and no empty
entries, and the artifacts among the root nodes are those with a tag of the product type. -/
structure Indexed (product : ResolvedProduct) (g : BuildGraph) (d : ProductBuildData) : Prop where
  noEmptyEntries : d.artifactsByFileTag.NoEmptyEntries
  mem_value_iff : ∀ tag a, a ∈ d.artifactsByFileTag.value tag ↔
    a ∈ d.nodes ∧ g.isArtifact a = true ∧ tag ∈ (g.artifact a).fileTags
  mem_roots_iff : ∀ a, g.isArtifact a = true → (a ∈ d.roots ↔
    a ∈ d.nodes ∧ product.fileTags.intersects (g.artifact a).fileTags = true)

/-- The build data of all products say where which tags are. -/
def Consistent (products : ProductId → ResolvedProduct) (g : BuildGraph) : Prop :=
  ∀ p d, g.productData p = some d → Indexed (products p) g d

/-- The nodes of a product know their product, and new nodes belong to none. -/
structure Linked (g : BuildGraph) : Prop where
  noProduct : g.productData "" = none
  productOf : ∀ p d, g.productData p = some d → ∀ a, a ∈ d.nodes ∨ a ∈ d.roots → g.productOf a = p
  fresh : ∀ a, g.nextNode ≤ a → g.productOf a = ""

/-- The condition under which a call keeps the build data consistent: an artifact that is inserted
has no tag of the product type yet, and tags are only added to artifacts that are not removed. -/
def Meets (products : ProductId → ResolvedProduct) (g : BuildGraph) : ArtifactCall → Prop
  | .insertArtifact p a => (products p).fileTags.intersects (g.artifact a).fileTags = false
  | .addFileTag a _ => ∀ d, g.productData (g.productOf a) = some d → a ∈ d.nodes
  | .setFileTags a newFileTags => ∀ d, g.productData (g.productOf a) = some d →
      a ∈ d.nodes ∨ ∀ t, t ∈ newFileTags → t ∈ (g.artifact a).fileTags
  | _ => True

/-! ## Changes of one artifact -/

variable {products : ProductId → ResolvedProduct} {g g' : BuildGraph}

/-- Only the tags of one artifact and the build data of its product have changed. -/
structure ChangesAt (a : NodeId) (f : ProductBuildData → ProductBuildData) (g g' : BuildGraph) :
    Prop where
  productData : g'.productData =
    Function.update g.productData (g.productOf a) ((g.productData (g.productOf a)).map f)
  nodeType : g'.nodeType = g.nodeType
  fileTags : ∀ b, b ≠ a → (g'.artifact b).fileTags = (g.artifact b).fileTags

variable {d : ProductBuildData} {p : ProductId}

/-- Build data stay indexed as long as the artifacts of the product keep their tags. -/
theorem Indexed.congr {product : ResolvedProduct} (h : Indexed product g d)
    (htype : ∀ b, b ∈ d.nodes → g'.nodeType b = g.nodeType b)
    (htags : ∀ b, b ∈ d.nodes → (g'.artifact b).fileTags = (g.artifact b).fileTags)
    (hartifact : ∀ b, b ∉ d.nodes → g'.isArtifact b = true → b ∈ d.roots → g.isArtifact b = true) :
    Indexed product g' d := by
  have hkind : ∀ b, b ∈ d.nodes → g'.isArtifact b = g.isArtifact b := by
    intro b hb
    unfold BuildGraph.isArtifact
    rw [htype b hb]
  refine ⟨h.noEmptyEntries, fun tag b => ?_, fun b hb => ?_⟩
  · rw [h.mem_value_iff]
    refine and_congr_right fun hmem => ?_
    rw [hkind b hmem, htags b hmem]
  · by_cases hmem : b ∈ d.nodes
    · rw [htags b hmem]
      exact h.mem_roots_iff b (by rw [← hkind b hmem]; exact hb)
    · have hroots : b ∉ d.roots := by
        intro hroot
        exact hmem ((h.mem_roots_iff b (hartifact b hmem hb hroot)).mp hroot).1
      simp [hmem, hroots]

variable {f : ProductBuildData → ProductBuildData}

/-- After a change of one artifact, only the build data of its product can be wrong. -/
theorem consistent_iff_of_changesAt {a : NodeId} (hlinked : Linked g)
    (hconsistent : Consistent products g) (h : ChangesAt a f g g') :
    Consistent products g' ↔ ∀ d, g.productData (g.productOf a) = some d →
      Indexed (products (g.productOf a)) g' (f d) := by
  constructor
  · intro hg' d hd
    apply hg'
    rw [h.productData, Function.update_self, hd]
    rfl
  · intro hown p d hd
    rw [h.productData] at hd
    by_cases hp : p = g.productOf a
    · rw [hp, Function.update_self, Option.map_eq_some_iff] at hd
      rcases hd with ⟨d₀, hd₀, hf⟩
      rw [hp, ← hf]
      exact hown d₀ hd₀
    · rw [Function.update_of_ne hp] at hd
      have hne : ∀ b, b ∈ d.nodes → b ≠ a := by
        intro b hb heq
        exact hp ((hlinked.productOf p d hd b (Or.inl hb)).symm.trans (congrArg g.productOf heq))
      apply (hconsistent p d hd).congr
      · exact fun b _ => congrFun h.nodeType b
      · exact fun b hb => h.fileTags b (hne b hb)
      · intro b _ hb _
        unfold BuildGraph.isArtifact at hb ⊢
        rwa [h.nodeType] at hb

/-- A change of the build data that keeps the nodes keeps the links. -/
theorem Linked.of_changesAt {a : NodeId} (hlinked : Linked g) (h : ChangesAt a f g g')
    (hproduct : g'.productOf = g.productOf) (hnext : g'.nextNode = g.nextNode)
    (hnodes : ∀ d b, b ∈ (f d).nodes ∨ b ∈ (f d).roots → b ∈ d.nodes ∨ b ∈ d.roots ∨ b = a) :
    Linked g' where
  noProduct := by
    rw [h.productData]
    by_cases hp : "" = g.productOf a
    · rw [← hp, Function.update_self, hlinked.noProduct]
      rfl
    · rw [Function.update_of_ne hp]
      exact hlinked.noProduct
  productOf := by
    intro p d hd b hb
    rw [hproduct]
    rw [h.productData] at hd
    by_cases hp : p = g.productOf a
    · rw [hp, Function.update_self, Option.map_eq_some_iff] at hd
      rcases hd with ⟨d₀, hd₀, hf⟩
      rw [← hf] at hb
      rw [hp]
      rcases hnodes d₀ b hb with hb | hb | rfl
      · exact hlinked.productOf _ d₀ hd₀ b (Or.inl hb)
      · exact hlinked.productOf _ d₀ hd₀ b (Or.inr hb)
      · rfl
    · rw [Function.update_of_ne hp] at hd
      exact hlinked.productOf p d hd b hb
  fresh := by
    intro b hb
    rw [hproduct]
    exact hlinked.fresh b (hnext ▸ hb)

/-! ## Single tags -/

section

variable (product : ResolvedProduct) (a : NodeId) (t : FileTag)

theorem addFileTag_changesAt :
    ChangesAt a (fun d => { d with
      artifactsByFileTag := d.artifactsByFileTag.add t a
      roots := if t ∈ product.fileTags then insert a d.roots else d.roots }) g
      (g.addFileTag product a t) where
  productData := rfl
  nodeType := rfl
  fileTags b hb := by
    show (Function.update g.artifact a _ b).fileTags = _
    rw [Function.update_of_ne hb]

theorem removeFileTag_changesAt :
    ChangesAt a (fun d => { d with
      artifactsByFileTag := d.artifactsByFileTag.take t a
      roots :=
        if t ∈ product.fileTags &&
            !product.fileTags.intersects ((g.artifact a).fileTags.remove t) then
          d.roots.remove a
        else d.roots }) g (g.removeFileTag product a t) where
  productData := rfl
  nodeType := rfl
  fileTags b hb := by
    show (Function.update g.artifact a _ b).fileTags = _
    rw [Function.update_of_ne hb]

theorem addFileTag_fileTags :
    ((g.addFileTag product a t).artifact a).fileTags = insert t (g.artifact a).fileTags := by
  show (Function.update g.artifact a _ a).fileTags = _
  rw [Function.update_self]

theorem removeFileTag_fileTags :
    ((g.removeFileTag product a t).artifact a).fileTags = (g.artifact a).fileTags.remove t := by
  show (Function.update g.artifact a _ a).fileTags = _
  rw [Function.update_self]

end

variable {a : NodeId} {t : FileTag}

theorem addFileTag_linked (hlinked : Linked g) (product : ResolvedProduct) :
    Linked (g.addFileTag product a t) :=
  hlinked.of_changesAt (addFileTag_changesAt product a t) rfl rfl fun d b hb => by
    rcases hb with hb | hb
    · exact Or.inl hb
    · dsimp only at hb
      split at hb
      · exact Or.inr ((SortedSet.mem_insert.mp hb).symm)
      · exact Or.inr (Or.inl hb)

theorem removeFileTag_linked (hlinked : Linked g) (product : ResolvedProduct) :
    Linked (g.removeFileTag product a t) :=
  hlinked.of_changesAt (removeFileTag_changesAt product a t) rfl rfl fun d b hb => by
    rcases hb with hb | hb
    · exact Or.inl hb
    · dsimp only at hb
      split at hb
      · exact Or.inr (Or.inl (SortedSet.mem_remove.mp hb).1)
      · exact Or.inr (Or.inl hb)

/-- Adding a tag keeps the build data consistent unless the artifact was removed. -/
theorem addFileTag_consistent_iff (hlinked : Linked g) (hconsistent : Consistent products g)
    (hartifact : g.isArtifact a = true) :
    Consistent products (g.addFileTag (products (g.productOf a)) a t) ↔
      ∀ d, g.productData (g.productOf a) = some d → a ∈ d.nodes := by
  rw [consistent_iff_of_changesAt hlinked hconsistent (addFileTag_changesAt _ a t)]
  refine forall_congr' fun d => forall_congr' fun hd => ?_
  have hindexed := hconsistent _ d hd
  have htags := addFileTag_fileTags (g := g) (products (g.productOf a)) a t
  have hother := (addFileTag_changesAt (g := g) (products (g.productOf a)) a t).fileTags
  constructor
  · intro h
    have hmem := (h.mem_value_iff t a).mp (ArtifactSetByFileTag.mem_value_add.mpr
      (Or.inr ⟨rfl, rfl⟩))
    exact hmem.1
  · intro hmem
    refine ⟨hindexed.noEmptyEntries.add t a, fun tag b => ?_, fun b hb => ?_⟩
    · rw [ArtifactSetByFileTag.mem_value_add, hindexed.mem_value_iff]
      show _ ↔ b ∈ d.nodes ∧ g.isArtifact b = true ∧ _
      by_cases hba : b = a
      · rw [hba, htags, SortedSet.mem_insert]
        simp [hmem, hartifact, or_comm]
      · rw [hother b hba]
        simp [hba]
    · have hroots := hindexed.mem_roots_iff b hb
      by_cases hba : b = a
      · rw [hba] at hroots ⊢
        rw [htags]
        simp only [SortedSet.intersects_iff, SortedSet.mem_insert, hmem, true_and] at hroots ⊢
        split <;> rename_i ht
        · simp only [SortedSet.mem_insert, true_or, true_iff]
          exact ⟨t, ht, Or.inl rfl⟩
        · rw [hroots]
          constructor
          · rintro ⟨u, hu, hua⟩
            exact ⟨u, hu, Or.inr hua⟩
          · rintro ⟨u, hu, rfl | hua⟩
            · exact absurd hu ht
            · exact ⟨u, hu, hua⟩
      · rw [hother b hba]
        show b ∈ (if t ∈ (products (g.productOf a)).fileTags then insert a d.roots else d.roots) ↔ _
        rw [← hroots]
        split
        · simp [SortedSet.mem_insert, hba]
        · rfl

/-- Taking a tag away keeps the build data consistent. -/
theorem removeFileTag_consistent (hlinked : Linked g) (hconsistent : Consistent products g) :
    Consistent products (g.removeFileTag (products (g.productOf a)) a t) := by
  rw [consistent_iff_of_changesAt hlinked hconsistent (removeFileTag_changesAt _ a t)]
  intro d hd
  have hindexed := hconsistent _ d hd
  have htags := removeFileTag_fileTags (g := g) (products (g.productOf a)) a t
  have hother := (removeFileTag_changesAt (g := g) (products (g.productOf a)) a t).fileTags
  refine ⟨hindexed.noEmptyEntries.take t a, fun tag b => ?_, fun b hb => ?_⟩
  · rw [ArtifactSetByFileTag.mem_value_take, hindexed.mem_value_iff]
    show _ ↔ b ∈ d.nodes ∧ g.isArtifact b = true ∧ _
    by_cases hba : b = a
    · rw [hba, htags, SortedSet.mem_remove]
      simp [and_assoc]
    · rw [hother b hba]
      simp [hba]
  · have hroots := hindexed.mem_roots_iff b hb
    by_cases hba : b = a
    · rw [hba] at hroots ⊢
      rw [htags]
      dsimp only
      by_cases hinter : (products (g.productOf a)).fileTags.intersects
          ((g.artifact a).fileTags.remove t) = true
      · have hall : (products (g.productOf a)).fileTags.intersects (g.artifact a).fileTags =
            true := by
          rw [SortedSet.intersects_iff] at hinter ⊢
          rcases hinter with ⟨u, hu, hua⟩
          exact ⟨u, hu, (SortedSet.mem_remove.mp hua).1⟩
        rw [hinter]
        simp [hroots, hall]
      · by_cases ht : t ∈ (products (g.productOf a)).fileTags
        · simp [hinter, ht]
        · have hall : ¬(products (g.productOf a)).fileTags.intersects (g.artifact a).fileTags =
              true := by
            rw [SortedSet.intersects_iff] at hinter ⊢
            rintro ⟨u, hu, hua⟩
            refine hinter ⟨u, hu, SortedSet.mem_remove.mpr ⟨hua, ?_⟩⟩
            rintro rfl
            exact ht hu
          simp [hinter, ht, hroots, hall]
    · rw [hother b hba, ← hroots]
      dsimp only
      split
      · simp [SortedSet.mem_remove, hba]
      · rfl

/-! ## Several tags -/

/-- What the changes of the tags of an artifact leave alone. -/
structure TagFrame (a : NodeId) (g g' : BuildGraph) : Prop where
  productOf : g'.productOf = g.productOf
  nodeType : g'.nodeType = g.nodeType
  nodes : ∀ p d', g'.productData p = some d' → ∃ d, g.productData p = some d ∧ d'.nodes = d.nodes

theorem TagFrame.refl (a : NodeId) (g : BuildGraph) : TagFrame a g g :=
  ⟨rfl, rfl, fun _ d hd => ⟨d, hd, rfl⟩⟩

theorem TagFrame.trans {g'' : BuildGraph} (h : TagFrame a g g') (h' : TagFrame a g' g'') :
    TagFrame a g g'' where
  productOf := h'.productOf.trans h.productOf
  nodeType := h'.nodeType.trans h.nodeType
  nodes p d'' hd'' := by
    rcases h'.nodes p d'' hd'' with ⟨d', hd', hnodes'⟩
    rcases h.nodes p d' hd' with ⟨d, hd, hnodes⟩
    exact ⟨d, hd, hnodes'.trans hnodes⟩

theorem TagFrame.of_changesAt (h : ChangesAt a f g g') (hproduct : g'.productOf = g.productOf)
    (hnodes : ∀ d, (f d).nodes = d.nodes) :
    TagFrame a g g' where
  productOf := hproduct
  nodeType := h.nodeType
  nodes p d' hd' := by
    rw [h.productData] at hd'
    by_cases hp : p = g.productOf a
    · rw [hp, Function.update_self, Option.map_eq_some_iff] at hd'
      rcases hd' with ⟨d, hd, hf⟩
      rw [hp]
      exact ⟨d, hd, hf ▸ hnodes d⟩
    · rw [Function.update_of_ne hp] at hd'
      exact ⟨d', hd', rfl⟩

theorem addFileTag_frame (product : ResolvedProduct) (t : FileTag) :
    TagFrame a g (g.addFileTag product a t) :=
  TagFrame.of_changesAt (addFileTag_changesAt product a t) rfl fun _ => rfl

theorem removeFileTag_frame (product : ResolvedProduct) (t : FileTag) :
    TagFrame a g (g.removeFileTag product a t) :=
  TagFrame.of_changesAt (removeFileTag_changesAt product a t) rfl fun _ => rfl

variable {product : ResolvedProduct}

/-- Adding several tags to an artifact that is not removed. -/
theorem foldl_addFileTag_spec (tags : List FileTag) (hlinked : Linked g)
    (hconsistent : Consistent products g) (hartifact : g.isArtifact a = true)
    (hproduct : products (g.productOf a) = product)
    (hmem : ∀ d, g.productData (g.productOf a) = some d → a ∈ d.nodes) :
    Consistent products (tags.foldl (fun g t => g.addFileTag product a t) g) := by
  induction tags generalizing g with
  | nil => exact hconsistent
  | cons t tags ih =>
      have hframe := addFileTag_frame (g := g) (a := a) product t
      have hstep : Consistent products (g.addFileTag product a t) := by
        rw [← hproduct]
        exact (addFileTag_consistent_iff hlinked hconsistent hartifact).mpr hmem
      refine ih (addFileTag_linked hlinked product) hstep hartifact hproduct ?_
      intro d hd
      rw [hframe.productOf] at hd
      rcases hframe.nodes _ d hd with ⟨d₀, hd₀, hnodes⟩
      rw [hnodes]
      exact hmem d₀ hd₀

theorem foldl_addFileTag_linked (tags : List FileTag) (hlinked : Linked g) :
    Linked (tags.foldl (fun g t => g.addFileTag product a t) g) := by
  induction tags generalizing g with
  | nil => exact hlinked
  | cons t tags ih => exact ih (addFileTag_linked hlinked product)

theorem foldl_addFileTag_frame (tags : List FileTag) :
    TagFrame a g (tags.foldl (fun g t => g.addFileTag product a t) g) := by
  induction tags generalizing g with
  | nil => exact TagFrame.refl a g
  | cons t tags ih => exact (addFileTag_frame product t).trans ih

/-- Taking several tags away from an artifact. -/
theorem foldl_removeFileTag_spec (tags : List FileTag) (hlinked : Linked g)
    (hproduct : products (g.productOf a) = product) :
    Linked (tags.foldl (fun g t => g.removeFileTag product a t) g) ∧
      TagFrame a g (tags.foldl (fun g t => g.removeFileTag product a t) g) ∧
      (Consistent products g →
        Consistent products (tags.foldl (fun g t => g.removeFileTag product a t) g)) := by
  induction tags generalizing g with
  | nil => exact ⟨hlinked, TagFrame.refl a g, fun h => h⟩
  | cons t tags ih =>
      rcases ih (removeFileTag_linked hlinked product) hproduct with ⟨hl, hf, hc⟩
      refine ⟨hl, (removeFileTag_frame product t).trans hf, fun hconsistent => hc ?_⟩
      rw [← hproduct]
      exact removeFileTag_consistent hlinked hconsistent

/-- An artifact that was removed from its product. -/
def Removed (a : NodeId) (g : BuildGraph) : Prop :=
  ∃ d, g.productData (g.productOf a) = some d ∧ a ∉ d.nodes

/-- An artifact that was removed from its product, but is listed under a tag. -/
def Stray (a : NodeId) (t : FileTag) (g : BuildGraph) : Prop :=
  ∃ d, g.productData (g.productOf a) = some d ∧ a ∉ d.nodes ∧ a ∈ d.artifactsByFileTag.value t

theorem Stray.not_consistent (h : Stray a t g) : ¬Consistent products g := by
  rcases h with ⟨d, hd, hmem, hvalue⟩
  intro hconsistent
  exact hmem (((hconsistent _ d hd).mem_value_iff t a).mp hvalue).1

theorem ChangesAt.productData_eq (h : ChangesAt a f g g') (hproduct : g'.productOf = g.productOf)
    (hd : g.productData (g.productOf a) = some d) :
    g'.productData (g'.productOf a) = some (f d) := by
  rw [hproduct, h.productData, Function.update_self, hd]
  rfl

theorem Removed.addFileTag (h : Removed a g) (u : FileTag) :
    Removed a (g.addFileTag product a u) := by
  rcases h with ⟨d, hd, hmem⟩
  exact ⟨_, (addFileTag_changesAt product a u).productData_eq rfl hd, hmem⟩

theorem Removed.stray (h : Removed a g) : Stray a t (g.addFileTag product a t) := by
  rcases h with ⟨d, hd, hmem⟩
  exact ⟨_, (addFileTag_changesAt product a t).productData_eq rfl hd, hmem,
    ArtifactSetByFileTag.mem_value_add.mpr (Or.inr ⟨rfl, rfl⟩)⟩

theorem Stray.addFileTag (h : Stray a t g) (u : FileTag) :
    Stray a t (g.addFileTag product a u) := by
  rcases h with ⟨d, hd, hmem, hvalue⟩
  exact ⟨_, (addFileTag_changesAt product a u).productData_eq rfl hd, hmem,
    ArtifactSetByFileTag.mem_value_add.mpr (Or.inl hvalue)⟩

theorem Stray.removeFileTag (h : Stray a t g) {u : FileTag} (hu : t ≠ u) :
    Stray a t (g.removeFileTag product a u) := by
  rcases h with ⟨d, hd, hmem, hvalue⟩
  exact ⟨_, (removeFileTag_changesAt product a u).productData_eq rfl hd, hmem,
    ArtifactSetByFileTag.mem_value_take.mpr ⟨hvalue, fun h => hu h.2⟩⟩

theorem Stray.foldl_addFileTag (h : Stray a t g) (tags : List FileTag) :
    Stray a t (tags.foldl (fun g t => g.addFileTag product a t) g) := by
  induction tags generalizing g with
  | nil => exact h
  | cons u tags ih => exact ih (h.addFileTag u)

theorem Stray.foldl_removeFileTag (h : Stray a t g) {tags : List FileTag} (ht : t ∉ tags) :
    Stray a t (tags.foldl (fun g t => g.removeFileTag product a t) g) := by
  induction tags generalizing g with
  | nil => exact h
  | cons u tags ih =>
      rw [List.mem_cons, not_or] at ht
      exact ih (h.removeFileTag ht.1) ht.2

theorem Removed.foldl_addFileTag (h : Removed a g) {tags : List FileTag} (ht : t ∈ tags) :
    Stray a t (tags.foldl (fun g t => g.addFileTag product a t) g) := by
  induction tags generalizing g with
  | nil => cases ht
  | cons u tags ih =>
      rcases List.mem_cons.mp ht with rfl | ht
      · exact h.stray.foldl_addFileTag tags
      · exact ih (h.addFileTag u) ht

theorem setFileTags_linked (hlinked : Linked g) (newFileTags : FileTags) :
    Linked (g.setFileTags (products (g.productOf a)) a newFileTags) := by
  unfold BuildGraph.setFileTags
  have hframe := @foldl_addFileTag_frame g a (products (g.productOf a))
    (newFileTags.subtract (g.artifact a).fileTags).elems
  refine (@foldl_removeFileTag_spec products _ _ _ _
    (foldl_addFileTag_linked _ hlinked) ?_).1
  rw [hframe.productOf]

/-- Setting the tags keeps the build data consistent unless the artifact was removed and gets new
tags. -/
theorem setFileTags_consistent_iff (hlinked : Linked g) (hconsistent : Consistent products g)
    (hartifact : g.isArtifact a = true) (newFileTags : FileTags) :
    Consistent products (g.setFileTags (products (g.productOf a)) a newFileTags) ↔
      ∀ d, g.productData (g.productOf a) = some d →
        a ∈ d.nodes ∨ ∀ t, t ∈ newFileTags → t ∈ (g.artifact a).fileTags := by
  unfold BuildGraph.setFileTags
  dsimp only
  generalize hadded : (newFileTags.subtract (g.artifact a).fileTags).elems = added
  generalize hremoved : ((g.artifact a).fileTags.subtract newFileTags).elems = removed
  have hmemAdded (t : FileTag) :
      t ∈ added ↔ t ∈ newFileTags ∧ t ∉ (g.artifact a).fileTags := by
    rw [← hadded]
    exact SortedSet.mem_subtract
  have hmemRemoved (t : FileTag) :
      t ∈ removed ↔ t ∈ (g.artifact a).fileTags ∧ t ∉ newFileTags := by
    rw [← hremoved]
    exact SortedSet.mem_subtract
  have hframe := @foldl_addFileTag_frame g a (products (g.productOf a)) added
  have hproduct : products ((added.foldl
      (fun g' t => g'.addFileTag (products (g.productOf a)) a t) g).productOf a) =
        products (g.productOf a) := by
    rw [hframe.productOf]
  have hremove := (foldl_removeFileTag_spec removed
    (foldl_addFileTag_linked (a := a) added hlinked) hproduct).2.2
  constructor
  · intro h d hd
    by_cases hmem : a ∈ d.nodes
    · exact Or.inl hmem
    · refine Or.inr fun t ht => ?_
      by_contra hnew
      have hremoved : Removed a g := ⟨d, hd, hmem⟩
      have hstray := @Removed.foldl_addFileTag g a t (products (g.productOf a)) hremoved added
        ((hmemAdded t).mpr ⟨ht, hnew⟩)
      have hkeep : t ∉ removed := fun h => hnew ((hmemRemoved t).mp h).1
      exact (hstray.foldl_removeFileTag hkeep).not_consistent h
  · intro h
    apply hremove
    by_cases hmem : ∀ d, g.productData (g.productOf a) = some d → a ∈ d.nodes
    · exact foldl_addFileTag_spec added hlinked hconsistent hartifact rfl hmem
    · push Not at hmem
      rcases hmem with ⟨d, hd, hmem⟩
      have hnone : added = [] := by
        rw [List.eq_nil_iff_forall_not_mem]
        intro t ht
        have hnew := (hmemAdded t).mp ht
        exact hnew.2 ((h d hd).resolve_left hmem t hnew.1)
      rw [hnone]
      exact hconsistent

/-! ## Insertion and removal -/

theorem newArtifact_spec (hlinked : Linked g) (data : Artifact) :
    Linked (g.newArtifact data).1 ∧
      (Consistent products g → Consistent products (g.newArtifact data).1) := by
  have hne : ∀ p d, g.productData p = some d → ∀ b, b ∈ d.nodes ∨ b ∈ d.roots →
      b ≠ g.nextNode := by
    intro p d hd b hb heq
    have hp := hlinked.productOf p d hd b hb
    rw [heq, hlinked.fresh g.nextNode (Nat.le_refl _)] at hp
    rw [← hp, hlinked.noProduct] at hd
    cases hd
  refine ⟨⟨hlinked.noProduct, hlinked.productOf, fun b hb => hlinked.fresh b ?_⟩, ?_⟩
  · exact Nat.le_of_succ_le hb
  · intro hconsistent p d hd
    apply (hconsistent p d hd).congr
    · intro b hb
      exact Function.update_of_ne (hne p d hd b (Or.inl hb)) _ _
    · intro b hb
      show (Function.update g.artifact g.nextNode data b).fileTags = _
      rw [Function.update_of_ne (hne p d hd b (Or.inl hb))]
    · intro b _ hb hroot
      unfold BuildGraph.isArtifact at hb ⊢
      have htype : (g.newArtifact data).1.nodeType b = g.nodeType b :=
        Function.update_of_ne (hne p d hd b (Or.inr hroot)) _ _
      rwa [htype] at hb

theorem removeArtifact_changesAt :
    ChangesAt a (fun d => g.removeArtifactFromSet a
      { d with roots := d.roots.remove a, nodes := d.nodes.remove a }) g
      (g.removeArtifactFromProduct a) where
  productData := rfl
  nodeType := rfl
  fileTags _ _ := rfl

/-- Removing an artifact keeps the build data consistent. -/
theorem removeArtifact_spec (hlinked : Linked g) :
    Linked (g.removeArtifactFromProduct a) ∧
      (Consistent products g → Consistent products (g.removeArtifactFromProduct a)) := by
  constructor
  · refine hlinked.of_changesAt removeArtifact_changesAt rfl rfl fun d b hb => ?_
    rcases hb with hb | hb
    · exact Or.inl (SortedSet.mem_remove.mp hb).1
    · exact Or.inr (Or.inl (SortedSet.mem_remove.mp hb).1)
  · intro hconsistent
    rw [consistent_iff_of_changesAt hlinked hconsistent removeArtifact_changesAt]
    intro d hd
    have hindexed := hconsistent _ d hd
    refine ⟨hindexed.noEmptyEntries.foldl_take _ a, fun tag b => ?_, fun b hb => ?_⟩
    · show b ∈ ((g.artifact a).fileTags.elems.foldl (fun m tag => m.take tag a)
        d.artifactsByFileTag).value tag ↔ b ∈ d.nodes.remove a ∧ g.isArtifact b = true ∧
          tag ∈ (g.artifact b).fileTags
      rw [ArtifactSetByFileTag.mem_value_foldl_take, hindexed.mem_value_iff, SortedSet.mem_remove]
      by_cases hba : b = a
      · rw [hba]
        simp [SortedSet.mem_def]
      · simp [hba]
    · show b ∈ d.roots.remove a ↔ b ∈ d.nodes.remove a ∧
        (products (g.productOf a)).fileTags.intersects (g.artifact b).fileTags = true
      rw [SortedSet.mem_remove, SortedSet.mem_remove, hindexed.mem_roots_iff b hb]
      exact and_right_comm

/-- The graph in which an artifact that is inserted knows its product and is in the lookup table. -/
structure InsertedInto (p : ProductId) (a : NodeId) (g g' : BuildGraph) : Prop where
  noProduct : g.productOf a = ""
  productOf : g'.productOf = Function.update g.productOf a p
  productData : ∃ d, g.productData p = some d ∧ a ∉ d.nodes ∧
    g'.productData = Function.update g.productData p
      (some (g.addArtifactToSet a { d with nodes := insert a d.nodes }))
  artifact : g'.artifact = g.artifact
  nodeType : g'.nodeType = g.nodeType
  nextNode : g'.nextNode = g.nextNode

theorem perform_insertArtifact (h : perform products g (.insertArtifact p a) = .ok g') :
    InsertedInto p a g g' := by
  unfold perform BuildGraph.insertArtifact at h
  simp only [Fallible.bind_eq_ok_iff, qbsCheck_eq_ok_iff] at h
  rcases h with ⟨-, hnone, -, -, g₁, htable, hadd⟩
  rcases BuildGraph.insertIntoLookupTable_cases htable with ⟨-, rfl⟩
  rcases BuildGraph.addArtifactToProduct_cases hadd with ⟨d, hd, hnew, rfl⟩
  dsimp only at hd hnew
  rw [Function.update_self] at hd
  refine ⟨by simpa using hnone, rfl, ⟨d, hd, hnew, ?_⟩, rfl, rfl, rfl⟩
  simp only [BuildGraph.modifyProductData, Function.update_self, hd, Option.map_some]
  rfl

theorem InsertedInto.linked (h : InsertedInto p a g g') (hlinked : Linked g) (ha : a < g.nextNode) :
    Linked g' := by
  rcases h.productData with ⟨d, hd, hnew, hdata⟩
  have hp : p ≠ "" := by
    rintro rfl
    rw [hlinked.noProduct] at hd
    cases hd
  refine ⟨?_, ?_, ?_⟩
  · rw [hdata, Function.update_of_ne hp.symm]
    exact hlinked.noProduct
  · intro q d' hd' b hb
    rw [h.productOf]
    rw [hdata] at hd'
    by_cases hba : b = a
    · rw [hba, Function.update_self]
      by_contra hpq
      rw [Function.update_of_ne (Ne.symm hpq)] at hd'
      have hq := hlinked.productOf q d' hd' b hb
      rw [hba, h.noProduct] at hq
      rw [← hq, hlinked.noProduct] at hd'
      cases hd'
    · rw [Function.update_of_ne hba]
      by_cases hpq : q = p
      · rw [hpq, Function.update_self] at hd'
        rw [hpq]
        cases hd'
        refine hlinked.productOf p d hd b (hb.imp_left fun hb => ?_)
        exact (SortedSet.mem_insert.mp hb).resolve_left hba
      · rw [Function.update_of_ne hpq] at hd'
        exact hlinked.productOf q d' hd' b hb
  · intro b hb
    rw [h.nextNode] at hb
    rw [h.productOf, Function.update_of_ne (Nat.ne_of_gt (Nat.lt_of_lt_of_le ha hb))]
    exact hlinked.fresh b hb

/-- Inserting an artifact keeps the build data consistent exactly if it has no tag of the product
type. -/
theorem InsertedInto.consistent_after_iff (h : InsertedInto p a g g')
    (hconsistent : Consistent products g) (hartifact : g.isArtifact a = true) :
    Consistent products g' ↔
      (products p).fileTags.intersects (g.artifact a).fileTags = false := by
  rcases h.productData with ⟨d, hd, hnew, hdata⟩
  have hindexed := hconsistent p d hd
  have hroot : a ∉ d.roots := fun hroot => hnew ((hindexed.mem_roots_iff a hartifact).mp hroot).1
  have hkind : ∀ b, g'.isArtifact b = g.isArtifact b := by
    intro b
    unfold BuildGraph.isArtifact
    rw [h.nodeType]
  constructor
  · intro hg'
    have hown := hg' p _ (by rw [hdata, Function.update_self])
    by_contra htags
    rw [Bool.not_eq_false] at htags
    have hmem := (hown.mem_roots_iff a (by rw [hkind]; exact hartifact)).mpr
      ⟨SortedSet.mem_insert_self a d.nodes, by rw [h.artifact]; exact htags⟩
    exact hroot hmem
  · intro htags q d' hd'
    rw [hdata] at hd'
    by_cases hpq : q = p
    · rw [hpq, Function.update_self] at hd'
      rw [hpq]
      cases hd'
      refine ⟨hindexed.noEmptyEntries.foldl_add _ a, fun tag b => ?_, fun b hb => ?_⟩
      · show b ∈ ((g.artifact a).fileTags.elems.foldl (fun m tag => m.add tag a)
          d.artifactsByFileTag).value tag ↔ b ∈ insert a d.nodes ∧ _
        rw [ArtifactSetByFileTag.mem_value_foldl_add, hindexed.mem_value_iff, hkind, h.artifact,
          SortedSet.mem_insert]
        by_cases hba : b = a
        · rw [hba]
          simp [hartifact, hnew, SortedSet.mem_def]
        · simp [hba]
      · show b ∈ d.roots ↔ b ∈ insert a d.nodes ∧ _
        rw [hkind] at hb
        rw [hindexed.mem_roots_iff b hb, h.artifact, SortedSet.mem_insert]
        by_cases hba : b = a
        · rw [hba]
          simp [hnew, htags]
        · simp [hba]
    · rw [Function.update_of_ne hpq] at hd'
      apply (hconsistent q d' hd').congr
      · exact fun b _ => congrFun h.nodeType b
      · exact fun b _ => by rw [h.artifact]
      · exact fun b _ hb _ => by rwa [← hkind]

/-! ## Steps and runs -/

/-- Every call keeps the links. -/
theorem linked_step (hlinked : Linked g) {call : ArtifactCall} (h : Step products g call g') :
    Linked g' := by
  rcases h with ⟨hexists, h⟩
  cases call with
  | newArtifact data =>
      cases h
      exact (@newArtifact_spec products g hlinked data).1
  | insertArtifact p a => exact (perform_insertArtifact h).linked hlinked hexists.1
  | removeArtifact a =>
      cases h
      exact (@removeArtifact_spec products g a hlinked).1
  | addFileTag a t =>
      cases h
      exact addFileTag_linked hlinked _
  | removeFileTag a t =>
      cases h
      exact removeFileTag_linked hlinked _
  | setFileTags a newFileTags =>
      cases h
      exact setFileTags_linked hlinked newFileTags

/-- A call keeps the build data consistent exactly if it meets its condition. -/
theorem consistent_step_iff (hlinked : Linked g) (hconsistent : Consistent products g)
    {call : ArtifactCall} (h : Step products g call g') :
    Consistent products g' ↔ Meets products g call := by
  rcases h with ⟨hexists, h⟩
  cases call with
  | newArtifact data =>
      cases h
      exact iff_of_true ((newArtifact_spec hlinked data).2 hconsistent) trivial
  | insertArtifact p a =>
      exact (perform_insertArtifact h).consistent_after_iff hconsistent hexists.2
  | removeArtifact a =>
      cases h
      exact iff_of_true ((removeArtifact_spec hlinked).2 hconsistent) trivial
  | addFileTag a t =>
      cases h
      exact addFileTag_consistent_iff hlinked hconsistent hexists.2
  | removeFileTag a t =>
      cases h
      exact iff_of_true (removeFileTag_consistent hlinked hconsistent) trivial
  | setFileTags a newFileTags =>
      cases h
      exact setFileTags_consistent_iff hlinked hconsistent hexists.2 newFileTags

/-- The build data are consistent in all states of a run exactly if no artifact is inserted with a
tag of the product type, and no tag is added to an artifact that was removed. -/
theorem consistent_iff (products : ProductId → ResolvedProduct) (g : BuildGraph)
    (hlinked : Linked g) (hconsistent : Consistent products g)
    (trace : List (BuildGraph × ArtifactCall)) (g' : BuildGraph)
    (hrun : TransitionSystem.Run (Step products) g trace g') :
    ((∀ e, e ∈ trace → Consistent products e.1) ∧ Consistent products g') ↔
      ∀ e, e ∈ trace → Meets products e.1 e.2 :=
  hrun.invariant_iff _ (fun _ _ _ hl h => linked_step hl h)
    (fun _ _ _ hl hc h => consistent_step_iff hl hc h) hlinked hconsistent

/-! ## A source file with a tag of the product type -/

/-- A product of type obj. -/
def objProduct : ResolvedProduct :=
  { ResolvedProduct.create "lib" {"obj"} with projectName := "top" }

/-- The build data of the product before anything was inserted. -/
def emptyLib : BuildGraph :=
  { BuildGraph.empty with productData := Function.update (fun _ => none) "lib" (some default) }

/-- A source file with some tags. -/
def sourceFile (fileTags : FileTags) : Artifact :=
  { Artifact.create .sourceFile "/src/a.o" with fileTags := fileTags }

theorem emptyLib_productData :
    emptyLib.productData p = some d ↔ p = "lib" ∧ d = default := by
  show (Function.update (fun _ => none) "lib" (some default) : ProductId → Option ProductBuildData)
    p = some d ↔ _
  by_cases hp : p = "lib"
  · rw [hp, Function.update_self]
    simp [eq_comm]
  · rw [Function.update_of_ne hp]
    simp [hp]

theorem emptyLib_linked : Linked emptyLib where
  noProduct := by
    rw [Option.eq_none_iff_forall_ne_some]
    intro d hd
    exact absurd (emptyLib_productData.mp hd).1 (by decide)
  productOf p d hd a ha := by
    rw [(emptyLib_productData.mp hd).2] at ha
    exact absurd ha (by simp [default])
  fresh _ _ := rfl

theorem emptyLib_consistent (products : ProductId → ResolvedProduct) :
    Consistent products emptyLib := by
  intro p d hd
  rw [(emptyLib_productData.mp hd).2]
  refine ⟨fun tag s hs => ?_, fun tag a => ?_, fun a _ => ?_⟩
  · cases hs
  · simp [default, ArtifactSetByFileTag.value]
  · simp [default]

theorem newArtifact_step (fileTags : FileTags) :
    Step (fun _ => objProduct) emptyLib (.newArtifact (sourceFile fileTags))
      (emptyLib.newArtifact (sourceFile fileTags)).1 :=
  ⟨trivial, rfl⟩

theorem insertArtifact_step (fileTags : FileTags) :
    ∃ g', Step (fun _ => objProduct) (emptyLib.newArtifact (sourceFile fileTags)).1
      (.insertArtifact "lib" 0) g' :=
  ⟨_, ⟨Nat.zero_lt_one, rfl⟩, rfl⟩

/-- A source file that has the tag of the product type when it is inserted is no root node. -/
theorem sourceFile_not_root :
    ¬∀ products g, Linked g → Consistent products g → ∀ trace g',
      TransitionSystem.Run (Step products) g trace g' → Consistent products g' := by
  intro h
  have hnew := newArtifact_step {"obj"}
  rcases insertArtifact_step {"obj"} with ⟨g', hinsert⟩
  have hrun := (TransitionSystem.Run.nil.snoc hnew).snoc hinsert
  have hstart := emptyLib_consistent fun _ => objProduct
  have hconsistent := (consistent_step_iff emptyLib_linked hstart hnew).mpr trivial
  have hmeets := (consistent_step_iff (linked_step emptyLib_linked hnew) hconsistent hinsert).mp
    (h _ _ emptyLib_linked hstart _ _ hrun)
  exact absurd (show objProduct.fileTags.intersects {"obj"} = false from hmeets) (by decide)

/-- A source file with another tag. -/
theorem consistent_iff_sourceFile :
    ∃ trace g', TransitionSystem.Run (Step fun _ => objProduct) emptyLib trace g' ∧
      trace.map Prod.snd = [.newArtifact (sourceFile {"cpp"}), .insertArtifact "lib" 0] ∧
      (((∀ e, e ∈ trace → Consistent (fun _ => objProduct) e.1) ∧
        Consistent (fun _ => objProduct) g') ↔
          ∀ e, e ∈ trace → Meets (fun _ => objProduct) e.1 e.2) := by
  have hnew := newArtifact_step {"cpp"}
  rcases insertArtifact_step {"cpp"} with ⟨g', hinsert⟩
  have hrun := (TransitionSystem.Run.nil.snoc hnew).snoc hinsert
  exact ⟨_, _, hrun, rfl, consistent_iff _ _ emptyLib_linked (emptyLib_consistent _) _ _ hrun⟩

end FileTagMap

end Qbs
