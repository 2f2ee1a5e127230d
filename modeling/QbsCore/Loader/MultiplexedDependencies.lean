import QbsCore.Loader.MultiplexedItems

/-!
# Dependencies on multiplexed products

A dependency on a product with several variants has to say which variants it is on.  A
product that is multiplexed itself gets the variant with its own configuration, or the
one that does not contradict it.

Main results:

- Theorem {lit}`ScriptValues.multiplexConfigurationIntersects_iff`: two configurations
  agree on their common properties.
- Theorem {lit}`ScriptValues.adjust_eq_chooseVariant`: which variant is chosen.
- Theorem {lit}`ScriptValues.multiplexing_right`: what holds of the products of all
  product items and of the dependencies between them.

Current gaps:

- Texts of errors are given by the products they name.
-/

namespace Qbs

open CompactJson

variable {Number : Type}

/-- A product that may have been multiplexed, with the addresses of its item and of the parent of
its item. -/
structure MultiplexedProduct extends ProductKey where
  profileName : String
  item : Nat
  parent : Option Nat
deriving DecidableEq

/-- Why a dependency cannot be adjusted: a check fails, no variant is eligible, or several are. -/
inductive AdjustError where
  | checkFailed
  | notFulfilled (product : ProductKey) (name : String)
  | ambiguous (product : ProductKey) (name : String) (candidates : List ProductKey)
deriving DecidableEq

/-- The ids that the loop over the variants has found: those of one variant that is certain, or of
all that are eligible. -/
inductive MultiplexIds where
  | certain (id : String)
  | eligible (ids : List String)

def shadowProductPrefix : String := "__shadow__"

/-- Whether a product stands for the product with a name. -/
def MultiplexedProduct.isShadowProductOf (p : MultiplexedProduct) (name : String) : Bool :=
  p.name = shadowProductPrefix ++ name

/-- The configuration that belongs to an id. -/
def multiplexIdToVariantMap (byId : MultiplexConfigurationsById Number) (multiplexId : String) :
    Except AdjustError (MultiplexConfiguration Number) :=
  if multiplexId = "" then pure ∅
  else
    let result := (byId.lookup multiplexId).getD ∅
    if result.entries.isEmpty then throw .checkFailed else pure result

namespace ScriptValues

variable (values : ScriptValues Number)

/-- Whether no property has different values in two configurations. -/
def agree (lhs rhs : MultiplexConfiguration Number) : Bool :=
  lhs.entries.all fun e => (rhs.lookup e.1).all fun v => values.equal e.2 v

def multiplexConfigurationIntersects (lhs rhs : MultiplexConfiguration Number) :
    Except AdjustError Bool :=
  if lhs.entries.isEmpty || rhs.entries.isEmpty then throw .checkFailed
  else pure (values.agree lhs rhs)

variable (byId : MultiplexConfigurationsById Number) (product : MultiplexedProduct)
  (d : DependsDeclaration) (productMultiplexConfig : MultiplexConfiguration Number)

/-- Go through the variants. -/
def collectMultiplexIds : List MultiplexedProduct → List String → Except AdjustError MultiplexIds
  | [], multiplexIds => pure (.eligible multiplexIds)
  | dependency :: dependencies, multiplexIds =>
      if product.isShadowProductOf d.name && product.parent = some dependency.item then
        pure (.certain dependency.multiplexConfigurationId)
      else if product.multiplexConfigurationId ≠ "" && d.profiles.isNone then
        if dependency.multiplexConfigurationId = product.multiplexConfigurationId then
          pure (.certain product.multiplexConfigurationId)
        else do
          -- Collect the variant and decide later.
          let config ← multiplexIdToVariantMap byId dependency.multiplexConfigurationId
          let intersects ← values.multiplexConfigurationIntersects config productMultiplexConfig
          collectMultiplexIds dependencies
            (if intersects then multiplexIds ++ [dependency.multiplexConfigurationId]
              else multiplexIds)
      else
        let profiles := d.profiles.getD []
        let profileMatch := profiles.isEmpty || profiles.contains dependency.profileName
        collectMultiplexIds dependencies
          (if profileMatch then multiplexIds ++ [dependency.multiplexConfigurationId]
            else multiplexIds)

/-- Set the ids that were found, if there are some and not too many. -/
def setMultiplexIds : MultiplexIds → Except AdjustError DependsDeclaration
  | .certain id => pure { d with multiplexConfigurationIds := some [id] }
  | .eligible multiplexIds =>
      if multiplexIds.isEmpty then throw (.notFulfilled product.toProductKey d.name)
      else if product.multiplexConfigurationId ≠ "" && d.profiles.isNone &&
          decide (1 < multiplexIds.length) then
        throw (.ambiguous product.toProductKey d.name (multiplexIds.map fun id => ⟨d.name, id⟩))
      else pure { d with multiplexConfigurationIds := some multiplexIds }

/-- Say on which of the products with its name a dependency is. -/
def adjustDependenciesForMultiplexing (productRange : List MultiplexedProduct) :
    Except AdjustError DependsDeclaration :=
  let productIsMultiplexed := decide (product.multiplexConfigurationId ≠ "")
  if d.name = product.name then
    -- This product must be an aggregator.
    if productIsMultiplexed then throw .checkFailed else pure d
  else
    let multiplexedDependencies := productRange.filter fun p => p.multiplexConfigurationId ≠ ""
    let hasNonMultiplexedDependency := productRange.any fun p => p.multiplexConfigurationId = ""
    if multiplexedDependencies.isEmpty then pure d
    else if !productIsMultiplexed && hasNonMultiplexedDependency && d.profiles.isNone then pure d
    else do
      let config ← multiplexIdToVariantMap byId product.multiplexConfigurationId
      let multiplexIds ← values.collectMultiplexIds byId product d config multiplexedDependencies []
      setMultiplexIds product d multiplexIds

/-! ## The variant that is chosen -/

variable {values byId product d}

/-- The configuration that is stored for the id of a product. -/
def configurationOf (byId : MultiplexConfigurationsById Number) (p : MultiplexedProduct) :
    MultiplexConfiguration Number :=
  (byId.lookup p.multiplexConfigurationId).getD ∅

/-- A product with an id for which a configuration is stored. -/
structure HasConfiguration (byId : MultiplexConfigurationsById Number) (p : MultiplexedProduct) :
    Prop where
  hasId : p.multiplexConfigurationId ≠ ""
  nonempty : (configurationOf byId p).entries ≠ []

theorem multiplexIdToVariantMap_eq {p : MultiplexedProduct} (hp : HasConfiguration byId p) :
    multiplexIdToVariantMap byId p.multiplexConfigurationId = .ok (configurationOf byId p) := by
  unfold multiplexIdToVariantMap
  rw [if_neg hp.hasId]
  dsimp only
  rw [if_neg (by simpa [configurationOf] using hp.nonempty)]
  rfl

theorem multiplexConfigurationIntersects_eq {p q : MultiplexedProduct}
    (hp : HasConfiguration byId p) (hq : HasConfiguration byId q) :
    values.multiplexConfigurationIntersects (configurationOf byId p) (configurationOf byId q) =
      .ok (values.agree (configurationOf byId p) (configurationOf byId q)) := by
  unfold multiplexConfigurationIntersects
  rw [if_neg (by simpa using ⟨hp.nonempty, hq.nonempty⟩)]
  rfl

/-- The variants that agree with a product. -/
def agreeing (values : ScriptValues Number) (byId : MultiplexConfigurationsById Number)
    (product : MultiplexedProduct) (range : List MultiplexedProduct) : List MultiplexedProduct :=
  range.filter fun v => values.agree (configurationOf byId v) (configurationOf byId product)

/-- The variant with the same id, or else the one that agrees. -/
def chooseVariant (values : ScriptValues Number) (byId : MultiplexConfigurationsById Number)
    (product : MultiplexedProduct) (d : DependsDeclaration) (range : List MultiplexedProduct) :
    Except AdjustError DependsDeclaration :=
  if range.any fun v => v.multiplexConfigurationId = product.multiplexConfigurationId then
    .ok { d with multiplexConfigurationIds := some [product.multiplexConfigurationId] }
  else
    match values.agreeing byId product range with
    | [] => .error (.notFulfilled product.toProductKey d.name)
    | [v] => .ok { d with multiplexConfigurationIds := some [v.multiplexConfigurationId] }
    | vs => .error (.ambiguous product.toProductKey d.name
        (vs.map fun v => ⟨d.name, v.multiplexConfigurationId⟩))

/-- A dependency of a multiplexed product for which a variant has to be chosen. -/
structure NeedsVariant (byId : MultiplexConfigurationsById Number) (product : MultiplexedProduct)
    (d : DependsDeclaration) (range : List MultiplexedProduct) : Prop where
  multiplexed : HasConfiguration byId product
  otherName : d.name ≠ product.name
  noProfiles : d.profiles = none
  notShadow : product.isShadowProductOf d.name = false
  variants : ∀ v, v ∈ range → HasConfiguration byId v
  nonempty : range ≠ []

variable {range : List MultiplexedProduct} {p : MultiplexProperties Number}

/-- The loop ends with the variant that has the id of the product, or with all that agree. -/
theorem collectMultiplexIds_eq (h : NeedsVariant byId product d range)
    {variants : List MultiplexedProduct} (hvariants : ∀ v, v ∈ variants → v ∈ range)
    (multiplexIds : List String) :
    values.collectMultiplexIds byId product d (configurationOf byId product) variants
        multiplexIds =
      .ok (if variants.any fun v => v.multiplexConfigurationId = product.multiplexConfigurationId
        then .certain product.multiplexConfigurationId
        else .eligible (multiplexIds ++ (values.agreeing byId product variants).map fun v =>
          v.multiplexConfigurationId)) := by
  induction variants generalizing multiplexIds with
  | nil => simp [collectMultiplexIds, agreeing, pure, Except.pure]
  | cons v variants ih =>
      have hv := h.variants v (hvariants v List.mem_cons_self)
      unfold collectMultiplexIds
      rw [h.notShadow, Bool.false_and, if_neg Bool.false_ne_true, if_pos (by simp [h.multiplexed.hasId, h.noProfiles])]
      by_cases hid : v.multiplexConfigurationId = product.multiplexConfigurationId
      · rw [if_pos hid, List.any_cons, if_pos (by simp [hid])]
        rfl
      · have hany : ((v :: variants).any fun v =>
            v.multiplexConfigurationId = product.multiplexConfigurationId) =
              variants.any fun v =>
                v.multiplexConfigurationId = product.multiplexConfigurationId := by
          simp [hid]
        have hagreeing : (if values.agree (configurationOf byId v) (configurationOf byId product)
            then multiplexIds ++ [v.multiplexConfigurationId] else multiplexIds) ++
              (values.agreeing byId product variants).map (fun v => v.multiplexConfigurationId) =
            multiplexIds ++ (values.agreeing byId product (v :: variants)).map fun v =>
              v.multiplexConfigurationId := by
          unfold agreeing
          rw [List.filter_cons]
          split_ifs <;> simp
        rw [if_neg hid, multiplexIdToVariantMap_eq hv, hany, ← hagreeing]
        show (do
          let intersects ← values.multiplexConfigurationIntersects (configurationOf byId v)
            (configurationOf byId product)
          values.collectMultiplexIds byId product d (configurationOf byId product) variants
            (if intersects then multiplexIds ++ [v.multiplexConfigurationId]
              else multiplexIds)) = _
        rw [multiplexConfigurationIntersects_eq hv h.multiplexed]
        exact ih (fun w hw => hvariants w (List.mem_cons_of_mem _ hw)) _

/-- Which variant is chosen. -/
theorem adjust_eq_chooseVariant (h : NeedsVariant byId product d range) :
    values.adjustDependenciesForMultiplexing byId product d range =
      values.chooseVariant byId product d range := by
  have hfilter : (range.filter fun p => p.multiplexConfigurationId ≠ "") = range := by
    rw [List.filter_eq_self]
    intro v hv
    simpa using (h.variants v hv).hasId
  have hcollect := @collectMultiplexIds_eq _ values byId product d range h range
    (fun v hv => hv) []
  unfold adjustDependenciesForMultiplexing
  dsimp only
  rw [hfilter, if_neg h.otherName, if_neg (by simpa using h.nonempty),
    if_neg (by simp [h.multiplexed.hasId]), multiplexIdToVariantMap_eq h.multiplexed]
  show (values.collectMultiplexIds byId product d (configurationOf byId product) range [] >>=
    setMultiplexIds product d) = _
  rw [hcollect]
  unfold chooseVariant
  by_cases hany : range.any fun v => v.multiplexConfigurationId = product.multiplexConfigurationId
  · rw [if_pos hany, if_pos hany]
    rfl
  · rw [if_neg hany, if_neg hany]
    show setMultiplexIds product d (.eligible _) = _
    unfold setMultiplexIds
    cases hagreeing : values.agreeing byId product range with
    | nil => rfl
    | cons v vs =>
        cases vs with
        | nil => simp [pure, Except.pure]
        | cons w vs =>
            simp [h.multiplexed.hasId, h.noProfiles, throw, throwThe, MonadExceptOf.throw]

/-- Two results are the same up to the order in which an error names the candidates. -/
inductive SameOutcome :
    Except AdjustError DependsDeclaration → Except AdjustError DependsDeclaration → Prop where
  | same (r) : SameOutcome r r
  | ambiguous (product name) {candidates candidates' : List ProductKey}
      (h : candidates.Perm candidates') :
      SameOutcome (.error (.ambiguous product name candidates))
        (.error (.ambiguous product name candidates'))

/-- The order of the variants does not matter. -/
theorem chooseVariant_perm {range' : List MultiplexedProduct} (h : range.Perm range') :
    SameOutcome (values.chooseVariant byId product d range)
      (values.chooseVariant byId product d range') := by
  have hany : (range.any fun v =>
      v.multiplexConfigurationId = product.multiplexConfigurationId) =
        range'.any fun v => v.multiplexConfigurationId = product.multiplexConfigurationId :=
    h.any_eq
  have hagreeing : (values.agreeing byId product range).Perm
      (values.agreeing byId product range') := h.filter _
  unfold chooseVariant
  rw [hany]
  split_ifs with hcertain
  · exact SameOutcome.same _
  · generalize values.agreeing byId product range = l at hagreeing
    generalize values.agreeing byId product range' = l' at hagreeing
    cases l with
    | nil =>
        rw [hagreeing.nil_eq]
        exact SameOutcome.same _
    | cons v l =>
        cases l with
        | nil =>
            rw [List.singleton_perm.mp hagreeing]
            exact SameOutcome.same _
        | cons w l =>
            cases l' with
            | nil => exact absurd hagreeing.eq_nil (by simp)
            | cons v' l' =>
                cases l' with
                | nil => exact absurd (List.perm_singleton.mp hagreeing) (by simp)
                | cons w' l' => exact SameOutcome.ambiguous _ _ (hagreeing.map _)

/-- What holds of a dependency for which a variant has to be chosen: it goes to the variant with
the id of the product if there is one, otherwise to the only variant that agrees with the product
on their common properties, and it is an error if there is none or more than one. -/
structure DependencyRight (values : ScriptValues Number)
    (byId : MultiplexConfigurationsById Number) (product : MultiplexedProduct)
    (d : DependsDeclaration) (range : List MultiplexedProduct) : Prop where
  certain : (∃ v, v ∈ range ∧ v.multiplexConfigurationId = product.multiplexConfigurationId) →
    values.adjustDependenciesForMultiplexing byId product d range =
      .ok { d with multiplexConfigurationIds := some [product.multiplexConfigurationId] }
  single : (∀ v, v ∈ range → v.multiplexConfigurationId ≠ product.multiplexConfigurationId) →
    ∀ v, values.agreeing byId product range = [v] →
      values.adjustDependenciesForMultiplexing byId product d range =
        .ok { d with multiplexConfigurationIds := some [v.multiplexConfigurationId] }
  notFulfilled : (∀ v, v ∈ range →
      v.multiplexConfigurationId ≠ product.multiplexConfigurationId) →
    values.agreeing byId product range = [] →
      values.adjustDependenciesForMultiplexing byId product d range =
        .error (.notFulfilled product.toProductKey d.name)
  ambiguous : (∀ v, v ∈ range → v.multiplexConfigurationId ≠ product.multiplexConfigurationId) →
    1 < (values.agreeing byId product range).length →
      values.adjustDependenciesForMultiplexing byId product d range =
        .error (.ambiguous product.toProductKey d.name ((values.agreeing byId product range).map
          fun v => ⟨d.name, v.multiplexConfigurationId⟩))
  order : ∀ range', range.Perm range' →
    SameOutcome (values.adjustDependenciesForMultiplexing byId product d range)
      (values.adjustDependenciesForMultiplexing byId product d range')

theorem dependencyRight (h : NeedsVariant byId product d range) :
    DependencyRight values byId product d range where
  certain := by
    intro hcertain
    rw [adjust_eq_chooseVariant h]
    unfold chooseVariant
    rw [if_pos (by simpa using hcertain)]
  single := by
    intro hnone v hv
    rw [adjust_eq_chooseVariant h]
    unfold chooseVariant
    rw [if_neg (by simpa using hnone), hv]
  notFulfilled := by
    intro hnone hv
    rw [adjust_eq_chooseVariant h]
    unfold chooseVariant
    rw [if_neg (by simpa using hnone), hv]
  ambiguous := by
    intro hnone hlength
    rw [adjust_eq_chooseVariant h]
    unfold chooseVariant
    rw [if_neg (by simpa using hnone)]
    generalize values.agreeing byId product range = l at hlength
    cases l with
    | nil => cases hlength
    | cons v l =>
        cases l with
        | nil => exact absurd hlength (by simp)
        | cons w l => rfl
  order := by
    intro range' hperm
    have h' : NeedsVariant byId product d range' :=
      { h with
        variants := fun v hv => h.variants v (hperm.mem_iff.mpr hv)
        nonempty := by
          intro hnil
          rw [hnil] at hperm
          exact h.nonempty hperm.eq_nil }
    rw [adjust_eq_chooseVariant h, adjust_eq_chooseVariant h']
    exact chooseVariant_perm hperm

/-! ## All products -/

/-- What holds of the items of a product: the table has all combinations of the values of those
properties that have some, each row has an item with exactly its values, and the ids and the
unique names differ. -/
structure ItemsRight (values : ScriptValues Number) (byId : MultiplexConfigurationsById Number)
    (p : MultiplexProperties Number) (d : ProductDeclaration Number)
    (items : List (MultiplexedItem Number)) : Prop where
  table : ∀ row, row ∈ p.info.table ↔ p.info.properties ≠ [] ∧
    List.Forall₂ (fun v vs => v ∈ vs) row (p.entries.map Prod.snd)
  rowsDiffer : p.info.table.Nodup
  rows : p.info.table ≠ [] → ∃ rowItems,
    items = rowItems ++ (if p.aggregate then [p.info.aggregator values.toNumberText d] else []) ∧
      List.Forall₂ (IsItemOfRow values.toNumberText p.info d) p.info.table rowItems
  noRows : p.info.table = [] → items = p.info.initialItem d ::
    if p.aggregate then [p.info.aggregator values.toNumberText d] else []
  idsDiffer : (p.info.table.map (p.info.toIdString values.toNumberText)).Nodup
  uniqueNamesDiffer : p.info.table ≠ [] ∨ p.aggregate = false →
    (items.map fun item => uniqueNameOf item.name item.multiplexConfigurationId).Nodup
  stored : ∀ row, row ∈ p.info.table →
    ∃ m, byId.lookup (p.info.toIdString values.toNumberText row) = some m ∧
      ∀ key v, m.lookup key = some v ↔ (key, v) ∈ p.info.properties.zip row

theorem itemsRight {p : MultiplexProperties Number} (hp : p.Accepted values)
    (hfinite : p.Finite values.toNumberText) (hright : ConfigurationsRight values.toNumberText byId)
    (hstored : ∀ row, row ∈ p.info.table →
      (byId.lookup (p.info.toIdString values.toNumberText row)).isSome)
    (d : ProductDeclaration Number) :
    ItemsRight values byId p d (p.info.multiplexProductItem values.toNumberText d) := by
  have hwell := p.wellFormed_info hp hfinite
  have hvalues : ∀ row, row ∈ p.info.table → ∀ v, v ∈ row → v.isFinite values.toNumberText :=
    fun row hrow v hv => MultiplexProperties.isFinite_of_mem_table hfinite hrow hv
  exact {
    table := fun row => MultiplexProperties.mem_table_iff
    rowsDiffer := hwell.table
    rows := fun htable => ⟨_, rfl, MultiplexInfo.forall₂_rowItems hwell d htable⟩
    noRows := by
      intro htable
      unfold MultiplexInfo.multiplexProductItem MultiplexInfo.rowItems
      rw [htable]
      rfl
    idsDiffer := MultiplexInfo.nodup_toIdString hwell hvalues
    uniqueNamesDiffer := MultiplexInfo.nodup_uniqueNames hwell hvalues d
    stored := by
      intro row hrow
      rcases Option.isSome_iff_exists.mp (hstored row hrow) with ⟨m, hm⟩
      exact ⟨m, hm, MultiplexInfo.lookup_of_right hwell.properties (hwell.rows row hrow)
        (hvalues row hrow) hright hm⟩ }

variable {items : List (MultiplexedItem Number)}

/-- A row has a value for some property. -/
theorem exists_mem_zip {d : ProductDeclaration Number} (hright : ItemsRight values byId p d items)
    {row : MultiplexRow Number} (hrow : row ∈ p.info.table) :
    ∃ key v, (key, v) ∈ p.info.properties.zip row := by
  have htable := (hright.table row).mp hrow
  have hlength : row.length = p.info.properties.length := by
    rw [htable.2.length_eq]
    simp [MultiplexProperties.info]
  cases hproperties : p.info.properties with
  | nil => exact absurd hproperties htable.1
  | cons key keys =>
      cases row with
      | nil =>
          rw [hproperties] at hlength
          cases hlength
      | cons v row => exact ⟨key, v, List.mem_cons_self⟩

/-- A product with an id comes from a row, and the configuration of the row is stored. -/
theorem hasConfiguration {d : ProductDeclaration Number} (hright : ItemsRight values byId p d items)
    {item : MultiplexedItem Number} (hitem : item ∈ items)
    (hid : item.multiplexConfigurationId = product.multiplexConfigurationId)
    (hne : product.multiplexConfigurationId ≠ "") : HasConfiguration byId product := by
  refine ⟨hne, ?_⟩
  have haggregator : item ∉ (if p.aggregate then [p.info.aggregator values.toNumberText d]
      else []) := by
    intro hmem
    split_ifs at hmem
    · rw [List.mem_singleton.mp hmem] at hid
      exact hne hid.symm
    · cases hmem
  by_cases htable : p.info.table = []
  · rw [hright.noRows htable] at hitem
    rcases List.mem_cons.mp hitem with rfl | hitem
    · exact absurd hid.symm hne
    · exact absurd hitem haggregator
  · rcases hright.rows htable with ⟨rowItems, rfl, hforall⟩
    have hrowItem := (List.mem_append.mp hitem).resolve_right haggregator
    rcases List.mem_iff_getElem.mp hrowItem with ⟨i, hi, rfl⟩
    have hi' : i < p.info.table.length := hforall.length_eq ▸ hi
    have hof : IsItemOfRow values.toNumberText p.info d p.info.table[i] rowItems[i] :=
      hforall.get hi' hi
    have hidRow := hof.multiplexConfigurationId
    rw [hid] at hidRow
    split_ifs at hidRow
    · have hrow : p.info.table[i] ∈ p.info.table := List.getElem_mem hi'
      rcases hright.stored _ hrow with ⟨m, hm, hlookup⟩
      rcases exists_mem_zip hright hrow with ⟨key, v, hmem⟩
      have hconfiguration : configurationOf byId product = m := by
        unfold configurationOf
        rw [hidRow, hm]
        rfl
      rw [hconfiguration]
      exact List.ne_nil_of_mem (AList.mem_lookup_iff.mp ((hlookup key v).mpr hmem))
    · exact absurd hidRow hne

/-- A product that was made from one of some items. -/
def IsLoaded (items : List (List (MultiplexedItem Number))) (product : MultiplexedProduct) : Prop :=
  ∃ l, l ∈ items ∧ ∃ item, item ∈ l ∧ item.name = product.name ∧
    item.multiplexConfigurationId = product.multiplexConfigurationId

/-- Multiplexing succeeds exactly if the multiplexing properties of all products are all right.
The items of each product are then the right ones, and so are the dependencies of multiplexed
products on products that have multiplexed variants only. -/
theorem multiplexing_right (values : ScriptValues Number)
    (products : List (MultiplexProperties Number × ProductDeclaration Number))
    (hfinite : ∀ s, s ∈ products → s.1.Finite values.toNumberText) :
    ((∃ result, values.multiplexProducts ∅ products = .ok result) ↔
      ∀ s, s ∈ products → s.1.Accepted values) ∧
    ∀ items byId, values.multiplexProducts ∅ products = .ok (items, byId) →
      List.Forall₂ (fun s l => ItemsRight values byId s.1 s.2 l) products items ∧
      ∀ (product : MultiplexedProduct) (d : DependsDeclaration) (range : List MultiplexedProduct),
        IsLoaded items product → product.multiplexConfigurationId ≠ "" →
        product.isShadowProductOf d.name = false → d.profiles = none → d.name ≠ product.name →
        range ≠ [] → (∀ v, v ∈ range → IsLoaded items v ∧ v.multiplexConfigurationId ≠ "") →
        DependencyRight values byId product d range := by
  constructor
  · constructor
    · intro h
      rcases h with ⟨⟨items, byId⟩, hload⟩
      have hspec := multiplexProducts_spec hfinite (configurationsRight_empty _) hload
      exact ((List.forall₂_and_left _ _).mp hspec.1).1
    · intro h
      exact values.multiplexProducts_total h ∅
  · intro items byId hload
    have hspec := multiplexProducts_spec hfinite (configurationsRight_empty _) hload
    have hitems : List.Forall₂ (fun s l => ItemsRight values byId s.1 s.2 l) products items := by
      have hall := (List.forall₂_and_left products items).mpr
        ⟨fun s (hs : s ∈ products) => hs, hspec.1⟩
      apply hall.imp
      rintro s l ⟨hs, haccepted, rfl⟩
      exact itemsRight haccepted (hfinite s hs) hspec.2.1
        (fun row hrow => hspec.2.2 _ (Or.inr ⟨s, hs, row, hrow, rfl⟩)) s.2
    refine ⟨hitems, ?_⟩
    intro product d range hproduct hid hshadow hprofiles hname hrange hvariants
    have hconfiguration : ∀ p, IsLoaded items p → p.multiplexConfigurationId ≠ "" →
        HasConfiguration byId p := by
      intro p hp hne
      rcases hp with ⟨l, hl, item, hitem, -, hitemId⟩
      rcases List.mem_iff_getElem.mp hl with ⟨i, hi, rfl⟩
      have hi' : i < products.length := hitems.length_eq ▸ hi
      exact hasConfiguration (hitems.get hi' hi) hitem hitemId hne
    exact dependencyRight {
      multiplexed := hconfiguration product hproduct hid
      otherName := hname
      noProfiles := hprofiles
      notShadow := hshadow
      variants := fun v hv => hconfiguration v (hvariants v hv).1 (hvariants v hv).2
      nonempty := hrange }

end ScriptValues

/-! ## A sample -/

/-- Some numbers. -/
inductive SampleNumber where
  | zero
  | one
  | infinity
  | minusInfinity
deriving DecidableEq

/-- Comparing values of different types converts the second one to the type of the first. -/
def sampleEqual : Scalar SampleNumber → Scalar SampleNumber → Bool
  | .bool b, .string s => b = decide (s ≠ "" ∧ s ≠ "0" ∧ s ≠ "false")
  | .string s, .bool b => s = if b then "true" else "false"
  | .number n, .bool b | .bool b, .number n => n = if b then .one else .zero
  | .number n, .string s | .string s, .number n =>
      (s = "0" && n = .zero) || (s = "1" && n = .one)
  | v, w => v = w

def sampleValues : ScriptValues SampleNumber where
  isFinite n := n = .zero ∨ n = .one
  text n := if n = .zero then ['0'] else ['1']
  text_injective := by
    intro m n hm hn h
    cases m <;> cases n <;> simp_all
  text_chars := by
    intro n hn ch hch
    have hdigit : ch = '0' ∨ ch = '1' := by
      split at hch
      · exact Or.inl (List.mem_singleton.mp hch)
      · exact Or.inr (List.mem_singleton.mp hch)
    rcases hdigit with rfl | rfl <;> decide +kernel
  text_ne_nil := by
    intro n hn
    cases n <;> decide
  equal := sampleEqual
  equal_self := by
    intro v hv
    cases v <;> simp [sampleEqual]

/-- The properties of a product that is multiplexed over some qbs properties. -/
def sampleProperties (keys : List String) (aggregate : Bool) :
    MultiplexProperties SampleNumber where
  multiplexByQbsProperties := keys
  multiplexMap
    | "profiles" => "profile"
    | "architectures" => "architecture"
    | "buildVariants" => "buildVariant"
    | "levels" => "level"
    | "flags" => "flag"
    | _ => ""
  qbsProperty
    | "architectures" => .array [.string "arm", .string "x86"]
    | "buildVariants" => .array [.string "debug", .string "release"]
    | "levels" => .array [.number .infinity, .number .minusInfinity]
    | "flags" => .array [.bool true, .string "abc"]
    | "profiles" => .array []
    | _ => .undefined
  aggregate := aggregate
  multiplexedType := ""

def sampleDeclaration (name : String) : ProductDeclaration SampleNumber :=
  ⟨name, name, [], ∅, []⟩

/-- The product of a row. -/
def sampleProduct (name : String) (keys : List String) (row : MultiplexRow SampleNumber) :
    MultiplexedProduct :=
  ⟨⟨name, (sampleProperties keys false).info.toIdString sampleValues.toNumberText row⟩, "", 0, none⟩

example : (sampleProperties ["profiles", "architectures", "buildVariants"] false).info.table =
    [[.string "arm", .string "debug"], [.string "arm", .string "release"],
      [.string "x86", .string "debug"], [.string "x86", .string "release"]] := by
  rfl

theorem sampleProperties_finite (keys : List String) (aggregate : Bool)
    (hkeys : keys ⊆ ["architectures", "buildVariants"]) :
    (sampleProperties keys aggregate).Finite sampleValues.toNumberText := by
  intro key hkey vs hvs v hv
  have hkey' := hkeys hkey
  simp only [List.mem_cons, List.not_mem_nil, or_false] at hkey'
  rcases hkey' with rfl | rfl <;> cases hvs <;>
    · simp only [List.mem_cons, List.not_mem_nil, or_false] at hv
      rcases hv with rfl | rfl <;> trivial

/-- Two products that are multiplexed over architectures, one of them over build variants too, are
accepted. -/
theorem multiplexing_right_sampleProperties :
    ∃ result, sampleValues.multiplexProducts ∅
      [(sampleProperties ["architectures"] false, sampleDeclaration "app"),
        (sampleProperties ["architectures", "buildVariants"] false, sampleDeclaration "lib")] =
      .ok result := by
  refine (ScriptValues.multiplexing_right sampleValues _ ?_).1.mpr ?_
  · intro s hs
    simp only [List.mem_cons, List.not_mem_nil, or_false] at hs
    rcases hs with rfl | rfl <;> exact sampleProperties_finite _ _ (by simp)
  · intro s hs
    simp only [List.mem_cons, List.not_mem_nil, or_false] at hs
    rcases hs with rfl | rfl <;>
      exact (extractMultiplexInfo_eq_ok_iff.mp rfl).1

/-- What is stored for the products app and lib, of which lib is multiplexed over one more
property. -/
def sampleById : MultiplexConfigurationsById SampleNumber :=
  (sampleProperties ["architectures", "buildVariants"] false).info.register
    sampleValues.toNumberText
    ((sampleProperties ["architectures"] false).info.register sampleValues.toNumberText ∅)

/-- A property with an empty list is skipped, different values of different types may compare as
equal, infinite numbers have the same text, an aggregator without rows has the name of the product,
a multiplexed product must not depend on itself, and an error names the candidates in the order in
which they are listed. -/
theorem sampleMultiplexing_differs :
    (¬∀ row, row ∈ (sampleProperties ["profiles", "architectures"] false).info.table ↔
      List.Forall₂ (fun v vs => v ∈ vs) row [[], [.string "arm", .string "x86"]]) ∧
    (∀ info, sampleValues.extractMultiplexInfo (sampleProperties ["flags"] false) ≠ .ok info) ∧
    (sampleProperties ["levels"] false).info.toIdString sampleValues.toNumberText
        [.number .infinity] =
      (sampleProperties ["levels"] false).info.toIdString sampleValues.toNumberText
        [.number .minusInfinity] ∧
    (¬(((sampleProperties [] true).info.multiplexProductItem sampleValues.toNumberText
      (sampleDeclaration "app")).map fun item =>
        uniqueNameOf item.name item.multiplexConfigurationId).Nodup) ∧
    sampleValues.adjustDependenciesForMultiplexing sampleById
        (sampleProduct "app" ["architectures"] [.string "arm"]) ⟨"app", none, none, none⟩
        [sampleProduct "app" ["architectures"] [.string "arm"]] = .error .checkFailed ∧
    sampleValues.adjustDependenciesForMultiplexing sampleById
        (sampleProduct "app" ["architectures"] [.string "arm"]) ⟨"lib", none, none, none⟩
        [sampleProduct "lib" ["architectures", "buildVariants"] [.string "arm", .string "debug"],
          sampleProduct "lib" ["architectures", "buildVariants"]
            [.string "arm", .string "release"]] ≠
      sampleValues.adjustDependenciesForMultiplexing sampleById
        (sampleProduct "app" ["architectures"] [.string "arm"]) ⟨"lib", none, none, none⟩
        [sampleProduct "lib" ["architectures", "buildVariants"] [.string "arm", .string "release"],
          sampleProduct "lib" ["architectures", "buildVariants"]
            [.string "arm", .string "debug"]] := by
  refine ⟨?_, ?_, ?_, ?_, ?_, ?_⟩
  · intro h
    have hrow := (h [.string "arm"]).mp (by decide)
    cases hrow with
    | cons hv _ => cases hv
  · intro info h
    have haccepted := (extractMultiplexInfo_eq_ok_iff.mp h).1
    have hdistinct := (haccepted.keys "flags" List.mem_cons_self).distinct _ rfl
    exact absurd hdistinct (by unfold ScriptValues.Distinct; decide)
  · rfl
  · decide +kernel
  · decide +kernel
  · decide +kernel

end Qbs
