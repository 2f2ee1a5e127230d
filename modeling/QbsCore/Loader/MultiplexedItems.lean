import QbsCore.Loader.Multiplexing

/-!
# The products of a multiplex table

Each row of the table of a product becomes one product item.  The first one is the item
of the product itself, and the others are clones of it.  An aggregator, which depends on
all of them, may come in addition.

Main results:

- Theorem {lit}`MultiplexInfo.forall₂_rowItems`: the item of a row has exactly the values
  of this row.
- Theorem {lit}`MultiplexInfo.nodup_uniqueNames`: the items of a product have different
  unique names.
- Theorem {lit}`ScriptValues.multiplexProducts_spec`: what is known of the items of all
  products and of the configurations that are stored for their ids.

Current gaps:

- Properties of a product that have nothing to do with multiplexing are left out.
-/

namespace Qbs

open CompactJson

variable {Number : Type}

/-! ## Product items -/

/-- A dependency item of a product. The profiles and the ids may be unset. -/
structure DependsDeclaration where
  name : String
  profiles : Option (List String)
  multiplexConfigurationId : Option String
  multiplexConfigurationIds : Option (List String)
deriving DecidableEq

/-- A product as it is written, with its values for the qbs module. -/
structure ProductDeclaration (Number : Type) where
  name : String
  fileBaseName : String
  type : List String
  qbs : MultiplexConfiguration Number
  dependsItems : List DependsDeclaration

/-- A product after multiplexing. -/
structure MultiplexedItem (Number : Type) extends ProductDeclaration Number where
  multiplexed : Bool
  multiplexConfigurationId : String

/-- A product without a name gets that of its file. -/
def ProductDeclaration.productName (d : ProductDeclaration Number) : String :=
  if d.name = "" then d.fileBaseName else d.name

namespace MultiplexInfo

variable (numbers : NumberText Number) (info : MultiplexInfo Number)

/-- Whether the products of the rows get ids. -/
def setsIds : Bool :=
  decide (1 < info.table.length) || info.aggregate

/-- Make an item the product of a row. -/
def applyRow (item : MultiplexedItem Number) (row : MultiplexRow Number) :
    MultiplexedItem Number :=
  { item with
    multiplexConfigurationId :=
      if info.setsIds then info.toIdString numbers row else item.multiplexConfigurationId
    type := if info.multiplexedType = "" then item.type else [info.multiplexedType]
    qbs := info.setProperties row item.qbs }

/-- The product item before the rows are gone through. -/
def initialItem (d : ProductDeclaration Number) : MultiplexedItem Number :=
  { d with
    name := d.productName
    multiplexed := decide (1 < info.table.length)
    multiplexConfigurationId := "" }

/-- The product that depends on those of all rows. -/
def aggregator (d : ProductDeclaration Number) : MultiplexedItem Number :=
  let item := info.initialItem d
  { item with
    dependsItems := item.dependsItems ++
      info.table.map fun row => ⟨item.name, some [], some (info.toIdString numbers row), none⟩ }

/-- The items of the rows. The first row changes the item itself; the items of the other rows are
clones of the changed item. -/
def rowItems (d : ProductDeclaration Number) : List (MultiplexedItem Number) :=
  match info.table with
  | [] => [info.initialItem d]
  | row :: rows =>
      let first := info.applyRow numbers (info.initialItem d) row
      first :: rows.map (info.applyRow numbers first)

/-- The items of a product. -/
def multiplexProductItem (d : ProductDeclaration Number) : List (MultiplexedItem Number) :=
  info.rowItems numbers d ++ if info.aggregate then [info.aggregator numbers d] else []

end MultiplexInfo

/-- The configurations that belong to ids. -/
abbrev MultiplexConfigurationsById (Number : Type) :=
  AssocMap String (MultiplexConfiguration Number)

/-- Remember the configurations of all rows. -/
def MultiplexInfo.register (numbers : NumberText Number) (info : MultiplexInfo Number)
    (byId : MultiplexConfigurationsById Number) : MultiplexConfigurationsById Number :=
  info.table.foldl (fun m row =>
    AList.insert (info.toIdString numbers row) (info.multiplexConfiguration row) m) byId

/-- The items of all products, with what was extracted for each product, and the configurations of
all ids. -/
def ScriptValues.multiplexProducts (values : ScriptValues Number)
    (byId : MultiplexConfigurationsById Number) :
    List (MultiplexProperties Number × ProductDeclaration Number) →
      Except (MultiplexError Number)
        (List (List (MultiplexedItem Number)) × MultiplexConfigurationsById Number)
  | [] => pure ([], byId)
  | (p, d) :: products => do
      let info ← values.extractMultiplexInfo p
      let rest ← values.multiplexProducts (info.register values.toNumberText byId) products
      pure (info.multiplexProductItem values.toNumberText d :: rest.1, rest.2)

/-! ## The items of the rows -/

/-- An item is the product of a row: it has the values of the row and its id, and otherwise is as
the product was declared. -/
structure IsItemOfRow (numbers : NumberText Number) (info : MultiplexInfo Number)
    (d : ProductDeclaration Number) (row : MultiplexRow Number) (item : MultiplexedItem Number) :
    Prop where
  name : item.name = d.productName
  qbs : ∀ key v, item.qbs.lookup key = some v ↔
    (key, v) ∈ info.properties.zip row ∨ (key ∉ info.properties ∧ d.qbs.lookup key = some v)
  multiplexConfigurationId : item.multiplexConfigurationId =
    if info.setsIds then info.toIdString numbers row else ""
  type : item.type = if info.multiplexedType = "" then d.type else [info.multiplexedType]
  multiplexed : item.multiplexed = decide (1 < info.table.length)
  dependsItems : item.dependsItems = d.dependsItems

/-- The properties differ, and each row has a value for each of them. -/
structure MultiplexInfo.WellFormed (info : MultiplexInfo Number) : Prop where
  properties : info.properties.Nodup
  rows : ∀ row, row ∈ info.table → row.length = info.properties.length
  table : info.table.Nodup
  nonempty : info.table ≠ [] → info.properties ≠ []

/-- What is extracted from accepted properties is well-formed. -/
theorem MultiplexProperties.wellFormed_info {values : ScriptValues Number}
    {p : MultiplexProperties Number} (h : p.Accepted values) (hp : p.Finite values.toNumberText) :
    p.info.WellFormed where
  properties := (p.entries_sublist).nodup h.mappedDiffer
  rows := by
    intro row hrow
    rw [(mem_table_iff.mp hrow).2.length_eq]
    simp [info]
  table := by
    apply nodup_foldl_combine
    intro vs hvs
    rcases List.mem_map.mp hvs with ⟨e, he, rfl⟩
    rcases mem_entries_iff.mp he with ⟨key, hkey, -, hproperty, -⟩
    apply List.Pairwise.imp_of_mem _ ((h.keys key hkey).distinct e.2 hproperty)
    intro v w hv _ hequal heq
    rw [← heq, values.equal_self v (hp key hkey e.2 hproperty v hv)] at hequal
    cases hequal
  nonempty := by
    intro htable
    rcases List.exists_mem_of_ne_nil _ htable with ⟨row, hrow⟩
    exact (mem_table_iff.mp hrow).1

namespace MultiplexInfo

variable {numbers : NumberText Number} {info : MultiplexInfo Number}

theorem isItemOfRow_applyRow_initialItem (hinfo : info.WellFormed) (d : ProductDeclaration Number)
    {row : MultiplexRow Number} (hrow : row ∈ info.table) :
    IsItemOfRow numbers info d row (info.applyRow numbers (info.initialItem d) row) where
  name := rfl
  qbs := lookup_setProperties hinfo.properties (hinfo.rows row hrow) d.qbs
  multiplexConfigurationId := rfl
  type := rfl
  multiplexed := rfl
  dependsItems := rfl

/-- A clone of an item of another row has no value of this row left. -/
theorem isItemOfRow_applyRow (hinfo : info.WellFormed) {d : ProductDeclaration Number}
    {row row' : MultiplexRow Number} (hrow' : row' ∈ info.table) {item : MultiplexedItem Number}
    (hitem : IsItemOfRow numbers info d row item) :
    IsItemOfRow numbers info d row' (info.applyRow numbers item row') where
  name := hitem.name
  qbs := by
    intro key v
    rw [show (info.applyRow numbers item row').qbs = info.setProperties row' item.qbs from rfl,
      lookup_setProperties hinfo.properties (hinfo.rows row' hrow'), hitem.qbs]
    apply or_congr_right
    apply and_congr_right
    intro hkey
    rw [or_iff_right fun hmem => hkey (List.of_mem_zip hmem).1, and_iff_right hkey]
  multiplexConfigurationId := by
    have hid := hitem.multiplexConfigurationId
    show (if info.setsIds then info.toIdString numbers row' else item.multiplexConfigurationId) = _
    split_ifs at hid ⊢ with hsets
    · rfl
    · exact hid
  type := by
    have htype := hitem.type
    show (if info.multiplexedType = "" then item.type else [info.multiplexedType]) = _
    split_ifs at htype ⊢ with hempty
    · exact htype
    · rfl
  multiplexed := hitem.multiplexed
  dependsItems := hitem.dependsItems

/-- Each row has an item. -/
theorem forall₂_rowItems (hinfo : info.WellFormed) (d : ProductDeclaration Number)
    (h : info.table ≠ []) :
    List.Forall₂ (IsItemOfRow numbers info d) info.table (info.rowItems numbers d) := by
  cases htable : info.table with
  | nil => exact absurd htable h
  | cons row rows =>
      have hfirst : IsItemOfRow numbers info d row
          (info.applyRow numbers (info.initialItem d) row) :=
        isItemOfRow_applyRow_initialItem hinfo d (htable ▸ List.mem_cons_self)
      unfold rowItems
      rw [htable]
      apply List.Forall₂.cons hfirst
      rw [List.forall₂_map_right_iff, List.forall₂_same]
      intro row' hrow'
      exact isItemOfRow_applyRow hinfo (htable ▸ List.mem_cons_of_mem _ hrow') hfirst

theorem toIdString_ne_empty (row : MultiplexRow Number) : info.toIdString numbers row ≠ "" :=
  idOf_ne_empty numbers _

/-- The ids of the rows differ. -/
theorem nodup_toIdString (hinfo : info.WellFormed)
    (hfinite : ∀ row, row ∈ info.table → ∀ v, v ∈ row → v.isFinite numbers) :
    (info.table.map (info.toIdString numbers)).Nodup := by
  apply hinfo.table.map_on
  intro row hrow row' hrow' h
  exact toIdString_inj hinfo.properties (hinfo.rows row hrow) (hinfo.rows row' hrow')
    (hfinite row hrow) (hfinite row' hrow') h

/-- The unique names of the items of a product differ, if there is a row at all or no
aggregator. -/
theorem nodup_uniqueNames (hinfo : info.WellFormed)
    (hfinite : ∀ row, row ∈ info.table → ∀ v, v ∈ row → v.isFinite numbers)
    (d : ProductDeclaration Number) (h : info.table ≠ [] ∨ info.aggregate = false) :
    ((info.multiplexProductItem numbers d).map fun item =>
      uniqueNameOf item.name item.multiplexConfigurationId).Nodup := by
  by_cases hids : info.setsIds
  · -- The aggregator is the only item without an id.
    have htable : info.table ≠ [] := by
      rcases h with h | h
      · exact h
      · intro hnil
        unfold setsIds at hids
        rw [h, hnil] at hids
        cases hids
    have hrows : (info.rowItems numbers d).map (fun item =>
        uniqueNameOf item.name item.multiplexConfigurationId) =
          (info.table.map (info.toIdString numbers)).map (uniqueNameOf d.productName) := by
      apply Eq.symm
      rw [← List.forall₂_eq_eq_eq, List.map_map, List.forall₂_map_left_iff,
        List.forall₂_map_right_iff]
      apply (forall₂_rowItems hinfo d htable).imp
      intro row item hitem
      rw [hitem.name, hitem.multiplexConfigurationId, if_pos hids]
      rfl
    have haggregator : (if info.aggregate then [info.aggregator numbers d] else []).map
        (fun item => uniqueNameOf item.name item.multiplexConfigurationId) =
          (if info.aggregate then [""] else []).map (uniqueNameOf d.productName) := by
      split_ifs <;> rfl
    unfold multiplexProductItem
    rw [List.map_append, hrows, haggregator, ← List.map_append]
    apply List.Nodup.map fun id id' h => uniqueNameOf_inj.mp h
    apply (nodup_toIdString hinfo hfinite).append
    · split_ifs <;> simp
    · intro id hid hempty
      rcases List.mem_map.mp hid with ⟨row, -, rfl⟩
      split_ifs at hempty
      · exact toIdString_ne_empty row (List.mem_singleton.mp hempty)
      · cases hempty
  · -- There is one item only.
    have hone : info.table.length ≤ 1 ∧ info.aggregate = false := by
      unfold setsIds at hids
      simpa using hids
    unfold multiplexProductItem rowItems
    rw [hone.2]
    cases htable : info.table with
    | nil => simp
    | cons row rows =>
        have hrows : rows = [] := by
          rw [htable, List.length_cons] at hone
          exact List.length_eq_zero_iff.mp (by omega)
        simp [hrows]

end MultiplexInfo

/-! ## The stored configurations -/

/-- Each configuration is stored for its own id, and all of its numbers are finite. -/
structure ConfigurationsRight (numbers : NumberText Number)
    (byId : MultiplexConfigurationsById Number) : Prop where
  id : ∀ id m, byId.lookup id = some m → idOf numbers m = id
  isFinite : ∀ id m, byId.lookup id = some m →
    ∀ key v, m.lookup key = some v → v.isFinite numbers

theorem configurationsRight_empty (numbers : NumberText Number) :
    ConfigurationsRight numbers (∅ : MultiplexConfigurationsById Number) where
  id := by
    intro id m h
    cases h
  isFinite := by
    intro id m h
    cases h

namespace MultiplexInfo

variable {numbers : NumberText Number} {info : MultiplexInfo Number}
  {byId : MultiplexConfigurationsById Number}

/-- Remembering the configurations of some rows keeps those that are there. -/
theorem register_rows (hinfo : info.properties.Nodup) {rows : MultiplexTable Number}
    (hrows : ∀ row, row ∈ rows → row.length = info.properties.length ∧
      ∀ v, v ∈ row → v.isFinite numbers)
    {byId : MultiplexConfigurationsById Number} (h : ConfigurationsRight numbers byId) :
    ConfigurationsRight numbers (rows.foldl (fun m row =>
      AList.insert (info.toIdString numbers row) (info.multiplexConfiguration row) m) byId) ∧
      ∀ id, ((byId.lookup id).isSome ∨ ∃ row, row ∈ rows ∧ info.toIdString numbers row = id) →
        ((rows.foldl (fun m row =>
          AList.insert (info.toIdString numbers row) (info.multiplexConfiguration row) m)
            byId).lookup id).isSome := by
  induction rows generalizing byId with
  | nil =>
      refine ⟨h, ?_⟩
      intro id hid
      rcases hid with hid | ⟨row, hrow, -⟩
      · exact hid
      · cases hrow
  | cons row rows ih =>
      have hrow := hrows row List.mem_cons_self
      have hright : ConfigurationsRight numbers
          (AList.insert (info.toIdString numbers row) (info.multiplexConfiguration row) byId) := by
        constructor
        · intro id m hm
          by_cases hid : id = info.toIdString numbers row
          · rw [hid, AList.lookup_insert] at hm
            rw [hid, ← Option.some.inj hm]
            rfl
          · rw [AList.lookup_insert_ne hid] at hm
            exact h.id id m hm
        · intro id m hm key v hv
          by_cases hid : id = info.toIdString numbers row
          · rw [hid, AList.lookup_insert] at hm
            rw [← Option.some.inj hm, lookup_multiplexConfiguration hinfo hrow.1] at hv
            exact hrow.2 v (List.of_mem_zip hv).2
          · rw [AList.lookup_insert_ne hid] at hm
            exact h.isFinite id m hm key v hv
      have hrest := ih (fun r hr => hrows r (List.mem_cons_of_mem _ hr)) hright
      refine ⟨hrest.1, ?_⟩
      intro id hid
      apply hrest.2
      by_cases heq : id = info.toIdString numbers row
      · rw [heq, AList.lookup_insert]
        exact Or.inl rfl
      · rw [AList.lookup_insert_ne heq]
        rcases hid with hid | ⟨r, hr, hrid⟩
        · exact Or.inl hid
        · rcases List.mem_cons.mp hr with rfl | hr
          · exact absurd hrid.symm heq
          · exact Or.inr ⟨r, hr, hrid⟩

/-- The configuration that is stored for the id of a row has exactly the values of the row. -/
theorem lookup_of_right (hinfo : info.properties.Nodup) {row : MultiplexRow Number}
    (hrow : row.length = info.properties.length) (hfinite : ∀ v, v ∈ row → v.isFinite numbers)
    (h : ConfigurationsRight numbers byId) {m : MultiplexConfiguration Number}
    (hm : byId.lookup (info.toIdString numbers row) = some m) (key : String) (v : Scalar Number) :
    m.lookup key = some v ↔ (key, v) ∈ info.properties.zip row := by
  have hvalue : ∀ key v, (info.multiplexConfiguration row).lookup key = some v →
      v.isFinite numbers := by
    intro key v hv
    exact hfinite v (List.of_mem_zip ((lookup_multiplexConfiguration hinfo hrow key v).mp hv)).2
  rw [lookup_eq_of_idOf_eq (h.isFinite _ m hm) hvalue (h.id _ m hm) key]
  exact lookup_multiplexConfiguration hinfo hrow key v

end MultiplexInfo

variable {products : List (MultiplexProperties Number × ProductDeclaration Number)}

/-- What is known of the items of all products and of the configurations that are stored. -/
theorem ScriptValues.multiplexProducts_spec {values : ScriptValues Number}
    (hfinite : ∀ s, s ∈ products → s.1.Finite values.toNumberText)
    {byId byId' : MultiplexConfigurationsById Number}
    (hbyId : ConfigurationsRight values.toNumberText byId)
    {items : List (List (MultiplexedItem Number))}
    (h : values.multiplexProducts byId products = .ok (items, byId')) :
    List.Forall₂ (fun s l => s.1.Accepted values ∧
        l = s.1.info.multiplexProductItem values.toNumberText s.2) products items ∧
      ConfigurationsRight values.toNumberText byId' ∧
      ∀ id, ((byId.lookup id).isSome ∨ ∃ s, s ∈ products ∧ ∃ row, row ∈ s.1.info.table ∧
        s.1.info.toIdString values.toNumberText row = id) → (byId'.lookup id).isSome := by
  induction products generalizing byId items with
  | nil =>
      unfold multiplexProducts at h
      rw [Fallible.pure_eq_ok_iff] at h
      cases h
      refine ⟨List.Forall₂.nil, hbyId, ?_⟩
      intro id hid
      rcases hid with hid | ⟨s, hs, -⟩
      · exact hid
      · cases hs
  | cons s products ih =>
      rcases s with ⟨p, d⟩
      unfold multiplexProducts at h
      rcases Fallible.bind_eq_ok_iff.mp h with ⟨info, hinfo, h⟩
      rcases Fallible.bind_eq_ok_iff.mp h with ⟨⟨rest, byId''⟩, hrest, h⟩
      rw [Fallible.pure_eq_ok_iff] at h
      cases h
      rcases extractMultiplexInfo_eq_ok_iff.mp hinfo with ⟨haccepted, rfl⟩
      have hp := hfinite (p, d) List.mem_cons_self
      have hwell := p.wellFormed_info haccepted hp
      have hregister := MultiplexInfo.register_rows hwell.properties
        (fun row hrow => ⟨hwell.rows row hrow, fun v hv =>
          MultiplexProperties.isFinite_of_mem_table hp hrow hv⟩) hbyId
      have hproducts := ih (fun s hs => hfinite s (List.mem_cons_of_mem _ hs)) hregister.1 hrest
      refine ⟨List.Forall₂.cons ⟨haccepted, rfl⟩ hproducts.1, hproducts.2.1, ?_⟩
      intro id hid
      apply hproducts.2.2
      rcases hid with hid | ⟨s, hs, row, hrow, hid⟩
      · exact Or.inl (hregister.2 id (Or.inl hid))
      · rcases List.mem_cons.mp hs with rfl | hs
        · exact Or.inl (hregister.2 id (Or.inr ⟨row, hrow, hid⟩))
        · exact Or.inr ⟨s, hs, row, hrow, hid⟩

/-- If the multiplexing properties of all products are all right, all get their items. -/
theorem ScriptValues.multiplexProducts_total (values : ScriptValues Number)
    (h : ∀ s, s ∈ products → s.1.Accepted values) (byId : MultiplexConfigurationsById Number) :
    ∃ result, values.multiplexProducts byId products = .ok result := by
  induction products generalizing byId with
  | nil => exact ⟨_, rfl⟩
  | cons s products ih =>
      rcases s with ⟨p, d⟩
      have hinfo := extractMultiplexInfo_eq_ok_iff.mpr ⟨h (p, d) List.mem_cons_self, rfl⟩
      rcases ih (fun s hs => h s (List.mem_cons_of_mem _ hs))
        (p.info.register values.toNumberText byId) with ⟨rest, hrest⟩
      refine ⟨(p.info.multiplexProductItem values.toNumberText d :: rest.1, rest.2), ?_⟩
      unfold multiplexProducts
      apply Fallible.bind_eq_ok_iff.mpr
      refine ⟨p.info, hinfo, ?_⟩
      exact Fallible.bind_eq_ok_iff.mpr ⟨rest, hrest, rfl⟩

end Qbs
