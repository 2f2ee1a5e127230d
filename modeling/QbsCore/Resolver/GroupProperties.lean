import QbsCore.Resolver.Groups

/-!
# Group properties stay in the group

Which property maps a group can change, and under which condition these are only its own
and those of earlier groups with the same file tags filter.

Main results:

- Theorem {lit}`ProjectResolver.frame_iff`: a call changes a property map of the product or of
  another group exactly if its filter shares one with them and it sets a new value.
- Theorem {lit}`ProjectResolver.propertiesStay_iff`: group properties stay in the group exactly
  if for each filter the first group sets properties or no later one changes any.

Current gaps:

- None.
-/

namespace Qbs

namespace ProjectResolver

namespace PropertyMapCall

variable (call : PropertyMapCall)

/-- The property map that the call starts from. -/
def start : PropertyMapId :=
  startMap call.before call.currentGroup call.existing

/-- The module properties with those of the group, or an error. -/
def newModuleProperties : Except ErrorInfo VariantMap :=
  call.data.resolveAdditionalModuleProperties (call.before.maps call.start)

/-- The group gets a property map. -/
def getsMap : Bool :=
  match call.newModuleProperties with
  | .ok _ => true
  | .error _ => false

/-- The group has module properties of its own. -/
def setsProperties : Bool :=
  match call.newModuleProperties with
  | .ok new => !new.isEmpty
  | .error _ => false

/-- The group gives a module property another value. -/
def changesValues : Bool :=
  match call.newModuleProperties with
  | .ok new => !new.isEmpty && new ≠ call.before.maps call.start
  | .error _ => false

/-- The call leaves alone the property maps of the product, of all groups with files and of
the groups with other filters. -/
structure Frame : Prop where
  product : call.after.maps call.before.moduleProperties =
    call.before.maps call.before.moduleProperties
  groups : ∀ g, g ∈ call.before.groups →
    call.after.maps g.properties = call.before.maps g.properties
  filters : ∀ info, info ∈ call.before.artifactProperties → some info.key ≠ call.filter →
    ∀ m, info.propertyMap = some m → call.after.maps m = call.before.maps m

end PropertyMapCall

/-- The first call for a filter that has got a property map. -/
def firstWithMap (calls : List PropertyMapCall) (key : List String) : Option PropertyMapCall :=
  calls.find? fun call => call.filter = some key && call.getsMap

/-- If a call for a filter changes values, the first call for this filter has set properties. -/
def FirstSets (earlier : List PropertyMapCall) (call : PropertyMapCall) : Prop :=
  ∀ key first, call.filter = some key → firstWithMap earlier key = some first →
    call.changesValues = true → first.setsProperties = true

/-- Property maps only change in calls: each call starts from what the one before has left. -/
inductive MapsChain (maps : PropertyMapId → VariantMap) :
    List PropertyMapCall → (PropertyMapId → VariantMap) → Prop
  | nil : MapsChain maps [] maps
  | snoc {calls : List PropertyMapCall} (call : PropertyMapCall)
      (h : MapsChain maps calls call.before.maps) :
      MapsChain maps (calls ++ [call]) call.after.maps

/-- The property maps of a product. -/
structure Owned (c : ProductContext) : Prop where
  product_lt : c.moduleProperties < c.nextMap
  group_lt : ∀ g, g ∈ c.groups → g.properties < c.nextMap
  info_lt : ∀ info, info ∈ c.artifactProperties → ∀ m, info.propertyMap = some m → m < c.nextMap
  keys : (c.artifactProperties.map ArtifactPropertiesInfo.key).Nodup

/-- No product or group with files has the property map. -/
def Unshared (c : ProductContext) (m : PropertyMapId) : Prop :=
  m ≠ c.moduleProperties ∧ ∀ g, g ∈ c.groups → g.properties ≠ m

/-- What holds of the entry for a filter, from the first call for it that got a map. -/
structure InfoSpec (s : State) (info : ArtifactPropertiesInfo) : Prop where
  none : info.propertyMap = none → firstWithMap s.calls info.key = none
  some : ∀ m, info.propertyMap = some m →
    ∃ first, firstWithMap s.calls info.key = some first ∧
      (first.setsProperties = true → Unshared s.context m ∧
        ∀ other, other ∈ s.context.artifactProperties → other.key ≠ info.key →
          other.propertyMap ≠ Option.some m) ∧
      (first.setsProperties = false → ¬Unshared s.context m)

/-- The invariant of resolving groups. -/
structure Inv (origin : ProductContext) (s : State) : Prop where
  owned : Owned s.context
  info : ∀ info, info ∈ s.context.artifactProperties → InfoSpec s info
  missing : ∀ key, (∀ info, info ∈ s.context.artifactProperties → info.key ≠ key) →
    firstWithMap s.calls key = none
  frames : ∀ earlier call later, s.calls = earlier ++ call :: later →
    (call.Frame ↔ FirstSets earlier call)
  product : ∀ call, call ∈ s.calls → call.before.moduleProperties = s.context.moduleProperties
  chain : MapsChain origin.maps s.calls s.context.maps
  origin_eq : s.context.moduleProperties = origin.moduleProperties

/-- The maps of the product, its groups and filters are the same. -/
structure SameOwners (c c' : ProductContext) : Prop where
  moduleProperties_eq : c'.moduleProperties = c.moduleProperties
  groups_eq : c'.groups = c.groups
  artifactProperties_eq : c'.artifactProperties = c.artifactProperties
  nextMap_le : c.nextMap ≤ c'.nextMap

/-- All data about property maps are the same. -/
structure SameMaps (c c' : ProductContext) : Prop where
  maps_eq : c'.maps = c.maps
  nextMap_eq : c'.nextMap = c.nextMap
  moduleProperties_eq : c'.moduleProperties = c.moduleProperties
  groups_eq : c'.groups = c.groups
  artifactProperties_eq : c'.artifactProperties = c.artifactProperties

theorem SameMaps.refl (c : ProductContext) : SameMaps c c :=
  ⟨rfl, rfl, rfl, rfl, rfl⟩

theorem SameMaps.trans {c₁ c₂ c₃ : ProductContext} (h : SameMaps c₁ c₂) (h' : SameMaps c₂ c₃) :
    SameMaps c₁ c₃ :=
  ⟨h'.maps_eq.trans h.maps_eq, h'.nextMap_eq.trans h.nextMap_eq,
    h'.moduleProperties_eq.trans h.moduleProperties_eq, h'.groups_eq.trans h.groups_eq,
    h'.artifactProperties_eq.trans h.artifactProperties_eq⟩

variable {f : ArtifactPropertiesInfo → ArtifactPropertiesInfo} {calls : List PropertyMapCall}
  {key : List String} {c : ProductContext} {call : PropertyMapCall}

theorem SameOwners.owned {c' : ProductContext} (h : SameOwners c c') (ho : Owned c) :
    Owned c' := by
  constructor
  · rw [h.moduleProperties_eq]
    exact lt_of_lt_of_le ho.product_lt h.nextMap_le
  · rw [h.groups_eq]
    exact fun g hg => lt_of_lt_of_le (ho.group_lt g hg) h.nextMap_le
  · rw [h.artifactProperties_eq]
    exact fun info hinfo m hm => lt_of_lt_of_le (ho.info_lt info hinfo m hm) h.nextMap_le
  · rw [h.artifactProperties_eq]
    exact ho.keys

theorem SameOwners.unshared_iff {c' : ProductContext} (h : SameOwners c c') (m : PropertyMapId) :
    Unshared c' m ↔ Unshared c m := by
  rw [Unshared, Unshared, h.moduleProperties_eq, h.groups_eq]

/-! ## What one call does -/

namespace PropertyMapCall

variable {call : PropertyMapCall}

/-- The property map of the group, or an error. -/
def result (call : PropertyMapCall) : Except ErrorInfo PropertyMapId :=
  (groupPropertyMap call.data call.currentGroup call.existing call.before).1

/-- A call fails, keeps the map it starts from, creates a map or changes one in place. -/
theorem cases_on (call : PropertyMapCall) :
    (∃ e, call.newModuleProperties = .error e ∧ call.result = .error e ∧
      call.after = call.before) ∨
    (∃ new, call.newModuleProperties = .ok new ∧ new.isEmpty = true ∧
      call.result = .ok call.start ∧ call.after = call.before) ∨
    (∃ new, call.newModuleProperties = .ok new ∧ new.isEmpty = false ∧ call.existing = none ∧
      call.result = .ok call.before.nextMap ∧ call.after = call.before.createMap new) ∨
    (∃ new m, call.newModuleProperties = .ok new ∧ new.isEmpty = false ∧
      call.existing = some m ∧ call.result = .ok m ∧ call.after = call.before.setValue m new) := by
  unfold result after newModuleProperties start groupPropertyMap
  cases call.data.resolveAdditionalModuleProperties
      (call.before.maps (startMap call.before call.currentGroup call.existing)) with
  | error e => exact Or.inl ⟨e, rfl, rfl, rfl⟩
  | ok new =>
      cases hnew : new.isEmpty with
      | true => exact Or.inr (Or.inl ⟨new, rfl, hnew, by simp [hnew], by simp [hnew]⟩)
      | false =>
          cases hex : call.existing with
          | none => exact Or.inr (Or.inr (Or.inl ⟨new, rfl, hnew, rfl, by simp [hnew], by simp [hnew]⟩))
          | some m =>
              exact Or.inr (Or.inr (Or.inr ⟨new, m, rfl, hnew, rfl, by simp [hnew], by simp [hnew]⟩))

/-- A call leaves alone which map belongs to whom. -/
theorem sameOwners (call : PropertyMapCall) : SameOwners call.before call.after := by
  rcases call.cases_on with ⟨e, -, -, h⟩ | ⟨new, -, -, -, h⟩ | ⟨new, -, -, -, -, h⟩ |
    ⟨new, m, -, -, -, -, h⟩
  · constructor <;> simp [h]
  · constructor <;> simp [h]
  · constructor <;> simp [h, ProductContext.createMap]
  · constructor <;> simp [h, ProductContext.setValue]

variable {m : PropertyMapId}

/-- A call without a map for its filter leaves all property maps alone. -/
theorem maps_after_of_none (hex : call.existing = none) (hm : m < call.before.nextMap) :
    call.after.maps m = call.before.maps m := by
  rcases call.cases_on with ⟨e, -, -, h⟩ | ⟨new, -, -, -, h⟩ | ⟨new, -, -, -, -, h⟩ |
    ⟨new, m', -, -, hm', -, -⟩
  · rw [h]
  · rw [h]
  · simp [h, ProductContext.createMap, Nat.ne_of_lt hm]
  · rw [hex] at hm'
    cases hm'

/-- A call changes at most the map that its filter has already. -/
theorem maps_after_of_some {m₀ : PropertyMapId} (hex : call.existing = some m₀) (hm : m ≠ m₀) :
    call.after.maps m = call.before.maps m := by
  rcases call.cases_on with ⟨e, -, -, h⟩ | ⟨new, -, -, -, h⟩ | ⟨new, -, -, hnone, -, h⟩ |
    ⟨new, m', -, -, hm', -, h⟩
  · rw [h]
  · rw [h]
  · rw [hex] at hnone
    cases hnone
  · have hEq : m₀ = m' := Option.some.inj (hex.symm.trans hm')
    simp [h, ProductContext.setValue, ← hEq, hm]

/-- A call changes the map that its filter has already exactly if it changes values. -/
theorem maps_after_existing (hex : call.existing = some m) :
    call.after.maps m = call.before.maps m ↔ call.changesValues = false := by
  have hstart : call.start = m := by simp [start, startMap, hex]
  rcases call.cases_on with ⟨e, hnew, -, h⟩ | ⟨new, hnew, hempty, -, h⟩ |
    ⟨new, -, -, hnone, -, -⟩ | ⟨new, m', hnew, hempty, hm', -, h⟩
  · simp [h, changesValues, hnew]
  · simp [h, changesValues, hnew, hempty]
  · rw [hex] at hnone
    cases hnone
  · have hEq : m = m' := Option.some.inj (hex.symm.trans hm')
    subst hEq
    simp [h, changesValues, hnew, hempty, ProductContext.setValue, hstart]

end PropertyMapCall

theorem firstWithMap_snoc (calls : List PropertyMapCall) (call : PropertyMapCall)
    (key : List String) :
    firstWithMap (calls ++ [call]) key =
      (firstWithMap calls key).or
        (if call.filter = some key && call.getsMap then some call else none) := by
  simp only [firstWithMap, List.find?_append, List.find?_singleton]

theorem firstWithMap_snoc_of_some {first : PropertyMapCall}
    (h : firstWithMap calls key = some first) :
    firstWithMap (calls ++ [call]) key = some first := by
  rw [firstWithMap_snoc, h, Option.some_or]

theorem firstWithMap_snoc_of_ne (h : call.filter ≠ some key ∨ call.getsMap = false) :
    firstWithMap (calls ++ [call]) key = firstWithMap calls key := by
  rw [firstWithMap_snoc, if_neg, Option.or_none]
  rcases h with h | h <;> simp [h]

/-! ## When a call stays in its group -/

/-- A call without a map for its filter stays in its group. -/
theorem frame_of_none (ho : Owned call.before) (hex : call.existing = none) : call.Frame := by
  constructor
  · exact call.maps_after_of_none hex ho.product_lt
  · exact fun g hg => call.maps_after_of_none hex (ho.group_lt g hg)
  · exact fun info hinfo _ m hm => call.maps_after_of_none hex (ho.info_lt info hinfo m hm)

/-- A call changes a property map of the product or of another group exactly if its filter
shares one with them and it sets a new value. -/
theorem frame_iff {s : State} {info : ArtifactPropertiesInfo} (hs : call.before = s.context)
    (hspec : InfoSpec s info) (hfilter : call.filter = some info.key)
    (hex : call.existing = info.propertyMap) (ho : Owned s.context) :
    call.Frame ↔ FirstSets s.calls call := by
  cases hm : info.propertyMap with
  | none =>
      rw [hm] at hex
      refine iff_of_true (frame_of_none (hs ▸ ho) hex) ?_
      intro key first hkey hfirst
      rw [hfilter, Option.some.injEq] at hkey
      rw [← hkey, hspec.none hm] at hfirst
      cases hfirst
  | some m =>
      rw [hm] at hex
      rcases hspec.some m hm with ⟨first, hfirst, hsets, hshared⟩
      cases hchange : call.changesValues with
      | false =>
          -- nothing changes at all
          have hall : ∀ m', call.after.maps m' = call.before.maps m' := by
            intro m'
            by_cases hEq : m' = m
            · rw [hEq]
              exact (call.maps_after_existing hex).mpr hchange
            · exact call.maps_after_of_some hex hEq
          refine iff_of_true ⟨hall _, fun g _ => hall _, fun _ _ _ m' _ => hall m'⟩ ?_
          intro _ _ _ _ h
          rw [hchange] at h
          cases h
      | true =>
          have hne : call.after.maps m ≠ call.before.maps m := by
            intro h
            rw [call.maps_after_existing hex, hchange] at h
            cases h
          constructor
          · intro hframe key first' hkey hfirst' _
            rw [hfilter, Option.some.injEq] at hkey
            rw [← hkey, hfirst, Option.some.injEq] at hfirst'
            rw [← hfirst']
            by_contra hnot
            rw [Bool.not_eq_true] at hnot
            refine hshared hnot ⟨?_, ?_⟩
            · intro hEq
              apply hne
              have hproduct := hframe.product
              rwa [hs, ← hEq, ← hs] at hproduct
            · intro g hg hEq
              apply hne
              rw [← hEq]
              exact hframe.groups g (hs ▸ hg)
          · intro hfirstSets
            rcases hsets (hfirstSets info.key first hfilter hfirst hchange) with
              ⟨⟨hproduct, hgroups⟩, hothers⟩
            constructor
            · exact call.maps_after_of_some hex (hs ▸ Ne.symm hproduct)
            · exact fun g hg => call.maps_after_of_some hex (hgroups g (hs ▸ hg))
            · intro other hother hkey m' hm'
              apply call.maps_after_of_some hex
              rintro rfl
              refine hothers other (hs ▸ hother) ?_ hm'
              intro hEq
              rw [hEq] at hkey
              exact hkey hfilter.symm

/-! ## What keeps the invariant -/

variable {origin : ProductContext} {s : State}

namespace Inv

/-- The other data of the product do not matter. -/
theorem congr (h : Inv origin s) {c : ProductContext} (hsame : SameMaps s.context c) :
    Inv origin { s with context := c } := by
  rcases hsame with ⟨hmaps, hnext, hproduct, hgroups, hinfos⟩
  have hunshared : ∀ m, Unshared c m ↔ Unshared s.context m := by
    intro m
    rw [Unshared, Unshared, hproduct, hgroups]
  constructor
  · constructor
    · rw [hproduct, hnext]
      exact h.owned.product_lt
    · rw [hgroups, hnext]
      exact h.owned.group_lt
    · rw [hinfos, hnext]
      exact h.owned.info_lt
    · rw [hinfos]
      exact h.owned.keys
  · intro info hinfo
    have hold := h.info info (hinfos ▸ hinfo)
    refine ⟨hold.none, ?_⟩
    simpa only [hunshared, hinfos] using hold.some
  · intro key hkey
    exact h.missing key (hinfos ▸ hkey)
  · exact h.frames
  · intro call hcall
    rw [h.product call hcall]
    exact hproduct.symm
  · rw [hmaps]
    exact h.chain
  · exact hproduct.trans h.origin_eq

/-- An entry for a filter without one. -/
theorem createInfo (h : Inv origin s) {key : List String}
    (hkey : s.context.artifactPropertiesPerFilter key = none) :
    Inv origin { s with context := createInfo key s.context } := by
  have hnew : ∀ info, info ∈ s.context.artifactProperties → info.key ≠ key := by
    intro info hinfo hEq
    have hnone := List.find?_eq_none.mp hkey info hinfo
    simp [hEq] at hnone
  constructor
  · refine ⟨h.owned.product_lt, h.owned.group_lt, ?_, ?_⟩
    · intro info hinfo m hm
      rcases List.mem_append.mp hinfo with hinfo | hinfo
      · exact h.owned.info_lt info hinfo m hm
      · rw [List.mem_singleton.mp hinfo] at hm
        cases hm
    · simp only [ProjectResolver.createInfo, List.map_append, List.map_singleton]
      refine List.nodup_append.mpr ⟨h.owned.keys, by simp, ?_⟩
      intro k hk k' hk'
      rcases List.mem_map.mp hk with ⟨info, hinfo, rfl⟩
      rw [List.mem_singleton.mp hk']
      exact hnew info hinfo
  · intro info hinfo
    rcases List.mem_append.mp hinfo with hinfo | hinfo
    · have hold := h.info info hinfo
      refine ⟨hold.none, ?_⟩
      intro m hm
      rcases hold.some m hm with ⟨first, hfirst, hsets, hshared⟩
      refine ⟨first, hfirst, fun hset => ⟨(hsets hset).1, ?_⟩, hshared⟩
      intro other hother hne
      rcases List.mem_append.mp hother with hother | hother
      · exact (hsets hset).2 other hother hne
      · rw [List.mem_singleton.mp hother]
        simp
    · rw [List.mem_singleton.mp hinfo]
      refine ⟨fun _ => h.missing key hnew, ?_⟩
      intro m hm
      cases hm
  · intro k hk
    exact h.missing k fun info hinfo => hk info (List.mem_append_left _ hinfo)
  · exact h.frames
  · exact h.product
  · exact h.chain
  · exact h.origin_eq

end Inv

theorem mem_modifyInfo {info : ArtifactPropertiesInfo} :
    info ∈ (c.modifyInfo key f).artifactProperties ↔
      ∃ old, old ∈ c.artifactProperties ∧ (if old.key = key then f old else old) = info := by
  simp [ProductContext.modifyInfo]

theorem keys_modifyInfo (hf : ∀ info, (f info).key = info.key) :
    (c.modifyInfo key f).artifactProperties.map ArtifactPropertiesInfo.key =
      c.artifactProperties.map ArtifactPropertiesInfo.key := by
  simp only [ProductContext.modifyInfo, List.map_map]
  apply List.map_congr_left
  intro info _
  simp only [Function.comp_apply]
  split
  · exact hf info
  · rfl

/-- A change of an entry that keeps its filter and property map. -/
theorem Inv.modifyInfo (h : Inv origin s) (hf : ∀ info, (f info).key = info.key)
    (hm : ∀ info, (f info).propertyMap = info.propertyMap) :
    Inv origin { s with context := s.context.modifyInfo key f } := by
  have hold : ∀ info, info ∈ (s.context.modifyInfo key f).artifactProperties →
      ∃ old, old ∈ s.context.artifactProperties ∧ info.key = old.key ∧
        info.propertyMap = old.propertyMap := by
    intro info hinfo
    rcases mem_modifyInfo.mp hinfo with ⟨old, hmem, rfl⟩
    refine ⟨old, hmem, ?_⟩
    split
    · exact ⟨hf old, hm old⟩
    · exact ⟨rfl, rfl⟩
  constructor
  · refine ⟨h.owned.product_lt, h.owned.group_lt, ?_, ?_⟩
    · intro info hinfo m hmap
      rcases hold info hinfo with ⟨old, hmem, -, hEq⟩
      exact h.owned.info_lt old hmem m (hEq ▸ hmap)
    · rw [keys_modifyInfo hf]
      exact h.owned.keys
  · intro info hinfo
    rcases hold info hinfo with ⟨old, hmem, hkey, hmap⟩
    have hspec := h.info old hmem
    refine ⟨fun hnone => hkey ▸ hspec.none (hmap ▸ hnone), ?_⟩
    intro m hsome
    rw [hmap] at hsome
    rcases hspec.some m hsome with ⟨first, hfirst, hsets, hshared⟩
    refine ⟨first, hkey ▸ hfirst, fun hset => ⟨(hsets hset).1, ?_⟩, hshared⟩
    intro other hother hne
    rcases hold other hother with ⟨old', hmem', hkey', hmap'⟩
    rw [hmap']
    exact (hsets hset).2 old' hmem' (by rw [← hkey', ← hkey]; exact hne)
  · intro k hk
    apply h.missing k
    intro info hinfo
    have hne := hk _ (mem_modifyInfo.mpr ⟨info, hinfo, rfl⟩)
    split at hne
    · exact hf info ▸ hne
    · exact hne
  · exact h.frames
  · exact h.product
  · exact h.chain
  · exact h.origin_eq

/-- The state after a call. -/
def State.afterCall (s : State) (call : PropertyMapCall) : State :=
  ⟨call.after, s.calls ++ [call]⟩

namespace Inv

variable {call : PropertyMapCall} {m : PropertyMapId}

/-- The parts of the invariant about the calls, after one more. -/
theorem calls_snoc (h : Inv origin s) (hbefore : call.before = s.context)
    (hframe : call.Frame ↔ FirstSets s.calls call) :
    (∀ earlier c later, s.calls ++ [call] = earlier ++ c :: later →
      (c.Frame ↔ FirstSets earlier c)) ∧
    (∀ c, c ∈ s.calls ++ [call] →
      c.before.moduleProperties = call.after.moduleProperties) ∧
    MapsChain origin.maps (s.calls ++ [call]) call.after.maps := by
  refine ⟨?_, ?_, ?_⟩
  · intro earlier c later hsplit
    rcases List.eq_nil_or_concat later with rfl | ⟨later, last, rfl⟩
    · rcases List.append_inj' hsplit rfl with ⟨rfl, hc⟩
      cases hc
      exact hframe
    · have hEq : s.calls ++ [call] = (earlier ++ c :: later) ++ [last] := by simpa using hsplit
      exact h.frames earlier c later (List.append_inj' hEq rfl).1
  · intro c hc
    rw [call.sameOwners.moduleProperties_eq, hbefore]
    rcases List.mem_append.mp hc with hc | hc
    · exact h.product c hc
    · rw [List.mem_singleton.mp hc, hbefore]
  · apply MapsChain.snoc
    rw [hbefore]
    exact h.chain

/-- A call that gets no map, or none for a filter, keeps the invariant. -/
theorem afterCall (h : Inv origin s) (hbefore : call.before = s.context)
    (hframe : call.Frame ↔ FirstSets s.calls call)
    (hnone : call.filter = none ∨ call.getsMap = false) : Inv origin (s.afterCall call) := by
  have hsame := call.sameOwners
  rw [hbefore] at hsame
  have hfirst : ∀ key, firstWithMap (s.calls ++ [call]) key = firstWithMap s.calls key := by
    intro key
    apply firstWithMap_snoc_of_ne
    rcases hnone with hnone | hnone
    · exact Or.inl (by simp [hnone])
    · exact Or.inr hnone
  rcases h.calls_snoc hbefore hframe with ⟨hframes, hproduct, hchain⟩
  refine ⟨hsame.owned h.owned, ?_, ?_, hframes, hproduct, hchain,
    hsame.moduleProperties_eq.trans h.origin_eq⟩
  · intro info hinfo
    simp only [State.afterCall] at hinfo ⊢
    rw [hsame.artifactProperties_eq] at hinfo
    have hold := h.info info hinfo
    refine ⟨fun hm => (hfirst _).trans (hold.none hm), ?_⟩
    simpa only [hfirst, hsame.unshared_iff, hsame.artifactProperties_eq] using hold.some
  · intro key hkey
    simp only [State.afterCall] at hkey ⊢
    rw [hsame.artifactProperties_eq] at hkey
    exact (hfirst key).trans (h.missing key hkey)

/-- What the map of a call for a filter is: the one the filter has already, a new one that
nobody shares, or the one of the enclosing group or product. -/
theorem result_cases (hresult : call.result = .ok m) :
    call.existing = some m ∨
      call.existing = none ∧ call.setsProperties = true ∧ m = call.before.nextMap ∧
        m < call.after.nextMap ∨
      call.existing = none ∧ call.setsProperties = false ∧
        m = call.before.parentMap call.currentGroup := by
  rcases call.cases_on with ⟨e, -, herror, -⟩ | ⟨new, hnew, hempty, hok, -⟩ |
    ⟨new, hnew, hempty, hex, hok, hafter⟩ | ⟨new, m', -, -, hex, hok, -⟩
  · rw [hresult] at herror
    cases herror
  · have hm : m = call.start := Except.ok.inj (hresult.symm.trans hok)
    cases hex : call.existing with
    | none =>
        refine Or.inr (Or.inr ⟨rfl, ?_, ?_⟩)
        · simp [PropertyMapCall.setsProperties, hnew, hempty]
        · simp [hm, PropertyMapCall.start, startMap, hex]
    | some m' =>
        left
        simp [hm, PropertyMapCall.start, startMap, hex]
  · refine Or.inr (Or.inl ⟨hex, ?_, ?_⟩)
    · simp [PropertyMapCall.setsProperties, hnew, hempty]
    · have hm : m = call.before.nextMap := Except.ok.inj (hresult.symm.trans hok)
      refine ⟨hm, ?_⟩
      rw [hm, hafter]
      exact Nat.lt_succ_self _
  · left
    rw [hex, Except.ok.inj (hresult.symm.trans hok)]

theorem getsMap_of_result (hresult : call.result = .ok m) : call.getsMap = true := by
  rcases call.cases_on with ⟨e, -, herror, -⟩ | ⟨new, hnew, -⟩ | ⟨new, hnew, -⟩ | ⟨new, m', hnew, -⟩
  · rw [hresult] at herror
    cases herror
  · simp [PropertyMapCall.getsMap, hnew]
  · simp [PropertyMapCall.getsMap, hnew]
  · simp [PropertyMapCall.getsMap, hnew]

/-- The map that the entry for a filter gets fits the first call for the filter. -/
theorem infoSpec_new (h : Inv origin s) {info : ArtifactPropertiesInfo}
    (hbefore : call.before = s.context) (hinfo : info ∈ s.context.artifactProperties)
    (hfilter : call.filter = some info.key) (hex : call.existing = info.propertyMap)
    (hparent : ¬Unshared s.context (s.context.parentMap call.currentGroup))
    (hresult : call.result = .ok m) :
    ∃ first, firstWithMap (s.calls ++ [call]) info.key = some first ∧
      (first.setsProperties = true → Unshared s.context m ∧
        ∀ other, other ∈ s.context.artifactProperties → other.key ≠ info.key →
          other.propertyMap ≠ some m) ∧
      (first.setsProperties = false → ¬Unshared s.context m) := by
  have hold := h.info info hinfo
  have hnew : info.propertyMap = none → firstWithMap (s.calls ++ [call]) info.key = some call := by
    intro hnone
    rw [firstWithMap_snoc, hold.none hnone, Option.none_or, if_pos]
    simp [hfilter, getsMap_of_result hresult]
  rcases result_cases hresult with hsome | ⟨hnone, hsets, hm, -⟩ | ⟨hnone, hsets, hm⟩
  · rcases hold.some m (hex ▸ hsome) with ⟨first, hfirst, hspec⟩
    exact ⟨first, firstWithMap_snoc_of_some hfirst, hspec⟩
  · refine ⟨call, hnew (hex ▸ hnone), fun _ => ⟨⟨?_, ?_⟩, ?_⟩, fun hfalse => ?_⟩
    · rw [hm, hbefore]
      exact (Nat.ne_of_lt h.owned.product_lt).symm
    · intro g hg
      rw [hm, hbefore]
      exact Nat.ne_of_lt (h.owned.group_lt g hg)
    · intro other hother _ hEq
      have hlt := h.owned.info_lt other hother m hEq
      rw [hm, hbefore] at hlt
      exact Nat.lt_irrefl _ hlt
    · rw [hsets] at hfalse
      cases hfalse
  · refine ⟨call, hnew (hex ▸ hnone), fun htrue => ?_, fun _ => ?_⟩
    · rw [hsets] at htrue
      cases htrue
    · rw [hm, hbefore]
      exact hparent

/-- A call for a filter and the update of its entry keep the invariant. -/
theorem filterCall (h : Inv origin s) {info : ArtifactPropertiesInfo}
    (hbefore : call.before = s.context) (hinfo : info ∈ s.context.artifactProperties)
    (hfilter : call.filter = some info.key) (hex : call.existing = info.propertyMap)
    (hparent : ¬Unshared s.context (s.context.parentMap call.currentGroup))
    (hlt : s.context.parentMap call.currentGroup < s.context.nextMap)
    (hresult : call.result = .ok m) {f : ArtifactPropertiesInfo → ArtifactPropertiesInfo}
    (hf : ∀ i, (f i).key = i.key) (hm : ∀ i, (f i).propertyMap = some m) :
    Inv origin ⟨call.after.modifyInfo info.key f, s.calls ++ [call]⟩ := by
  have hsame := call.sameOwners
  rw [hbefore] at hsame
  have howned := hsame.owned h.owned
  rcases h.calls_snoc hbefore (frame_iff hbefore (h.info info hinfo) hfilter hex h.owned)
    with ⟨hframes, hproduct, hchain⟩
  rcases h.infoSpec_new hbefore hinfo hfilter hex hparent hresult
    with ⟨first, hfirst, hsets, hshared⟩
  have hmlt : m < call.after.nextMap := by
    rcases result_cases hresult with hsome | ⟨-, -, -, hnext⟩ | ⟨-, -, hEq⟩
    · exact lt_of_lt_of_le (h.owned.info_lt info hinfo m (hex ▸ hsome)) hsame.nextMap_le
    · exact hnext
    · rw [hEq, hbefore]
      exact lt_of_lt_of_le hlt hsame.nextMap_le
  -- an entry is the changed one or an old one for another filter
  have hentry : ∀ i, i ∈ (call.after.modifyInfo info.key f).artifactProperties →
      i.key = info.key ∧ i.propertyMap = some m ∨
        i ∈ s.context.artifactProperties ∧ i.key ≠ info.key := by
    intro i hi
    rcases mem_modifyInfo.mp hi with ⟨old, hold, rfl⟩
    rw [hsame.artifactProperties_eq] at hold
    by_cases hkey : old.key = info.key
    · rw [if_pos hkey]
      exact Or.inl ⟨(hf old).trans hkey, hm old⟩
    · rw [if_neg hkey]
      exact Or.inr ⟨hold, hkey⟩
  have hunshared : ∀ m', Unshared (call.after.modifyInfo info.key f) m' ↔ Unshared s.context m' :=
    hsame.unshared_iff
  refine ⟨⟨howned.product_lt, howned.group_lt, ?_, ?_⟩, ?_, ?_, hframes, hproduct, hchain,
    hsame.moduleProperties_eq.trans h.origin_eq⟩
  · intro i hi m' hm'
    rcases hentry i hi with ⟨-, hEq⟩ | ⟨hold, -⟩
    · rw [hm', Option.some.injEq] at hEq
      rw [hEq]
      exact hmlt
    · exact lt_of_lt_of_le (h.owned.info_lt i hold m' hm') hsame.nextMap_le
  · rw [keys_modifyInfo hf]
    exact howned.keys
  · intro i hi
    rcases hentry i hi with ⟨hkey, hEq⟩ | ⟨hold, hkey⟩
    · refine ⟨fun hnone => ?_, fun m' hm' => ?_⟩
      · rw [hEq] at hnone
        cases hnone
      · rw [hEq, Option.some.injEq] at hm'
        subst hm'
        rw [hunshared]
        refine ⟨first, hkey ▸ hfirst, fun hset => ⟨(hsets hset).1, ?_⟩, hshared⟩
        intro other hother hne
        rcases hentry other hother with ⟨hkey', -⟩ | ⟨hold', hkey'⟩
        · exact absurd (hkey'.trans hkey.symm) hne
        · exact (hsets hset).2 other hold' hkey'
    · have hspec := h.info i hold
      have hsame' : firstWithMap (s.calls ++ [call]) i.key = firstWithMap s.calls i.key :=
        firstWithMap_snoc_of_ne (Or.inl (by rw [hfilter]; simpa using Ne.symm hkey))
      refine ⟨fun hnone => hsame'.trans (hspec.none hnone), fun m' hm' => ?_⟩
      rcases hspec.some m' hm' with ⟨first', hfirst', hsets', hshared'⟩
      refine ⟨first', hsame'.trans hfirst', fun hset => ?_, fun hset => ?_⟩
      · rw [hunshared]
        refine ⟨(hsets' hset).1, ?_⟩
        intro other hother hne hEq
        rcases hentry other hother with ⟨-, hEq'⟩ | ⟨hold', -⟩
        · -- the changed entry does not have the map of another filter
          rw [hEq, Option.some.injEq] at hEq'
          subst hEq'
          cases hfirstSets : first.setsProperties with
          | true => exact (hsets hfirstSets).2 i hold hkey hm'
          | false => exact hshared hfirstSets (hsets' hset).1
        · exact (hsets' hset).2 other hold' hne hEq
      · rw [hunshared]
        exact hshared' hset
  · intro key hkey
    have hne : info.key ≠ key := by
      have hmem : f info ∈ (call.after.modifyInfo info.key f).artifactProperties :=
        mem_modifyInfo.mpr ⟨info, hsame.artifactProperties_eq ▸ hinfo, if_pos rfl⟩
      exact hf info ▸ hkey (f info) hmem
    rw [firstWithMap_snoc_of_ne (Or.inl (by rw [hfilter]; simpa using hne))]
    apply h.missing key
    intro i hi hEq
    refine hkey i (mem_modifyInfo.mpr ⟨i, hsame.artifactProperties_eq ▸ hi, ?_⟩) hEq
    rw [if_neg]
    rw [hEq]
    exact Ne.symm hne

end Inv

/-! ## The operations keep the invariant -/

section Operations

open StateOp

variable {enclosing : List ResolvedGroup} {currentGroup : Option ResolvedGroup} {env : Environment}
  {data : GroupData}

/-- The invariant while some enclosing groups are being resolved. -/
def Inside (origin : ProductContext) (enclosing : List ResolvedGroup) (s : State) :
    Prop :=
  Inv origin s ∧ ∀ g, g ∈ enclosing → g ∈ s.context.groups

/-- The current group is one of the enclosing ones. -/
def IsEnclosing (currentGroup : Option ResolvedGroup) (enclosing : List ResolvedGroup) : Prop :=
  ∀ g, currentGroup = some g → g ∈ enclosing

variable {fileTags : FileTags} {c : ProductContext}

theorem Inside.congr (h : Inside origin enclosing s) (hsame : SameMaps s.context c) :
    Inside origin enclosing { s with context := c } := by
  refine ⟨h.1.congr hsame, ?_⟩
  intro g hg
  simp only [hsame.groups_eq]
  exact h.2 g hg

theorem Inside.parentMap_shared (h : Inside origin enclosing s)
    (hcurrent : IsEnclosing currentGroup enclosing) :
    ¬Unshared s.context (s.context.parentMap currentGroup) := by
  cases currentGroup with
  | none => exact fun hu => hu.1 rfl
  | some g => exact fun hu => hu.2 g (h.2 g (hcurrent g rfl)) rfl

theorem Inside.parentMap_lt (h : Inside origin enclosing s)
    (hcurrent : IsEnclosing currentGroup enclosing) :
    s.context.parentMap currentGroup < s.context.nextMap := by
  cases currentGroup with
  | none => exact h.1.owned.product_lt
  | some g => exact h.1.owned.group_lt g (h.2 g (hcurrent g rfl))

theorem keeps_modifyContext {f : ProductContext → ProductContext}
    (hf : ∀ c, SameMaps c (f c)) : Keeps (Inside origin enclosing) (modifyContext f) :=
  Keeps.update fun _ hs => hs.congr (hf _)

/-- There is an entry for a filter. -/
def HasInfo (key : List String) (s : State) : Prop :=
  ∃ info, s.context.artifactPropertiesPerFilter key = some info

variable {isEnabled wildcard : Bool} {filesLocation : CodeLocation} {key : List String}
  {m : PropertyMapId} {group : ResolvedGroup}

theorem find_modifyInfo {f : ArtifactPropertiesInfo → ArtifactPropertiesInfo}
    (hf : ∀ info, (f info).key = info.key) {info : ArtifactPropertiesInfo}
    (h : c.artifactPropertiesPerFilter key = some info) :
    ∃ info', (c.modifyInfo key f).artifactPropertiesPerFilter key = some info' := by
  rw [← Option.isSome_iff_exists]
  have hmem := List.mem_of_find?_eq_some h
  have hkey : info.key = key := by simpa using List.find?_some h
  apply List.find?_isSome.mpr
  exact ⟨f info, mem_modifyInfo.mpr ⟨info, hmem, if_pos hkey⟩, by simp [hf, hkey]⟩

/-- The call for a filter and the update of its entry. -/
theorem keeps_setInfoProperties (hcurrent : IsEnclosing currentGroup enclosing) :
    Triple (fun s => Inside origin enclosing s ∧ HasInfo key s)
      (setInfoProperties data currentGroup fileTags key)
      (fun _ => Inside origin enclosing) (fun _ => Inside origin enclosing) := by
  rintro s ⟨hs, info, hfind⟩
  have hinfo := List.mem_of_find?_eq_some hfind
  have hkey : info.key = key := by simpa using List.find?_some hfind
  subst hkey
  let call : PropertyMapCall := ⟨data, some info.key, currentGroup, info.propertyMap, s.context⟩
  have hgroups : call.after.groups = s.context.groups := call.sameOwners.groups_eq
  have hout : (getGroupPropertyMap data (some info.key) currentGroup info.propertyMap).outcome s =
      (call.result, s.afterCall call) := rfl
  simp only [setInfoProperties, context, outcome_bind, outcome_query, hfind, Option.bind_some, hout]
  have hframe : call.Frame ↔ FirstSets s.calls call :=
    frame_iff rfl (hs.1.info info hinfo) rfl rfl hs.1.owned
  cases hresult : call.result with
  | error e =>
      refine ⟨hs.1.afterCall rfl hframe (Or.inr ?_), ?_⟩
      · rcases call.cases_on with ⟨e', hnew, -⟩ | ⟨new, -, -, hok, -⟩ | ⟨new, -, -, -, hok, -⟩ |
          ⟨new, m, -, -, -, hok, -⟩
        · simp [PropertyMapCall.getsMap, hnew]
        · rw [hresult] at hok
          cases hok
        · rw [hresult] at hok
          cases hok
        · rw [hresult] at hok
          cases hok
      · intro g hg
        simp only [State.afterCall, hgroups]
        exact hs.2 g hg
  | ok m =>
      refine ⟨hs.1.filterCall rfl hinfo rfl rfl (hs.parentMap_shared hcurrent)
        (hs.parentMap_lt hcurrent) hresult (fun _ => rfl) fun _ => rfl, ?_⟩
      intro g hg
      simp only [State.afterCall, ProductContext.modifyInfo, hgroups]
      exact hs.2 g hg

theorem provideInfo_spec :
    Triple (Inside origin enclosing) (provideInfo data key)
      (fun _ s => Inside origin enclosing s ∧ HasInfo key s) (fun _ => Inside origin enclosing) := by
  intro s hs
  simp only [provideInfo, context, outcome_bind, outcome_query]
  cases hfind : s.context.artifactPropertiesPerFilter key with
  | some info =>
      simp only [value, outcome_query]
      cases checkConflict data info with
      | error e => exact hs
      | ok _ => exact ⟨hs, info, hfind⟩
  | none =>
      refine ⟨⟨hs.1.createInfo hfind, hs.2⟩, ?_⟩
      rw [HasInfo, ← Option.isSome_iff_exists]
      apply List.find?_isSome.mpr
      exact ⟨⟨key, SortedSet.ofList key, ∅, none, []⟩, by simp [createInfo], by simp⟩

/-- A group with a file tags filter keeps the invariant. -/
theorem keeps_resolveFilterGroup (hcurrent : IsEnclosing currentGroup enclosing) :
    Keeps (Inside origin enclosing) (resolveFilterGroup data currentGroup fileTags key) := by
  refine Triple.bind provideInfo_spec fun _ => ?_
  refine Triple.bind ?_ fun _ => keeps_setInfoProperties hcurrent
  rintro s ⟨hs, info, hfind⟩
  refine ⟨⟨hs.1.modifyInfo (fun _ => rfl) fun _ => rfl, hs.2⟩, ?_⟩
  exact find_modifyInfo (fun _ => rfl) hfind

/-! ## Groups with files keep the invariant -/

theorem sameMaps_createSourceArtifact (acc : SourceFiles) (fileName : String) :
    SameMaps acc.context
      (createSourceArtifact env group wildcard filesLocation acc fileName).context := by
  unfold createSourceArtifact
  dsimp only
  split
  · exact ⟨rfl, rfl, rfl, rfl, rfl⟩
  · split
    · split
      · exact SameMaps.refl _
      · exact ⟨rfl, rfl, rfl, rfl, rfl⟩
    · exact SameMaps.refl _

theorem sameMaps_foldl (fileNames : List String) (acc : SourceFiles) :
    SameMaps acc.context
      (fileNames.foldl (createSourceArtifact env group wildcard filesLocation) acc).context := by
  induction fileNames generalizing acc with
  | nil => exact SameMaps.refl _
  | cons fileName fileNames ih => exact (sameMaps_createSourceArtifact acc fileName).trans (ih _)

/-- A property map that a new group may have: no filter has it for itself. -/
def Available (m : PropertyMapId) (s : State) : Prop :=
  m < s.context.nextMap ∧ ∀ info, info ∈ s.context.artifactProperties →
    info.propertyMap = some m → ∀ first, firstWithMap s.calls info.key = some first →
      first.setsProperties = false

theorem Available.congr (h : Available m s) (hsame : SameMaps s.context c) :
    Available m { s with context := c } := by
  refine ⟨?_, ?_⟩
  · simp only [hsame.nextMap_eq]
    exact h.1
  · simp only [hsame.artifactProperties_eq]
    exact h.2

theorem keeps_createSourceArtifacts {fileNames : List String} :
    Keeps (fun s => Inside origin enclosing s ∧ Available m s)
      (createSourceArtifacts env group wildcard filesLocation fileNames) :=
  Keeps.transform fun s hs => ⟨hs.1.congr (sameMaps_foldl fileNames ⟨s.context, [], []⟩),
    hs.2.congr (sameMaps_foldl fileNames ⟨s.context, [], []⟩)⟩

theorem keeps_createWildcards {patterns : List String} :
    Keeps (fun s => Inside origin enclosing s ∧ Available m s)
      (createWildcards env data group patterns) := by
  unfold createWildcards
  split
  · exact Keeps.pure _
  · refine Keeps.bind (Keeps.query _) fun _ => ?_
    exact Keeps.bind keeps_createSourceArtifacts fun _ => Keeps.pure _

theorem keeps_reportFileErrors {enabled : Bool} {errors : List String} :
    Keeps (fun s => Inside origin enclosing s ∧ Available m s)
      (reportFileErrors env enabled errors) := by
  unfold reportFileErrors
  split
  · exact Keeps.pure _
  · split
    · exact Keeps.fail _
    · refine Keeps.update fun s hs => ?_
      exact ⟨hs.1.congr ⟨rfl, rfl, rfl, rfl, rfl⟩, hs.2.congr ⟨rfl, rfl, rfl, rfl, rfl⟩⟩

/-- The call for a group with files leaves it with an available map. -/
theorem getGroupPropertyMap_spec (hcurrent : IsEnclosing currentGroup enclosing) :
    Triple (Inside origin enclosing) (getGroupPropertyMap data none currentGroup none)
      (fun m s => Inside origin enclosing s ∧ Available m s) (fun _ => Inside origin enclosing) := by
  intro s hs
  let call : PropertyMapCall := ⟨data, none, currentGroup, none, s.context⟩
  have hsame : SameOwners s.context call.after := call.sameOwners
  have hframe : call.Frame ↔ FirstSets s.calls call := by
    refine iff_of_true (frame_of_none hs.1.owned rfl) ?_
    intro key first hkey
    cases hkey
  have hinside : Inside origin enclosing (s.afterCall call) := by
    refine ⟨hs.1.afterCall rfl hframe (Or.inl rfl), ?_⟩
    intro g hg
    simp only [State.afterCall, hsame.groups_eq]
    exact hs.2 g hg
  have hout : (getGroupPropertyMap data none currentGroup none).outcome s =
      (call.result, s.afterCall call) := rfl
  rw [hout]
  cases hresult : call.result with
  | error e => exact hinside
  | ok m =>
      refine ⟨hinside, ?_, ?_⟩
      · rcases Inv.result_cases hresult with hex | ⟨-, -, -, hlt⟩ | ⟨-, -, hm⟩
        · cases hex
        · exact hlt
        · rw [hm]
          exact lt_of_lt_of_le (hs.parentMap_lt hcurrent) hsame.nextMap_le
      · intro info hinfo hmap first hfirst
        simp only [State.afterCall] at hinfo hfirst
        rw [hsame.artifactProperties_eq] at hinfo
        rw [firstWithMap_snoc_of_ne (Or.inl (by simp [call]))] at hfirst
        rcases (hs.1.info info hinfo).some m hmap with ⟨first', hfirst', hsets, -⟩
        rw [hfirst, Option.some.injEq] at hfirst'
        subst hfirst'
        by_contra hnot
        rw [Bool.not_eq_false] at hnot
        rcases Inv.result_cases hresult with hex | ⟨-, -, hm, -⟩ | ⟨-, -, hm⟩
        · cases hex
        · have hlt := hs.1.owned.info_lt info hinfo m hmap
          rw [hm] at hlt
          exact Nat.lt_irrefl _ hlt
        · have hunshared := (hsets hnot).1
          rw [hm] at hunshared
          exact hs.parentMap_shared hcurrent hunshared

/-- A new group with an available map keeps the invariant. -/
theorem addGroup_spec {name : String} (hm : group.properties = m) :
    Triple (fun s => Inside origin enclosing s ∧ Available m s) (addGroup group name)
      (fun g => Inside origin (g :: enclosing)) (fun _ => Inside origin enclosing) := by
  subst hm
  rintro s ⟨hs, hlt, havailable⟩
  simp only [addGroup, context, outcome_bind, outcome_query]
  have hunshared : ∀ (g : ResolvedGroup) (c : ProductContext) (m : PropertyMapId),
      Unshared { c with groups := c.groups ++ [g] } m ↔ Unshared c m ∧ g.properties ≠ m := by
    intro g c m
    simp only [Unshared, List.mem_append, List.mem_singleton, or_imp, forall_and, forall_eq,
      and_assoc]
  refine ⟨⟨⟨hs.1.owned.product_lt, ?_, hs.1.owned.info_lt, hs.1.owned.keys⟩, ?_, hs.1.missing,
    hs.1.frames, hs.1.product, hs.1.chain, hs.1.origin_eq⟩, ?_⟩
  · intro g hg
    rcases List.mem_append.mp hg with hg | hg
    · exact hs.1.owned.group_lt g hg
    · rw [List.mem_singleton.mp hg]
      exact hlt
  · intro info hinfo
    have hspec := hs.1.info info hinfo
    refine ⟨hspec.none, fun m hm => ?_⟩
    rcases hspec.some m hm with ⟨first, hfirst, hsets, hshared⟩
    refine ⟨first, hfirst, fun hset => ⟨?_, (hsets hset).2⟩, fun hset => ?_⟩
    · refine (hunshared _ s.context m).mpr ⟨(hsets hset).1, ?_⟩
      rintro rfl
      have hfalse := havailable info hinfo hm first hfirst
      rw [hset] at hfalse
      cases hfalse
    · exact fun hu => hshared hset ((hunshared _ s.context m).mp hu).1
  · intro g hg
    rcases List.mem_cons.mp hg with rfl | hg
    · exact List.mem_append_right _ (List.mem_singleton_self _)
    · exact List.mem_append_left _ (hs.2 g hg)

/-- A group with files keeps the invariant and is one of the groups afterwards. -/
theorem resolveFileGroup_spec {files : List String} {fileTagsSet : Bool}
    (hcurrent : IsEnclosing currentGroup enclosing) :
    Triple (Inside origin enclosing)
      (resolveFileGroup env data isEnabled currentGroup files fileTags fileTagsSet)
      (fun g => Inside origin (g :: enclosing)) (fun _ => Inside origin enclosing) := by
  have hquery : ∀ {α : Type} (v : Except ErrorInfo α) (m : PropertyMapId),
      Triple (fun s => Inside origin enclosing s ∧ Available m s) (value v)
        (fun _ s => Inside origin enclosing s ∧ Available m s) (fun _ => Inside origin enclosing) :=
    fun v m => (Keeps.query fun _ => v).weaken (fun _ h => h) (fun _ _ h => h) fun _ _ h => h.1
  refine Triple.bind (Keeps.query _) fun _ => ?_
  refine Triple.bind (getGroupPropertyMap_spec hcurrent) fun m => ?_
  refine Triple.bind (hquery _ m) fun overrideTags => ?_
  refine Triple.bind (keeps_createWildcards.weaken (fun _ h => h) (fun _ _ h => h)
    fun _ _ h => h.1) fun _ => ?_
  refine Triple.bind (keeps_createSourceArtifacts.weaken (fun _ h => h) (fun _ _ h => h)
    fun _ _ h => h.1) fun _ => ?_
  refine Triple.bind (keeps_reportFileErrors.weaken (fun _ h => h) (fun _ _ h => h)
    fun _ _ h => h.1) fun _ => ?_
  refine Triple.bind (hquery _ m) fun _ => ?_
  exact addGroup_spec rfl

/-- A group whose condition is known keeps the invariant if the groups in it do. -/
theorem keeps_resolveGroupFully {resolveChildren : ResolvedGroup → Op Unit}
    (hcurrent : IsEnclosing currentGroup enclosing)
    (hchildren : ∀ g, Keeps (Inside origin (g :: enclosing)) (resolveChildren g)) :
    Keeps (Inside origin enclosing)
      (resolveGroupFully env data isEnabled currentGroup resolveChildren) := by
  have hinner : ∀ g s, Inside origin (g :: enclosing) s → Inside origin enclosing s :=
    fun _ _ h => ⟨h.1, fun g' hg' => h.2 g' (List.mem_cons_of_mem _ hg')⟩
  refine Keeps.bind (Keeps.query _) fun files => ?_
  refine Keeps.bind (Keeps.query _) fun fileTags => ?_
  refine Keeps.bind (Keeps.query _) fun fileTagsFilter => ?_
  split
  · split
    · exact Keeps.fail _
    · split
      · exact Keeps.pure _
      · exact keeps_resolveFilterGroup hcurrent
  · refine Triple.bind (resolveFileGroup_spec hcurrent) fun g => ?_
    exact (hchildren g).weaken (fun _ h => h) (fun _ => hinner g) fun _ => hinner g

theorem keeps_groupEnabled : Keeps (Inside origin enclosing) (groupEnabled data currentGroup) := by
  refine Keeps.bind (Keeps.query _) fun c => ?_
  dsimp only
  split
  · exact Keeps.query _
  · exact Keeps.pure _

theorem keeps_handleGroupError {error : ErrorInfo} :
    Keeps (Inside origin enclosing) (handleGroupError env isEnabled error) := by
  unfold handleGroupError
  split
  · exact Keeps.pure _
  · split
    · exact Keeps.fail _
    · exact keeps_modifyContext fun _ => ⟨rfl, rfl, rfl, rfl, rfl⟩

mutual

/-- A group with all groups in it keeps the invariant. -/
theorem keeps_resolveGroup (item : GroupItem) (enclosing : List ResolvedGroup)
    (currentGroup : Option ResolvedGroup) (hcurrent : IsEnclosing currentGroup enclosing) :
    Keeps (Inside origin enclosing) (resolveGroup env currentGroup item) := by
  cases item with
  | mk data children =>
      rw [resolveGroup]
      refine Keeps.bind keeps_groupEnabled fun isEnabled => ?_
      refine Keeps.attempt (keeps_resolveGroupFully hcurrent fun g => ?_)
        fun _ => keeps_handleGroupError
      apply keeps_resolveGroups children (g :: enclosing) (some g)
      intro g' hg'
      cases hg'
      exact List.mem_cons_self

/-- Groups one after the other keep the invariant. -/
theorem keeps_resolveGroups (items : List GroupItem) (enclosing : List ResolvedGroup)
    (currentGroup : Option ResolvedGroup) (hcurrent : IsEnclosing currentGroup enclosing) :
    Keeps (Inside origin enclosing) (resolveGroups env currentGroup items) := by
  cases items with
  | nil =>
      rw [resolveGroups]
      exact Keeps.pure _
  | cons item items =>
      rw [resolveGroups]
      exact Keeps.bind (keeps_resolveGroup item enclosing currentGroup hcurrent) fun _ =>
        keeps_resolveGroups items enclosing currentGroup hcurrent

end

end Operations

/-! ## Whole products -/

/-- A product whose module properties are known and whose groups are not resolved yet. -/
structure NewProduct (c : ProductContext) : Prop where
  product_lt : c.moduleProperties < c.nextMap
  groups_eq : c.groups = []
  artifactProperties_eq : c.artifactProperties = []

theorem inv_start (hc : NewProduct c) : Inv c ⟨c, []⟩ := by
  constructor
  · refine ⟨hc.product_lt, ?_, ?_, ?_⟩
    · simp [hc.groups_eq]
    · simp [hc.artifactProperties_eq]
    · simp [hc.artifactProperties_eq]
  · simp [hc.artifactProperties_eq]
  · exact fun _ _ => rfl
  · simp
  · simp
  · exact MapsChain.nil
  · rfl

/-- The product after its groups were resolved, with the calls on the way. -/
def resolveAll (env : Environment) (c : ProductContext) (items : List GroupItem) : State :=
  ((resolveGroups env none items).outcome ⟨c, []⟩).2

/-- Resolving the groups of a product keeps the invariant. -/
theorem inv_resolveAll {env : Environment} (hc : NewProduct c) (items : List GroupItem) :
    Inv c (resolveAll env c items) := by
  have hkeep : StateOp.Keeps (Inside c []) (resolveGroups env none items) :=
    keeps_resolveGroups items [] none fun _ h => by cases h
  exact (hkeep.outcome ⟨inv_start hc, by simp⟩).1

/-- Group properties stay in the group: no call changes the property map of the product, of
another group with files or of another filter, and the module properties of the product are
the same at the end. -/
structure PropertiesStay (c : ProductContext) (s : State) : Prop where
  frames : ∀ call, call ∈ s.calls → call.Frame
  product : s.context.moduleProperties = c.moduleProperties ∧
    s.context.maps c.moduleProperties = c.maps c.moduleProperties

/-- In a chain of calls that leave the map of the product alone it is the same at the end. -/
theorem MapsChain.product_eq {maps maps' : PropertyMapId → VariantMap} {m : PropertyMapId}
    (h : MapsChain maps calls maps')
    (hproduct : ∀ call, call ∈ calls → call.before.moduleProperties = m)
    (hframe : ∀ call, call ∈ calls → call.Frame) : maps' m = maps m := by
  induction h with
  | nil => rfl
  | snoc call _ ih =>
      rename_i earlier _
      have hlast : call ∈ earlier ++ [call] :=
        List.mem_append_right _ (List.mem_singleton_self call)
      have hcall := (hframe call hlast).product
      rw [hproduct call hlast] at hcall
      rw [hcall]
      exact ih (fun c hc => hproduct c (List.mem_append_left _ hc))
        fun c hc => hframe c (List.mem_append_left _ hc)

/-- Group properties stay in the group exactly if for each filter the first group that gets a
property map sets properties or no later one changes any. -/
theorem propertiesStay_iff (env : Environment) (c : ProductContext) (items : List GroupItem)
    (hc : NewProduct c) :
    PropertiesStay c (resolveAll env c items) ↔
      ∀ earlier call later, (resolveAll env c items).calls = earlier ++ call :: later →
        FirstSets earlier call := by
  have hinv : Inv c (resolveAll env c items) := inv_resolveAll hc items
  constructor
  · intro hstay earlier call later hsplit
    apply (hinv.frames earlier call later hsplit).mp
    apply hstay.frames
    rw [hsplit]
    exact List.mem_append_right _ List.mem_cons_self
  · intro hfirst
    have hframes : ∀ call, call ∈ (resolveAll env c items).calls → call.Frame := by
      intro call hcall
      rcases List.append_of_mem hcall with ⟨earlier, later, hsplit⟩
      exact (hinv.frames earlier call later hsplit).mpr (hfirst earlier call later hsplit)
    refine ⟨hframes, hinv.origin_eq, ?_⟩
    exact hinv.chain.product_eq
      (fun call hcall => (hinv.product call hcall).trans hinv.origin_eq) hframes

/-! ## Two groups with one filter -/

/-- A group for applications in a file; its module properties come from a function. -/
def applicationGroup (file : FilePath) (set : VariantMap → Except ErrorInfo VariantMap) :
    GroupItem :=
  .mk {
    location := ⟨file, 1⟩
    filesLocation := ⟨file, 2⟩
    condition := .ok true
    files := .ok []
    fileTags := .ok (∅, false)
    fileTagsFilter := .ok ["application"]
    filePrefix := .ok ("", false)
    overrideTags := .ok true
    excludeFiles := .ok []
    name := .ok ""
    targetOfModule := ""
    resolveAdditionalModuleProperties := set } []

/-- A product with one module property. -/
def installProduct : ProductContext where
  maps _ := [("qbs", .map [("install", .bool false)])]
  nextMap := 1
  moduleProperties := 0
  enabled := true
  groups := []
  artifactProperties := []
  sourceArtifactLocations := ∅
  missingSourceFiles := ∅
  warnings := []

theorem installProduct_new : NewProduct installProduct :=
  ⟨by decide, rfl, rfl⟩

/-- Files and patterns do not matter here. -/
def noFileSystem : Environment where
  strictErrors := true
  fileExists _ := true
  path p := p
  resolvePath _ name := name
  isPattern _ := false
  expandPatterns _ _ _ _ := ∅

/-- The base file adds a file tag to applications and the derived file installs them. -/
def installGroups : List GroupItem :=
  [applicationGroup "base.qbs" fun _ => .ok [],
    applicationGroup "derived.qbs" fun m => .ok (m.insert "qbs" (.map [("install", .bool true)]))]

theorem propertiesStay_iff_installGroups :
    PropertiesStay installProduct (resolveAll noFileSystem installProduct installGroups) ↔
      ∀ earlier call later,
        (resolveAll noFileSystem installProduct installGroups).calls = earlier ++ call :: later →
          FirstSets earlier call :=
  propertiesStay_iff noFileSystem installProduct installGroups installProduct_new

/-- The second group changes the module property of the product. -/
theorem installGroups_leak :
    NewProduct installProduct ∧
      ((resolveAll noFileSystem installProduct installGroups).context.maps 0).moduleProperty
        "qbs" "install" = .bool true ∧
      ¬PropertiesStay installProduct (resolveAll noFileSystem installProduct installGroups) := by
  have hvalue : ((resolveAll noFileSystem installProduct installGroups).context.maps 0).moduleProperty
      "qbs" "install" = .bool true := by decide
  refine ⟨installProduct_new, hvalue, ?_⟩
  intro h
  have hproduct := h.product.2
  change (resolveAll noFileSystem installProduct installGroups).context.maps 0 = _ at hproduct
  rw [hproduct] at hvalue
  revert hvalue
  decide

end ProjectResolver

end Qbs
