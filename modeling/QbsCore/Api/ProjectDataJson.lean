import QbsCore.Api.ProjectData
import Mathlib.Data.List.Forall2
import Mathlib.Data.List.Nodup

/-!
# The JSON objects of equal data

The comparison of project data leaves out some of what the JSON objects contain: the prefix of a
group, the build directory of a product and whether it can be run, whether an artifact is a target
artifact, and its install data.  Besides, property maps compare equal that have different values.

Main results:

- Theorem {lit}`objectOf_eq_iff`: objects with different keys are the same if their entries are.
- Theorem {lit}`ProjectData.toJson_eq_iff`: when equal data have the same JSON objects.

Current gaps:

- None.
-/

namespace Qbs

namespace Api

/-! ## Objects -/

theorem objectOf_concat (entries : List (String × Variant)) (e : String × Variant) :
    objectOf (entries ++ [e]) = (objectOf entries).insert e.1 e.2 := by
  simp [objectOf]

variable {entries : List (String × Variant)}

theorem value_objectOf (hnodup : (entries.map Prod.fst).Nodup) {e : String × Variant}
    (he : e ∈ entries) : (objectOf entries).value e.1 = e.2 := by
  induction entries using List.reverseRecOn with
  | nil => simp at he
  | append_singleton entries last ih =>
      rw [List.map_append, List.nodup_append] at hnodup
      rw [objectOf_concat, VariantMap.value_insert]
      rcases List.mem_append.mp he with he | he
      · have hne : last.1 ≠ e.1 := by
          intro heq
          exact hnodup.2.2 e.1 (List.mem_map_of_mem he) last.1 (by simp) heq.symm
        rw [if_neg hne]
        exact ih hnodup.1 he
      · rw [List.mem_singleton.mp he]
        simp

theorem value_objectOf_of_notMem {key : String} (h : key ∉ entries.map Prod.fst) :
    (objectOf entries).value key = .invalid := by
  induction entries using List.reverseRecOn with
  | nil => rfl
  | append_singleton entries last ih =>
      rw [List.map_append, List.mem_append, not_or] at h
      rw [objectOf_concat, VariantMap.value_insert, if_neg (by simpa [eq_comm] using h.2), ih h.1]

/-- The object determines the first entries that it is made from. -/
theorem eq_map_value (entries rest : List (String × Variant))
    (hnodup : ((entries ++ rest).map Prod.fst).Nodup) :
    entries = (entries.map Prod.fst).map fun key =>
      (key, (objectOf (entries ++ rest)).value key) := by
  rw [List.map_map]
  conv_lhs => rw [← List.map_id entries]
  refine List.map_congr_left fun e he => ?_
  simp [value_objectOf hnodup (List.mem_append_left _ he)]

/-- Objects made from the same keys are the same if the values are. -/
theorem objectOf_eq_iff {entries' : List (String × Variant)}
    (hkeys : entries.map Prod.fst = entries'.map Prod.fst) (hnodup : (entries.map Prod.fst).Nodup) :
    objectOf entries = objectOf entries' ↔ entries = entries' := by
  constructor
  · intro h
    have hentries := eq_map_value entries [] (by rwa [List.append_nil])
    have hentries' := eq_map_value entries' [] (by rwa [List.append_nil, ← hkeys])
    rw [hentries, hentries', List.append_nil, List.append_nil, hkeys, h]
  · intro h
    rw [h]

/-- The object determines the entries and, in the entry that may come with them, the values of
module properties. -/
theorem parts_objectOf (hnodup : ("module-properties" :: entries.map Prod.fst).Nodup)
    (properties : VariantMap) (names : List String) :
    let obj := objectOf (entries ++ modulePropertiesEntry properties names)
    entries = (entries.map Prod.fst).map (fun key => (key, obj.value key)) ∧
      propertyValues properties names = (obj.value "module-properties").toMap := by
  rcases List.nodup_cons.mp hnodup with ⟨hnotMem, hentries⟩
  unfold modulePropertiesEntry
  split_ifs with hempty
  · refine ⟨eq_map_value _ _ (by rwa [List.append_nil]), ?_⟩
    rw [List.append_nil, value_objectOf_of_notMem hnotMem, hempty]
    rfl
  · have hall : ((entries ++ [("module-properties",
        Variant.map (propertyValues properties names))]).map Prod.fst).Nodup := by
      rw [List.map_append]
      exact List.nodup_append_comm.mp hnodup
    refine ⟨eq_map_value _ _ hall, ?_⟩
    rw [value_objectOf hall (List.mem_append_right _ List.mem_cons_self)]
    rfl

/-- The entry for module properties comes with other ones. -/
theorem objectOf_append_eq_iff {entries' : List (String × Variant)}
    (hkeys : entries.map Prod.fst = entries'.map Prod.fst)
    (hnodup : ("module-properties" :: entries.map Prod.fst).Nodup)
    (properties properties' : VariantMap) (names names' : List String) :
    objectOf (entries ++ modulePropertiesEntry properties names) =
        objectOf (entries' ++ modulePropertiesEntry properties' names') ↔
      entries = entries' ∧ propertyValues properties names = propertyValues properties' names' := by
  constructor
  · intro h
    rcases parts_objectOf hnodup properties names with ⟨hentries, hvalues⟩
    rcases parts_objectOf (hkeys ▸ hnodup) properties' names' with ⟨hentries', hvalues'⟩
    exact ⟨by rw [hentries, hentries', hkeys, h], by rw [hvalues, hvalues', h]⟩
  · rintro ⟨rfl, hvalues⟩
    rw [modulePropertiesEntry, modulePropertiesEntry, hvalues]

theorem objectOf_ne_nil (hne : entries ≠ []) :
    objectOf entries ≠ [] := by
  rcases List.eq_nil_or_concat entries with hnil | ⟨before, last, hlast⟩
  · exact absurd hnil hne
  · rw [hlast, List.concat_eq_append, objectOf_concat]
    cases objectOf before with
    | nil => simp [VariantMap.insert]
    | cons e obj =>
        unfold VariantMap.insert
        split
        · simp
        · split <;> simp

/-- Data that are not valid have an empty object, which those that are valid do not have. -/
theorem validObject_eq_iff {isValid isValid' : Bool} {obj obj' : JsonObject} (hne : obj ≠ [])
    (hne' : obj' ≠ []) :
    (if isValid = true then obj else []) = (if isValid' = true then obj' else []) ↔
      isValid = isValid' ∧ (isValid = true → obj = obj') := by
  cases isValid
  · cases isValid'
    · simp
    · simp [hne'.symm]
  · cases isValid'
    · simp [hne]
    · simp

theorem forall₂_of_isEqv {α : Type} {eqv : α → α → Bool} :
    ∀ {l l' : List α}, l.isEqv l' eqv = true → List.Forall₂ (fun a b => eqv a b = true) l l'
  | [], [], _ => List.Forall₂.nil
  | [], _ :: _, h => by simp at h
  | _ :: _, [], h => by simp at h
  | a :: l, b :: l', h => by
      rw [List.isEqv_cons_cons, Bool.and_eq_true] at h
      exact List.Forall₂.cons h.1 (forall₂_of_isEqv h.2)

/-- Arrays are the same if the objects in them are. -/
theorem toJsonArray_eq_iff {α : Type} {eqv S : α → α → Prop} {f f' : α → JsonObject}
    {l l' : List α} (h : List.Forall₂ eqv l l')
    (helems : ∀ a, a ∈ l → ∀ b, eqv a b → (f a = f' b ↔ S a b)) :
    toJsonArray (l.map f) = toJsonArray (l'.map f') ↔ List.Forall₂ S l l' := by
  unfold toJsonArray
  rw [Variant.list.injEq]
  induction h with
  | nil => simp
  | cons heqv _ ih =>
      rw [List.map_cons, List.map_cons, List.map_cons, List.map_cons, List.cons.injEq,
        Variant.map.injEq, helems _ (by simp) _ heqv,
        ih fun a ha => helems a (List.mem_cons_of_mem _ ha), List.forall₂_cons]

/-! ## Artifacts -/

namespace InstallData

/-- Those parts are the same that the JSON objects contain. -/
def SameShown (d e : InstallData) : Prop :=
  d.isValid = e.isValid ∧ (d.isValid = true → d.isInstallable = e.isInstallable ∧
    (d.isInstallable = true → d.installFilePath = e.installFilePath ∧
      d.installRoot = e.installRoot))

theorem toJson_eq_iff (d e : InstallData) : d.toJson = e.toJson ↔ SameShown d e := by
  unfold SameShown toJson
  rw [validObject_eq_iff (objectOf_ne_nil (by simp)) (objectOf_ne_nil (by simp))]
  refine and_congr_right fun _ => imp_congr_right fun _ => ?_
  by_cases hinstallable : d.isInstallable = e.isInstallable
  · rw [← hinstallable]
    split
    · rename_i hinstall
      rw [objectOf_eq_iff (by simp) (by simp)]
      simp [hinstall]
    · rename_i hinstall
      simp [hinstall]
  · -- whether to install is the value of a key that there is in both cases
    have hvalue : ∀ d : InstallData, (objectOf (("is-installable", .bool d.isInstallable) ::
        if d.isInstallable = true then
          [("install-file-path", .string d.installFilePath),
            ("install-root", .string d.installRoot)]
        else [])).value "is-installable" = .bool d.isInstallable := by
      intro d
      have hmem : ∀ rest : List (String × Variant),
          ("is-installable", Variant.bool d.isInstallable) ∈
            ("is-installable", Variant.bool d.isInstallable) :: rest := by
        intro rest
        simp
      refine value_objectOf ?_ (hmem _)
      split <;> simp
    constructor
    · intro h
      have hbool := hvalue d
      rw [h, hvalue e, Variant.bool.injEq] at hbool
      exact absurd hbool.symm hinstallable
    · intro h
      exact absurd h.1 hinstallable

end InstallData

variable {ext : Externals} {names names' : List String}

namespace ArtifactData

/-- Those parts are the same that the JSON objects contain and the comparison leaves out or takes
loosely. -/
def SameOmitted (names : List String) (a b : ArtifactData) : Prop :=
  a.isValid = b.isValid ∧ (a.isValid = true → a.isTargetArtifact = b.isTargetArtifact ∧
    a.isExecutable = b.isExecutable ∧ a.installData.SameShown b.installData ∧
      propertyValues a.properties names = propertyValues b.properties names)

theorem toJson_eq_iff {a b : ArtifactData} (h : a.equals ext b = true) (names : List String) :
    a.toJson names = b.toJson names ↔ SameOmitted names a b := by
  unfold equals at h
  simp only [Bool.and_eq_true, decide_eq_true_eq] at h
  rcases h with ⟨⟨⟨hfilePath, htags⟩, hgenerated⟩, -⟩
  unfold toJson SameOmitted
  rw [validObject_eq_iff (objectOf_ne_nil (by simp)) (objectOf_ne_nil (by simp)),
    objectOf_append_eq_iff (by simp) (by simp)]
  simp only [hfilePath, htags, hgenerated, List.cons.injEq, Prod.mk.injEq, true_and, and_true,
    Variant.bool.injEq, Variant.map.injEq, InstallData.toJson_eq_iff]
  tauto

end ArtifactData

/-! ## Groups -/

namespace GroupData

/-- Those parts are the same that the JSON objects contain and the comparison leaves out or takes
loosely. -/
def SameOmitted (names names' : List String) (g h : GroupData) : Prop :=
  g.isValid = true → g.groupPrefix = h.groupPrefix ∧
    List.Forall₂ (ArtifactData.SameOmitted []) g.sourceArtifacts h.sourceArtifacts ∧
      List.Forall₂ (ArtifactData.SameOmitted []) g.sourceArtifactsFromWildcards
        h.sourceArtifactsFromWildcards ∧
        propertyValues g.properties names = propertyValues h.properties names'

theorem isValid_eq {g h : GroupData} (heq : g.equals ext h = true) : g.isValid = h.isValid := by
  unfold equals at heq
  split at heq
  · rename_i hinvalid
    simp only [Bool.and_eq_true, Bool.not_eq_true'] at hinvalid
    rw [hinvalid.1, hinvalid.2]
  · simp only [Bool.and_eq_true, decide_eq_true_eq] at heq
    tauto

theorem toJson_eq_iff {g h : GroupData} (heq : g.equals ext h = true) :
    g.toJson names = h.toJson names' ↔ SameOmitted names names' g h := by
  unfold toJson SameOmitted
  rw [validObject_eq_iff (objectOf_ne_nil (by simp)) (objectOf_ne_nil (by simp)), isValid_eq heq]
  simp only [true_and]
  refine imp_congr_right fun hvalid => ?_
  rw [← isValid_eq heq] at hvalid
  unfold equals at heq
  rw [if_neg (by simp [hvalid])] at heq
  simp only [Bool.and_eq_true, decide_eq_true_eq] at heq
  rcases heq with ⟨⟨⟨⟨⟨⟨-, hname⟩, hlocation⟩, hwildcards⟩, hsource⟩, -⟩, henabled⟩
  have hartifacts := fun {l l' : List ArtifactData} (h : l.isEqv l' (ArtifactData.equals ext)) =>
    toJsonArray_eq_iff (forall₂_of_isEqv h) fun a _ b hab => ArtifactData.toJson_eq_iff hab []
  rw [objectOf_append_eq_iff (by simp) (by simp)]
  simp only [hname, hlocation, henabled, hartifacts hsource, hartifacts hwildcards,
    List.cons.injEq, Prod.mk.injEq, true_and, and_true, Variant.string.injEq, and_assoc]

end GroupData

/-! ## Products -/

namespace ProductData

/-- Those parts are the same that the JSON objects contain and the comparison leaves out or takes
loosely. -/
def SameOmitted (ext : Externals) (names : List String) (p q : ProductData) : Prop :=
  p.isValid = true → p.buildDirectory = q.buildDirectory ∧ p.isRunnable = q.isRunnable ∧
    p.targetExecutable = q.targetExecutable ∧ p.properties = q.properties ∧
      List.Forall₂ (fun g h : GroupData =>
        g.SameOmitted (p.groupPropNames ext g names) (q.groupPropNames ext h names) h)
        p.groups q.groups ∧
        List.Forall₂ (ArtifactData.SameOmitted names) p.generatedArtifacts q.generatedArtifacts ∧
          propertyValues p.moduleProperties names = propertyValues q.moduleProperties names

theorem isValid_eq {p q : ProductData} (heq : p.equals ext q = true) : p.isValid = q.isValid := by
  unfold equals at heq
  split at heq
  · rename_i hinvalid
    simp only [Bool.and_eq_true, Bool.not_eq_true'] at hinvalid
    rw [hinvalid.1, hinvalid.2]
  · simp only [Bool.and_eq_true, decide_eq_true_eq] at heq
    tauto

theorem toJson_eq_iff {p q : ProductData} (heq : p.equals ext q = true) (names : List String) :
    p.toJson ext names = q.toJson ext names ↔ SameOmitted ext names p q := by
  unfold toJson SameOmitted
  rw [validObject_eq_iff (objectOf_ne_nil (by simp)) (objectOf_ne_nil (by simp)), isValid_eq heq]
  simp only [true_and]
  refine imp_congr_right fun hvalid => ?_
  rw [← isValid_eq heq] at hvalid
  unfold equals at heq
  rw [if_neg (by simp [hvalid])] at heq
  simp only [Bool.and_eq_true, decide_eq_true_eq] at heq
  rcases heq with ⟨⟨⟨⟨⟨⟨⟨⟨⟨⟨⟨⟨⟨⟨-, hname⟩, htargetName⟩, htype⟩, hversion⟩, hdependencies⟩, -⟩, hid⟩,
    hlocation⟩, hgroups⟩, hartifacts⟩, -⟩, -⟩, henabled⟩, hmultiplexed⟩
  have hartifacts := toJsonArray_eq_iff (forall₂_of_isEqv hartifacts)
    fun a _ b hab => ArtifactData.toJson_eq_iff hab names
  have hgroups : toJsonArray (p.groups.map fun g => g.toJson (p.groupPropNames ext g names)) =
      toJsonArray (q.groups.map fun g => g.toJson (q.groupPropNames ext g names)) ↔
        List.Forall₂ (fun g h : GroupData =>
          g.SameOmitted (p.groupPropNames ext g names) (q.groupPropNames ext h names) h)
          p.groups q.groups :=
    toJsonArray_eq_iff (forall₂_of_isEqv hgroups) fun g _ h hgh => GroupData.toJson_eq_iff hgh
  rw [objectOf_append_eq_iff (by simp) (by simp)]
  simp only [htype, hdependencies, hname, hid, htargetName, hversion, hlocation, henabled,
    hmultiplexed, hartifacts, hgroups, List.cons.injEq, Prod.mk.injEq, true_and, and_true,
    Variant.string.injEq, Variant.bool.injEq, Variant.map.injEq]
  tauto

end ProductData

/-! ## Projects -/

namespace ProjectData

/-- Those parts are the same that the JSON objects contain and the comparison leaves out or takes
loosely. -/
inductive SameOmitted (ext : Externals) (names : List String) : ProjectData → ProjectData → Prop
  | invalid (p q : ProjectData) (hinvalid : p.isValid = false) : SameOmitted ext names p q
  | valid (p q : ProjectData) (hvalid : p.isValid = true)
      (hproducts : List.Forall₂ (ProductData.SameOmitted ext names) p.products q.products)
      (hsubProjects : List.Forall₂ (SameOmitted ext names) p.subProjects q.subProjects) :
      SameOmitted ext names p q

theorem sameOmitted_iff (p q : ProjectData) : SameOmitted ext names p q ↔ (p.isValid = true →
    List.Forall₂ (ProductData.SameOmitted ext names) p.products q.products ∧
      List.Forall₂ (SameOmitted ext names) p.subProjects q.subProjects) := by
  constructor
  · intro h
    cases h with
    | invalid _ _ hinvalid => simp [hinvalid]
    | valid _ _ _ hproducts hsubProjects => exact fun _ => ⟨hproducts, hsubProjects⟩
  · intro h
    cases hvalid : p.isValid with
    | false => exact SameOmitted.invalid p q hvalid
    | true => exact SameOmitted.valid p q hvalid (h hvalid).1 (h hvalid).2

theorem toJsonObjects_eq (projects : List ProjectData) :
    toJsonObjects ext names projects = projects.map fun p => p.toJson ext names := by
  induction projects with
  | nil => simp [toJsonObjects]
  | cons p projects ih => simp [toJsonObjects, ih]

theorem forall₂_of_equalLists : ∀ {projects projects' : List ProjectData},
    equalLists ext projects projects' = true →
      List.Forall₂ (fun p q => ProjectData.equals ext p q = true) projects projects'
  | [], [], _ => List.Forall₂.nil
  | [], _ :: _, h => by simp [equalLists] at h
  | _ :: _, [], h => by simp [equalLists] at h
  | p :: projects, q :: projects', h => by
      rw [equalLists, Bool.and_eq_true] at h
      exact List.Forall₂.cons h.1 (forall₂_of_equalLists h.2)

theorem isValid_eq {p q : ProjectData} (heq : p.equals ext q = true) : p.isValid = q.isValid := by
  cases p
  unfold equals at heq
  split at heq
  · rename_i hinvalid
    simp only [Bool.and_eq_true, Bool.not_eq_true'] at hinvalid
    rw [hinvalid.1, hinvalid.2]
  · simp only [Bool.and_eq_true, decide_eq_true_eq] at heq
    tauto

theorem toJson_unfold (ext : Externals) (names : List String) (p : ProjectData) :
    p.toJson ext names =
      if p.isValid = true then
        objectOf [("name", .string p.name), ("location", .map p.location.toJson),
          ("is-enabled", .bool p.enabled),
          ("products", toJsonArray (p.products.map fun q => q.toJson ext names)),
          ("sub-projects", toJsonArray (p.subProjects.map fun q => q.toJson ext names))]
      else [] := by
  cases p
  rw [toJson, toJsonObjects_eq]

/-- Equal data have the same JSON objects if and only if what the comparison leaves out or takes
loosely is the same. -/
theorem toJson_eq_iff {p q : ProjectData} (heq : p.equals ext q = true) (names : List String) :
    p.toJson ext names = q.toJson ext names ↔ SameOmitted ext names p q := by
  induction p using induct generalizing q with
  | h p ih =>
      rw [toJson_unfold, toJson_unfold, sameOmitted_iff,
        validObject_eq_iff (objectOf_ne_nil (by simp)) (objectOf_ne_nil (by simp)),
        isValid_eq heq]
      simp only [true_and]
      refine imp_congr_right fun hvalid => ?_
      rw [← isValid_eq heq] at hvalid
      cases p
      dsimp only at hvalid
      subst hvalid
      unfold equals at heq
      rw [if_neg (by simp)] at heq
      simp only [Bool.and_eq_true, decide_eq_true_eq] at heq
      rcases heq with ⟨⟨⟨⟨⟨⟨-, henabled⟩, hname⟩, -⟩, hlocation⟩, hsubProjects⟩, hproducts⟩
      have hproductsIff := toJsonArray_eq_iff (forall₂_of_isEqv hproducts)
        fun a _ b hab => ProductData.toJson_eq_iff hab names
      have hsubProjectsIff := toJsonArray_eq_iff (forall₂_of_equalLists hsubProjects)
        fun a ha b hab => ih a ha hab
      rw [objectOf_eq_iff (by simp) (by simp)]
      simp [henabled, hname, hlocation, hproductsIff, hsubProjectsIff]

end ProjectData

end Api

end Qbs
