import QbsCore.Language.ProjectTree
import QbsCore.Library.AssocMap
import QbsCore.Library.Base64
import QbsCore.Library.CompactJson
import QbsCore.Library.Fallible
import Mathlib.Data.List.Forall2
import Mathlib.Data.List.Induction
import Mathlib.Data.List.Sort

/-!
# Multiplexing products

A product is multiplexed over properties of the qbs module: each combination of the
values of these properties gives one product, and the combination, written as a text, is
the id that tells the product from the others with its name.

Main results:

- Theorem {lit}`mem_foldl_combine`: the table has exactly the rows that take one value
  from each list.
- Theorem {lit}`extractMultiplexInfo_eq_ok_iff`: when the properties are accepted, and
  what the table is made of.
- Theorem {lit}`MultiplexInfo.toIdString_inj`: different rows have different ids.

Current gaps:

- How the multiplexing properties are evaluated is left out; values from the command line
  are set before that.
-/

namespace Qbs

open CompactJson

/-- What is used of the values of properties: the texts of numbers, and whether two values compare
as equal, for which values of different types are converted. -/
structure ScriptValues (Number : Type) extends NumberText Number where
  equal : Scalar Number → Scalar Number → Bool
  equal_self : ∀ v, v.isFinite toNumberText → equal v v

abbrev MultiplexRow (Number : Type) := List (Scalar Number)

abbrev MultiplexTable (Number : Type) := List (MultiplexRow Number)

/-! ## Combinations of values -/

section Combine

variable {α : Type}

/-- Extend each row of a table by each of some values. -/
def combine (table : List (List α)) (values : List α) : List (List α) :=
  if table.isEmpty then values.map fun v => [v]
  else table.flatMap fun row => values.map fun v => row ++ [v]

theorem combine_nil (values : List α) : combine [] values = values.map fun v => [v] :=
  rfl

variable {lists table : List (List α)} {row values : List α}

theorem mem_combine (h : table ≠ []) :
    row ∈ combine table values ↔ ∃ r, r ∈ table ∧ ∃ v, v ∈ values ∧ row = r ++ [v] := by
  unfold combine
  rw [if_neg (by simpa using h)]
  simp [List.mem_flatMap, eq_comm]

theorem combine_ne_nil (h : values ≠ []) :
    combine table values ≠ [] := by
  rcases List.exists_mem_of_ne_nil values h with ⟨v, hv⟩
  by_cases htable : table = []
  · rw [htable, combine_nil]
    simpa using h
  · rcases List.exists_mem_of_ne_nil table htable with ⟨row, hrow⟩
    exact List.ne_nil_of_mem ((mem_combine htable).mpr ⟨row, hrow, v, hv, rfl⟩)

theorem foldl_combine_ne_nil (hne : ∀ l, l ∈ lists → l ≠ []) (h : lists ≠ []) :
    lists.foldl combine [] ≠ [] := by
  rw [← List.dropLast_append_getLast h, List.foldl_append, List.foldl_cons, List.foldl_nil]
  exact combine_ne_nil (hne _ (List.getLast_mem h))

/-- The table has exactly the rows that take one value from each list. -/
theorem mem_foldl_combine (hne : ∀ l, l ∈ lists → l ≠ []) :
    row ∈ lists.foldl combine [] ↔ lists ≠ [] ∧ List.Forall₂ (fun v l => v ∈ l) row lists := by
  induction lists using List.reverseRecOn generalizing row with
  | nil => simp
  | append_singleton lists l ih =>
      have hlists : ∀ l', l' ∈ lists → l' ≠ [] :=
        fun l' hl' => hne l' (List.mem_append_left _ hl')
      rw [List.foldl_append, List.foldl_cons, List.foldl_nil]
      by_cases hnil : lists = []
      · rw [hnil, List.foldl_nil, combine_nil, List.nil_append]
        simp [List.forall₂_cons_right_iff, eq_comm]
      · rw [mem_combine (foldl_combine_ne_nil hlists hnil)]
        simp only [ih hlists]
        constructor
        · intro h
          rcases h with ⟨r, hr, v, hv, rfl⟩
          exact ⟨by simp, List.rel_append hr.2 (List.Forall₂.cons hv List.Forall₂.nil)⟩
        · intro h
          have htake := List.forall₂_take_append row lists [l] h.2
          have hdrop := List.forall₂_drop_append row lists [l] h.2
          rcases List.forall₂_cons_right_iff.mp hdrop with ⟨v, rest, hv, hrest, hrow⟩
          rw [List.forall₂_nil_right_iff.mp hrest] at hrow
          refine ⟨_, ⟨hnil, htake⟩, v, hv, ?_⟩
          rw [← hrow, List.take_append_drop]

theorem nodup_combine (htable : table.Nodup) (hvalues : values.Nodup) :
    (combine table values).Nodup := by
  unfold combine
  split_ifs with h
  · apply hvalues.map
    intro v w hvw
    exact List.singleton_inj.mp hvw
  · rw [List.nodup_flatMap]
    constructor
    · intro row _
      apply hvalues.map
      intro v w hvw
      exact List.singleton_inj.mp (List.append_cancel_left hvw)
    · apply htable.imp
      intro row row' hne e he he'
      rcases List.mem_map.mp he with ⟨v, -, rfl⟩
      rcases List.mem_map.mp he' with ⟨w, -, hw⟩
      exact hne (List.append_inj_left' hw rfl).symm

theorem nodup_foldl_combine (h : ∀ l, l ∈ lists → l.Nodup) :
    (lists.foldl combine []).Nodup := by
  induction lists using List.reverseRecOn with
  | nil => exact List.nodup_nil
  | append_singleton lists l ih =>
      rw [List.foldl_append, List.foldl_cons, List.foldl_nil]
      exact nodup_combine (ih fun l' hl' => h l' (List.mem_append_left _ hl'))
        (h l (List.mem_append_right _ List.mem_cons_self))

end Combine

/-! ## The multiplexing properties of a product -/

variable {Number : Type}

/-- The value of a property of the qbs module. -/
inductive QbsProperty (Number : Type) where
  | undefined
  | notArray
  | array (values : List (Scalar Number))

/-- What is evaluated of a product and of the qbs module. -/
structure MultiplexProperties (Number : Type) where
  multiplexByQbsProperties : List String
  multiplexMap : String → String
  qbsProperty : String → QbsProperty Number
  aggregate : Bool
  multiplexedType : String

structure MultiplexInfo (Number : Type) where
  properties : List String
  table : MultiplexTable Number
  aggregate : Bool
  multiplexedType : String

inductive MultiplexError (Number : Type) where
  | noEntryInMultiplexMap (key : String)
  | duplicateEntryInProduct (mappedKey : String)
  | notAnArray (key : String)
  | duplicateEntry (value : Scalar Number) (key : String)

namespace ScriptValues

variable (values : ScriptValues Number)

/-- The first value that compares as equal with one before it. -/
def firstDuplicate : List (Scalar Number) → List (Scalar Number) → Option (Scalar Number)
  | _, [] => none
  | entriesForKey, v :: vs =>
      if entriesForKey.any fun e => values.equal e v then some v
      else firstDuplicate (entriesForKey ++ [v]) vs

/-- Go on with another property; the properties that were seen before are kept with the result. -/
def extractProperty (p : MultiplexProperties Number)
    (s : List String × MultiplexInfo Number) (key : String) :
    Except (MultiplexError Number) (List String × MultiplexInfo Number) :=
  let mappedKey := p.multiplexMap key
  if mappedKey = "" then throw (.noEntryInMultiplexMap key)
  else if mappedKey ∈ s.1 then throw (.duplicateEntryInProduct mappedKey)
  else
    match p.qbsProperty key with
    | .undefined => pure (mappedKey :: s.1, s.2)
    | .notArray => throw (.notAnArray key)
    | .array [] => pure (mappedKey :: s.1, s.2)
    | .array (v :: vs) =>
        match values.firstDuplicate [] (v :: vs) with
        | some w => throw (.duplicateEntry w key)
        | none =>
            pure (mappedKey :: s.1, { s.2 with
              table := combine s.2.table (v :: vs)
              properties := s.2.properties ++ [mappedKey] })

def extractMultiplexInfo (p : MultiplexProperties Number) :
    Except (MultiplexError Number) (MultiplexInfo Number) :=
  (p.multiplexByQbsProperties.foldlM (values.extractProperty p)
    ([], ⟨[], [], p.aggregate, p.multiplexedType⟩)).map Prod.snd

end ScriptValues

/-- The property of the product and the values for a key; nothing where there are no values. -/
def MultiplexProperties.entriesFor (p : MultiplexProperties Number) (key : String) :
    List (String × List (Scalar Number)) :=
  match p.qbsProperty key with
  | .array (v :: vs) => [(p.multiplexMap key, v :: vs)]
  | _ => []

/-- The properties over which a product is multiplexed, with their values. -/
def MultiplexProperties.entries (p : MultiplexProperties Number) :
    List (String × List (Scalar Number)) :=
  p.multiplexByQbsProperties.flatMap p.entriesFor

/-- Go on with some entries. -/
def MultiplexInfo.add (info : MultiplexInfo Number)
    (entries : List (String × List (Scalar Number))) : MultiplexInfo Number :=
  { info with
    properties := info.properties ++ entries.map Prod.fst
    table := (entries.map Prod.snd).foldl combine info.table }

theorem MultiplexInfo.add_nil (info : MultiplexInfo Number) : info.add [] = info := by
  unfold add
  simp

theorem MultiplexInfo.add_add (info : MultiplexInfo Number)
    (entries entries' : List (String × List (Scalar Number))) :
    (info.add entries).add entries' = info.add (entries ++ entries') := by
  unfold add
  simp

/-- No value compares as equal with one before it. -/
def ScriptValues.Distinct (values : ScriptValues Number) (vs : List (Scalar Number)) : Prop :=
  vs.Pairwise fun v w => values.equal v w = false

/-- A key stands for a property, and its value is an array of distinct values if there is one. -/
structure MultiplexProperties.AcceptedKey (values : ScriptValues Number)
    (p : MultiplexProperties Number) (key : String) : Prop where
  mapped : p.multiplexMap key ≠ ""
  isArray : p.qbsProperty key ≠ .notArray
  distinct : ∀ vs, p.qbsProperty key = .array vs → values.Distinct vs

namespace ScriptValues

variable {values : ScriptValues Number}

theorem firstDuplicate_eq_none_iff {entriesForKey vs : List (Scalar Number)} :
    values.firstDuplicate entriesForKey vs = none ↔
      (∀ e, e ∈ entriesForKey → ∀ v, v ∈ vs → values.equal e v = false) ∧ values.Distinct vs := by
  induction vs generalizing entriesForKey with
  | nil => simp [firstDuplicate, Distinct]
  | cons v vs ih =>
      unfold firstDuplicate Distinct
      rw [List.pairwise_cons]
      split_ifs with hany
      · rcases List.any_eq_true.mp hany with ⟨e, he, hequal⟩
        apply iff_of_false (by simp)
        intro h
        rw [h.1 e he v List.mem_cons_self] at hequal
        cases hequal
      · have hv : ∀ e, e ∈ entriesForKey → values.equal e v = false := by
          simpa using hany
        rw [ih]
        constructor
        · intro h
          refine ⟨?_, fun w hw => h.1 v (by simp) w hw, h.2⟩
          intro e he w hw
          rcases List.mem_cons.mp hw with rfl | hw
          · exact hv e he
          · exact h.1 e (List.mem_append_left _ he) w hw
        · intro h
          refine ⟨?_, h.2.2⟩
          intro e he w hw
          rcases List.mem_append.mp he with he | he
          · exact h.1 e he w (List.mem_cons_of_mem _ hw)
          · rw [List.mem_singleton.mp he]
            exact h.2.1 w hw

variable {s s' : List String × MultiplexInfo Number}

/-- One property is accepted if its key is and the property was not seen before. -/
theorem extractProperty_eq_ok_iff {p : MultiplexProperties Number} {key : String} :
    values.extractProperty p s key = .ok s' ↔
      (p.AcceptedKey values key ∧ p.multiplexMap key ∉ s.1) ∧
        s' = (p.multiplexMap key :: s.1, s.2.add (p.entriesFor key)) := by
  unfold extractProperty
  dsimp only
  split_ifs with hmapped hseen
  · exact iff_of_false (fun h => nomatch h)
      fun h => h.1.1.mapped hmapped
  · exact iff_of_false (fun h => nomatch h) fun h => h.1.2 hseen
  · cases hproperty : p.qbsProperty key with
    | undefined =>
        have hentries : p.entriesFor key = [] := by
          simp [MultiplexProperties.entriesFor, hproperty]
        have haccepted : p.AcceptedKey values key :=
          ⟨hmapped, by simp [hproperty], by simp [hproperty]⟩
        dsimp only
        rw [hentries, MultiplexInfo.add_nil, Fallible.pure_eq_ok_iff, eq_comm]
        exact (and_iff_right ⟨haccepted, hseen⟩).symm
    | notArray =>
        exact iff_of_false (fun h => nomatch h)
          fun h => h.1.1.isArray hproperty
    | array vs =>
        cases vs with
        | nil =>
            have hentries : p.entriesFor key = [] := by
              simp [MultiplexProperties.entriesFor, hproperty]
            have haccepted : p.AcceptedKey values key := by
              refine ⟨hmapped, by simp [hproperty], ?_⟩
              intro vs hvs
              rw [hproperty] at hvs
              cases hvs
              exact List.Pairwise.nil
            dsimp only
            rw [hentries, MultiplexInfo.add_nil, Fallible.pure_eq_ok_iff, eq_comm]
            exact (and_iff_right ⟨haccepted, hseen⟩).symm
        | cons v vs =>
            have hentries : p.entriesFor key = [(p.multiplexMap key, v :: vs)] := by
              simp [MultiplexProperties.entriesFor, hproperty]
            dsimp only
            cases hduplicate : values.firstDuplicate [] (v :: vs) with
            | some w =>
                apply iff_of_false (fun h => nomatch h)
                intro h
                have hnone : values.firstDuplicate [] (v :: vs) = none :=
                  firstDuplicate_eq_none_iff.mpr ⟨by simp, h.1.1.distinct (v :: vs) hproperty⟩
                rw [hduplicate] at hnone
                cases hnone
            | none =>
                have haccepted : p.AcceptedKey values key := by
                  refine ⟨hmapped, by simp [hproperty], ?_⟩
                  intro ws hws
                  rw [hproperty] at hws
                  cases hws
                  exact (firstDuplicate_eq_none_iff.mp hduplicate).2
                dsimp only
                rw [hentries, Fallible.pure_eq_ok_iff, eq_comm]
                exact (and_iff_right ⟨haccepted, hseen⟩).symm

/-- The properties are accepted if all keys are and stand for different properties. -/
theorem foldlM_extractProperty_eq_ok_iff {p : MultiplexProperties Number} {keys : List String} :
    keys.foldlM (values.extractProperty p) s = .ok s' ↔
      ((∀ key, key ∈ keys → p.AcceptedKey values key ∧ p.multiplexMap key ∉ s.1) ∧
        (keys.map p.multiplexMap).Nodup) ∧
        s' = ((keys.map p.multiplexMap).reverse ++ s.1, s.2.add (keys.flatMap p.entriesFor)) := by
  induction keys generalizing s with
  | nil =>
      rw [List.foldlM_nil, Fallible.pure_eq_ok_iff, eq_comm]
      simp [MultiplexInfo.add_nil]
  | cons key keys ih =>
      rw [List.foldlM_cons, Fallible.bind_eq_ok_iff]
      simp only [extractProperty_eq_ok_iff, ih, List.forall_mem_cons, List.map_cons,
        List.nodup_cons, List.reverse_cons, List.append_assoc, List.flatMap_cons,
        List.singleton_append]
      constructor
      · intro h
        rcases h with ⟨t, ⟨hkey, rfl⟩, ⟨hkeys, hnodup⟩, rfl⟩
        rw [MultiplexInfo.add_add]
        refine ⟨⟨⟨hkey, ?_⟩, ?_, hnodup⟩, rfl⟩
        · intro k hk
          exact ⟨(hkeys k hk).1, fun hseen => (hkeys k hk).2 (List.mem_cons_of_mem _ hseen)⟩
        · intro hmem
          rcases List.mem_map.mp hmem with ⟨k, hk, heq⟩
          exact (hkeys k hk).2 (heq ▸ List.mem_cons_self)
      · intro h
        rcases h with ⟨⟨⟨hkey, hkeys⟩, hnot, hnodup⟩, rfl⟩
        refine ⟨_, ⟨hkey, rfl⟩, ⟨?_, hnodup⟩, ?_⟩
        · intro k hk
          refine ⟨(hkeys k hk).1, ?_⟩
          intro hseen
          rcases List.mem_cons.mp hseen with heq | hseen
          · exact hnot (heq ▸ List.mem_map_of_mem hk)
          · exact (hkeys k hk).2 hseen
        · rw [MultiplexInfo.add_add]

end ScriptValues

/-- The multiplexing properties of a product are all right: their names are known and stand for
different properties, and the values are arrays of distinct values. -/
structure MultiplexProperties.Accepted (values : ScriptValues Number)
    (p : MultiplexProperties Number) : Prop where
  keys : ∀ key, key ∈ p.multiplexByQbsProperties → p.AcceptedKey values key
  mappedDiffer : (p.multiplexByQbsProperties.map p.multiplexMap).Nodup

/-- What is extracted from accepted properties. -/
def MultiplexProperties.info (p : MultiplexProperties Number) : MultiplexInfo Number where
  properties := p.entries.map Prod.fst
  table := (p.entries.map Prod.snd).foldl combine []
  aggregate := p.aggregate
  multiplexedType := p.multiplexedType

/-- When the properties are accepted, and what the table is made of. -/
theorem extractMultiplexInfo_eq_ok_iff {values : ScriptValues Number}
    {p : MultiplexProperties Number} {info : MultiplexInfo Number} :
    values.extractMultiplexInfo p = .ok info ↔ p.Accepted values ∧ info = p.info := by
  have hinfo : (MultiplexInfo.add ⟨[], [], p.aggregate, p.multiplexedType⟩
      (p.multiplexByQbsProperties.flatMap p.entriesFor)) = p.info := by
    simp [MultiplexInfo.add, MultiplexProperties.info, MultiplexProperties.entries]
  unfold ScriptValues.extractMultiplexInfo
  rw [Fallible.map_eq_ok_iff]
  simp only [ScriptValues.foldlM_extractProperty_eq_ok_iff, hinfo, List.not_mem_nil,
    not_false_eq_true, and_true]
  constructor
  · intro h
    rcases h with ⟨s, ⟨⟨hkeys, hnodup⟩, rfl⟩, rfl⟩
    exact ⟨⟨hkeys, hnodup⟩, rfl⟩
  · intro h
    exact ⟨_, ⟨⟨h.1.keys, h.1.mappedDiffer⟩, rfl⟩, h.2.symm⟩

/-- All numbers among the values are finite. -/
def MultiplexProperties.Finite (numbers : NumberText Number) (p : MultiplexProperties Number) :
    Prop :=
  ∀ key, key ∈ p.multiplexByQbsProperties → ∀ vs, p.qbsProperty key = .array vs →
    ∀ v, v ∈ vs → v.isFinite numbers

namespace MultiplexProperties

variable {values : ScriptValues Number} {p : MultiplexProperties Number}

theorem mem_entries_iff {e : String × List (Scalar Number)} :
    e ∈ p.entries ↔ ∃ key, key ∈ p.multiplexByQbsProperties ∧ e.1 = p.multiplexMap key ∧
      p.qbsProperty key = .array e.2 ∧ e.2 ≠ [] := by
  unfold entries
  rw [List.mem_flatMap]
  apply exists_congr
  intro key
  apply and_congr_right
  intro _
  unfold entriesFor
  rcases e with ⟨mappedKey, vs⟩
  split
  · rename_i v vs' hproperty
    rw [List.mem_singleton, hproperty]
    simp only [Prod.mk.injEq, QbsProperty.array.injEq]
    constructor
    · intro h
      exact ⟨h.1, h.2.symm, by simp [h.2]⟩
    · intro h
      exact ⟨h.1, h.2.1.symm⟩
  · rename_i hother
    apply iff_of_false (by simp)
    intro h
    cases vs with
    | nil => exact h.2.2 rfl
    | cons v vs => exact hother v vs h.2.1

theorem entries_sublist (p : MultiplexProperties Number) :
    (p.entries.map Prod.fst).Sublist (p.multiplexByQbsProperties.map p.multiplexMap) := by
  unfold entries
  induction p.multiplexByQbsProperties with
  | nil => simp
  | cons key keys ih =>
      rw [List.flatMap_cons, List.map_append, List.map_cons]
      have hkey : ((p.entriesFor key).map Prod.fst).Sublist [p.multiplexMap key] := by
        unfold entriesFor
        split
        · exact List.Sublist.refl _
        · exact List.nil_sublist _
      exact hkey.append ih

/-- The rows are the combinations of the values of the properties that have some. -/
theorem mem_table_iff {row : MultiplexRow Number} :
    row ∈ p.info.table ↔ p.info.properties ≠ [] ∧
      List.Forall₂ (fun v vs => v ∈ vs) row (p.entries.map Prod.snd) := by
  unfold info
  rw [mem_foldl_combine]
  · simp
  · intro vs hvs
    rcases List.mem_map.mp hvs with ⟨e, he, rfl⟩
    rcases mem_entries_iff.mp he with ⟨key, -, -, -, hne⟩
    exact hne

theorem isFinite_of_mem_table (hp : p.Finite values.toNumberText) {row : MultiplexRow Number}
    (hrow : row ∈ p.info.table) {v : Scalar Number} (hv : v ∈ row) :
    v.isFinite values.toNumberText := by
  rcases List.mem_iff_getElem.mp hv with ⟨i, hi, rfl⟩
  have hforall := (mem_table_iff.mp hrow).2
  have hi' : i < (p.entries.map Prod.snd).length := hforall.length_eq ▸ hi
  have hmem := hforall.get hi hi'
  rcases List.mem_map.mp (List.getElem_mem hi') with ⟨e, he, heq⟩
  rcases mem_entries_iff.mp he with ⟨key, hkey, -, hproperty, -⟩
  exact hp key hkey e.2 hproperty _ (heq ▸ hmem)

end MultiplexProperties

/-! ## Configurations and ids -/

/-- The value of each property in a row. -/
abbrev MultiplexConfiguration (Number : Type) := AssocMap String (Scalar Number)

namespace MultiplexInfo

variable (info : MultiplexInfo Number)

/-- Set the properties of a row. -/
def setProperties (row : MultiplexRow Number) (m : MultiplexConfiguration Number) :
    MultiplexConfiguration Number :=
  (info.properties.zip row).foldl (fun m e => AList.insert e.1 e.2 m) m

def multiplexConfiguration (row : MultiplexRow Number) : MultiplexConfiguration Number :=
  info.setProperties row ∅

end MultiplexInfo

/-- The entries of a configuration in the order of their keys. -/
def sortedEntries (m : MultiplexConfiguration Number) : List (String × Scalar Number) :=
  (m.entries.map fun e => (e.1, e.2)).insertionSort fun e e' => e.1 ≤ e'.1

/-- A configuration as compact JSON, and this as Base64. -/
def idOf (numbers : NumberText Number) (m : MultiplexConfiguration Number) : String :=
  let json := String.ofList (objectText numbers (sortedEntries m))
  String.ofList (Base64.encode json.toUTF8.data.toList)

/-- The id of a row. -/
def MultiplexInfo.toIdString (numbers : NumberText Number) (info : MultiplexInfo Number)
    (row : MultiplexRow Number) : String :=
  idOf numbers (info.multiplexConfiguration row)

theorem mem_sortedEntries_iff {m : MultiplexConfiguration Number} {key : String}
    {v : Scalar Number} : (key, v) ∈ sortedEntries m ↔ m.lookup key = some v := by
  unfold sortedEntries
  rw [(List.perm_insertionSort _ _).mem_iff, ← Option.mem_def, AList.mem_lookup_iff]
  simp only [List.mem_map, Prod.mk.injEq]
  constructor
  · intro h
    rcases h with ⟨e, he, rfl, rfl⟩
    exact he
  · intro h
    exact ⟨⟨key, v⟩, h, rfl, rfl⟩

theorem idOf_ne_empty (numbers : NumberText Number) (m : MultiplexConfiguration Number) :
    idOf numbers m ≠ "" := by
  intro h
  unfold idOf at h
  have hcode := String.ofList_inj.mp (h.trans String.ofList_nil.symm)
  have hbytes := Base64.encode_injective (hcode.trans (show [] = Base64.encode [] from rfl))
  have hempty : (String.ofList (objectText numbers (sortedEntries m))).toUTF8.data.toList =
      ("" : String).toUTF8.data.toList := hbytes
  have hjson := String.toByteArray_inj.mp (ByteArray.ext (Array.toList_inj.mp hempty))
  have htext := String.ofList_inj.mp (hjson.trans String.ofList_nil.symm)
  cases hentries : sortedEntries m with
  | nil =>
      rw [hentries] at htext
      cases htext
  | cons e entries =>
      rw [hentries] at htext
      cases htext

/-- Configurations with one id have the same values. -/
theorem lookup_eq_of_idOf_eq {numbers : NumberText Number} {m m' : MultiplexConfiguration Number}
    (hm : ∀ key v, m.lookup key = some v → v.isFinite numbers)
    (hm' : ∀ key v, m'.lookup key = some v → v.isFinite numbers)
    (h : idOf numbers m = idOf numbers m') (key : String) : m.lookup key = m'.lookup key := by
  unfold idOf at h
  have hbytes := Base64.encode_injective (String.ofList_inj.mp h)
  have hjson := String.toByteArray_inj.mp (ByteArray.ext (Array.toList_inj.mp hbytes))
  have hentries := objectText_injective (fun e he => hm e.1 e.2 (mem_sortedEntries_iff.mp he))
    (fun e he => hm' e.1 e.2 (mem_sortedEntries_iff.mp he)) (String.ofList_inj.mp hjson)
  apply Option.ext
  intro v
  rw [← mem_sortedEntries_iff, hentries, mem_sortedEntries_iff]

namespace MultiplexInfo

variable {info : MultiplexInfo Number} {row : MultiplexRow Number}

/-- Setting the properties of a row leaves the other properties alone. -/
theorem lookup_setProperties (hinfo : info.properties.Nodup)
    (hrow : row.length = info.properties.length) (m : MultiplexConfiguration Number) (key : String)
    (v : Scalar Number) :
    (info.setProperties row m).lookup key = some v ↔
      (key, v) ∈ info.properties.zip row ∨ (key ∉ info.properties ∧ m.lookup key = some v) := by
  have hkeys : (info.properties.zip row).map Prod.fst = info.properties :=
    List.map_fst_zip hrow.ge
  unfold setProperties
  rw [AssocMap.lookup_foldl_insert_entries (hkeys.symm ▸ hinfo), hkeys]

theorem lookup_multiplexConfiguration (hinfo : info.properties.Nodup)
    (hrow : row.length = info.properties.length) (key : String) (v : Scalar Number) :
    (info.multiplexConfiguration row).lookup key = some v ↔
      (key, v) ∈ info.properties.zip row := by
  unfold multiplexConfiguration
  rw [lookup_setProperties hinfo hrow]
  simp

/-- Rows that give the properties the same values are equal. -/
theorem eq_of_zip_subset {keys : List String} (hkeys : keys.Nodup) {row' : MultiplexRow Number}
    (hrow : row.length = keys.length) (hrow' : row'.length = keys.length)
    (h : ∀ key v, (key, v) ∈ keys.zip row → (key, v) ∈ keys.zip row') : row = row' := by
  induction keys generalizing row row' with
  | nil => rw [List.length_eq_zero_iff.mp hrow, List.length_eq_zero_iff.mp hrow']
  | cons k keys ih =>
      cases row with
      | nil => cases hrow
      | cons v row =>
          cases row' with
          | nil => cases hrow'
          | cons v' row' =>
              rw [List.nodup_cons] at hkeys
              have hhead : v = v' := by
                rcases List.mem_cons.mp (h k v List.mem_cons_self) with heq | hmem
                · exact (Prod.mk.inj heq).2
                · exact absurd (List.of_mem_zip hmem).1 hkeys.1
              have htail : row = row' := by
                apply ih hkeys.2 (Nat.succ.inj hrow) (Nat.succ.inj hrow')
                intro key w hw
                rcases List.mem_cons.mp (h key w (List.mem_cons_of_mem _ hw)) with heq | hmem
                · rw [(Prod.mk.inj heq).1] at hw
                  exact absurd (List.of_mem_zip hw).1 hkeys.1
                · exact hmem
              rw [hhead, htail]

/-- Different rows have different ids. -/
theorem toIdString_inj {numbers : NumberText Number} (hinfo : info.properties.Nodup)
    {row' : MultiplexRow Number} (hrow : row.length = info.properties.length)
    (hrow' : row'.length = info.properties.length) (hfinite : ∀ v, v ∈ row → v.isFinite numbers)
    (hfinite' : ∀ v, v ∈ row' → v.isFinite numbers)
    (h : info.toIdString numbers row = info.toIdString numbers row') : row = row' := by
  have hvalue : ∀ {r : MultiplexRow Number}, r.length = info.properties.length →
      (∀ v, v ∈ r → v.isFinite numbers) → ∀ key v,
      (info.multiplexConfiguration r).lookup key = some v → v.isFinite numbers := by
    intro r hr hfin key v hv
    exact hfin v (List.of_mem_zip ((lookup_multiplexConfiguration hinfo hr key v).mp hv)).2
  apply eq_of_zip_subset hinfo hrow hrow'
  intro key v hmem
  have hlookup := lookup_eq_of_idOf_eq (hvalue hrow hfinite) (hvalue hrow' hfinite') h key
  rw [← lookup_multiplexConfiguration hinfo hrow, hlookup] at hmem
  exact (lookup_multiplexConfiguration hinfo hrow' key v).mp hmem

end MultiplexInfo

end Qbs
