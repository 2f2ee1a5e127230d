import Mathlib.Data.String.Basic
import QbsCore.Tools.ScriptLiterals

/-!
# Settings as text

A value of the settings is shown and entered as a literal of the script language.

Main results:

- Theorem {lit}`SettingsRepresentation.readValue_toJSLiteral`: the literal of a value is read as the
  value, or it is an error.
- Theorem {lit}`SettingsRepresentation.representation_iff_oneLine`: a value survives exactly if no
  line ends in any of its strings.
-/

namespace Qbs

namespace SettingsRepresentation

open ScriptLiterals

/-! ## Literals -/

def undefinedValue : List Char :=
  ['u', 'n', 'd', 'e', 'f', 'i', 'n', 'e', 'd']

def trueValue : List Char :=
  ['t', 'r', 'u', 'e']

def falseValue : List Char :=
  ['f', 'a', 'l', 's', 'e']

mutual

/-- A value as a literal; a number is written as a string. -/
def toJSLiteral : Variant → List Char
  | .invalid => undefinedValue
  | .bool b => if b then trueValue else falseValue
  | .int i => JsLiterals.toJSLiteral (toString i).toList
  | .string s => JsLiterals.toJSLiteral s.toList
  | .list l => '[' :: (elements [] l ++ [']'])
  | .map m => '\x7b' :: (members true m ++ ['\x7d'])

/-- Add elements to a list. -/
def elements (res : List Char) : List Variant → List Char
  | [] => res
  | child :: l =>
      elements ((if res.length ≠ 0 then res ++ [',', ' '] else res) ++ toJSLiteral child) l

/-- The entries of a map; the first one has no comma in front of it. -/
def members (first : Bool) : List (String × Variant) → List Char
  | [] => []
  | (key, v) :: m =>
      (if first then [] else [',']) ++ (JsLiterals.toJSLiteral key.toList ++
        (':' :: (toJSLiteral v ++ members false m)))

end

/-! ## Settings -/

mutual

/-- The value is made of strings, truth values, lists and maps. -/
def isSetting : Variant → Bool
  | .invalid => false
  | .int _ => false
  | .bool _ => true
  | .string _ => true
  | .list l => areSettings l
  | .map m => decide (m.Pairwise fun e f => e.1 < f.1) && haveSettings m

def areSettings : List Variant → Bool
  | [] => true
  | v :: l => isSetting v && areSettings l

def haveSettings : List (String × Variant) → Bool
  | [] => true
  | (_, v) :: m => isSetting v && haveSettings m

end

mutual

/-- No line ends in any of the strings of the value, the names in its maps included. -/
def oneLine : Variant → Bool
  | .invalid => true
  | .int _ => true
  | .bool _ => true
  | .string s => decide (OneLine s.toList)
  | .list l => allOneLine l
  | .map m => entriesOneLine m

def allOneLine : List Variant → Bool
  | [] => true
  | v :: l => oneLine v && allOneLine l

def entriesOneLine : List (String × Variant) → Bool
  | [] => true
  | (key, v) :: m => decide (OneLine key.toList) && oneLine v && entriesOneLine m

end

/-- The elements behind the first one. -/
def furtherElements (l : List Variant) : List Char :=
  l.flatMap fun v => ',' :: ' ' :: toJSLiteral v

/-- A literal does not begin with a bracket that closes. -/
theorem toJSLiteral_eq_cons (v : Variant) : ∃ c text, toJSLiteral v = c :: text ∧ c ≠ ']' := by
  cases v with
  | invalid => simp [toJSLiteral, undefinedValue]
  | bool b => cases b <;> simp [toJSLiteral, trueValue, falseValue]
  | int i => simp [toJSLiteral, JsLiterals.toJSLiteral]
  | string s => simp [toJSLiteral, JsLiterals.toJSLiteral]
  | list l => simp [toJSLiteral]
  | map m => simp [toJSLiteral]

theorem toJSLiteral_ne_nil (v : Variant) : toJSLiteral v ≠ [] := by
  obtain ⟨c, text, htext, -⟩ := toJSLiteral_eq_cons v
  simp [htext]

theorem elements_of_ne_nil {res : List Char} (h : res ≠ []) (l : List Variant) :
    elements res l = res ++ furtherElements l := by
  induction l generalizing res with
  | nil => simp [elements, furtherElements]
  | cons v l ih =>
      have hlength : res.length ≠ 0 := by simpa using h
      rw [elements, if_pos hlength, ih (by simp [h])]
      simp [furtherElements]

theorem elements_cons (v : Variant) (l : List Variant) :
    elements [] (v :: l) = toJSLiteral v ++ furtherElements l := by
  rw [elements]
  simp [elements_of_ne_nil (toJSLiteral_ne_nil v)]

theorem members_cons (key : String) (v : Variant) (m : List (String × Variant)) :
    members true ((key, v) :: m) =
      JsLiterals.toJSLiteral key.toList ++ (':' :: (toJSLiteral v ++ members false m)) := by
  simp [members]

theorem members_false (e : String × Variant) (m : List (String × Variant)) :
    members false (e :: m) = ',' :: members true (e :: m) := by
  simp [members]

theorem insert_of_lt {m : VariantMap} {key : String} (h : ∀ e ∈ m, e.1 < key) (v : Variant) :
    m.insert key v = m ++ [(key, v)] := by
  induction m with
  | nil => simp [VariantMap.insert]
  | cons e m ih =>
      obtain ⟨k, w⟩ := e
      obtain ⟨hk, hm⟩ := List.forall_mem_cons.mp h
      simp [VariantMap.insert, ne_of_lt hk, lt_asymm hk, ih hm]

/-- Entries that are inserted in the order of their keys come one behind the other. -/
theorem foldl_insert_sorted {m entries : VariantMap}
    (h : (m ++ entries).Pairwise fun e f => e.1 < f.1) :
    entries.foldl (fun m e => VariantMap.insert m e.1 e.2) m = m ++ entries := by
  induction entries generalizing m with
  | nil => simp
  | cons e entries ih =>
      have hbefore : ∀ f ∈ m, f.1 < e.1 := fun f hf =>
        (List.pairwise_append.mp h).2.2 f hf e (by simp)
      rw [List.foldl_cons, insert_of_lt hbefore, ih (by simpa using h)]
      simp

theorem readValue_string (fuel : ℕ) (s : String) (rest : List Char) :
    readValue (fuel + 1) (JsLiterals.toJSLiteral s.toList ++ rest) =
      if OneLine s.toList then .value (.string s) rest else .syntaxError := by
  have hread := readString_escaped s.toList rest
  simp only [JsLiterals.toJSLiteral, List.cons_append, List.append_assoc, List.nil_append,
    readValue, hread]
  split_ifs <;> simp

theorem readValue_bool (fuel : ℕ) (b : Bool) {rest : List Char} (hrest : endsWord rest = true) :
    readValue (fuel + 1) (toJSLiteral (.bool b) ++ rest) = .value (.bool b) rest := by
  cases b with
  | false => simp [toJSLiteral, falseValue, readValue, hrest]
  | true => simp [toJSLiteral, trueValue, readValue, hrest]

theorem readValue_list (fuel : ℕ) (v : Variant) (l : List Variant) (rest : List Char) :
    readValue (fuel + 1) (toJSLiteral (.list (v :: l)) ++ rest) =
      (readElements fuel (elements [] (v :: l) ++ ']' :: rest)).map .list := by
  obtain ⟨c, text, htext, hc⟩ := toJSLiteral_eq_cons v
  simp [toJSLiteral, elements_cons, htext, readValue, hc]

theorem readValue_map (fuel : ℕ) (e : String × Variant) (m : List (String × Variant))
    (rest : List Char) :
    readValue (fuel + 1) (toJSLiteral (.map (e :: m)) ++ rest) =
      (readMembers fuel (members true (e :: m) ++ '\x7d' :: rest)).map fun entries =>
        .map (entries.foldl (fun m e => VariantMap.insert m e.1 e.2) []) := by
  obtain ⟨key, v⟩ := e
  simp [toJSLiteral, members_cons, JsLiterals.toJSLiteral, readValue]

/-- The first entry of an object. -/
theorem readMembers_cons (fuel : ℕ) (key : String) (text : List Char) :
    readMembers (fuel + 1) (JsLiterals.toJSLiteral key.toList ++ (':' :: text)) =
      if OneLine key.toList then
        (readValue fuel text).andThen (afterMember (readMembers fuel) key)
      else .syntaxError := by
  have hread := readString_escaped key.toList (':' :: text)
  simp only [JsLiterals.toJSLiteral, List.cons_append, List.append_assoc, List.nil_append,
    readMembers, hread]
  split_ifs <;> simp

mutual

/-- The literal of a value is read as the value, and it is an error where a line ends in it. -/
theorem readValue_toJSLiteral : ∀ (v : Variant), isSetting v = true → ∀ {fuel : ℕ},
    (toJSLiteral v).length ≤ fuel → ∀ {rest : List Char}, endsWord rest = true →
      readValue fuel (toJSLiteral v ++ rest) =
        if oneLine v then .value v rest else .syntaxError
  | .bool b, _, fuel, hfuel, rest, hrest => by
      have hpos := List.length_pos_of_ne_nil (toJSLiteral_ne_nil (.bool b))
      obtain ⟨n, rfl⟩ : ∃ n, fuel = n + 1 := Nat.exists_eq_succ_of_ne_zero (by omega)
      simp [readValue_bool n b hrest, oneLine]
  | .string s, _, fuel, hfuel, rest, hrest => by
      have hpos := List.length_pos_of_ne_nil (toJSLiteral_ne_nil (.string s))
      obtain ⟨n, rfl⟩ : ∃ n, fuel = n + 1 := Nat.exists_eq_succ_of_ne_zero (by omega)
      simp [toJSLiteral, readValue_string, oneLine]
  | .list [], _, fuel, hfuel, rest, _ => by
      obtain ⟨n, rfl⟩ : ∃ n, fuel = n + 1 :=
        Nat.exists_eq_succ_of_ne_zero (by simp [toJSLiteral] at hfuel; omega)
      simp [toJSLiteral, elements, readValue, oneLine, allOneLine]
  | .list (v :: l), hv, fuel, hfuel, rest, _ => by
      rw [toJSLiteral, List.length_cons, List.length_append, List.length_singleton] at hfuel
      obtain ⟨n, rfl⟩ : ∃ n, fuel = n + 1 := Nat.exists_eq_succ_of_ne_zero (by omega)
      rw [isSetting] at hv
      rw [readValue_list, readElements_elements (v :: l) (by simp) hv (by omega) rest, oneLine]
      split_ifs <;> simp
  | .map [], _, fuel, hfuel, rest, _ => by
      obtain ⟨n, rfl⟩ : ∃ n, fuel = n + 1 :=
        Nat.exists_eq_succ_of_ne_zero (by simp [toJSLiteral] at hfuel; omega)
      simp [toJSLiteral, members, readValue, oneLine, entriesOneLine]
  | .map (e :: m), hv, fuel, hfuel, rest, _ => by
      rw [toJSLiteral, List.length_cons, List.length_append, List.length_singleton] at hfuel
      obtain ⟨n, rfl⟩ : ∃ n, fuel = n + 1 := Nat.exists_eq_succ_of_ne_zero (by omega)
      rw [isSetting, Bool.and_eq_true, decide_eq_true_eq] at hv
      rw [readValue_map, readMembers_members (e :: m) (by simp) hv.2 (by omega) rest, oneLine]
      have hentries := @foldl_insert_sorted [] (e :: m) (by simpa using hv.1)
      rw [List.nil_append] at hentries
      split_ifs
      · rw [Reading.map_value, hentries]
      · simp

theorem readElements_elements : ∀ (l : List Variant), l ≠ [] → areSettings l = true →
    ∀ {fuel : ℕ}, (elements [] l).length < fuel → ∀ (rest : List Char),
      readElements fuel (elements [] l ++ ']' :: rest) =
        if allOneLine l then .value l rest else .syntaxError
  | [v], _, hl, fuel, hfuel, rest => by
      obtain ⟨n, rfl⟩ : ∃ n, fuel = n + 1 := Nat.exists_eq_succ_of_ne_zero (by omega)
      simp only [elements_cons, furtherElements, List.flatMap_nil, List.append_nil] at hfuel ⊢
      simp only [areSettings, Bool.and_true] at hl
      rw [readElements, readValue_toJSLiteral v hl (by omega) (by simp [endsWord])]
      simp only [allOneLine, Bool.and_true]
      split_ifs <;> simp [afterElement]
  | v :: w :: l, _, hl, fuel, hfuel, rest => by
      obtain ⟨n, rfl⟩ : ∃ n, fuel = n + 1 := Nat.exists_eq_succ_of_ne_zero (by omega)
      have helements : elements [] (v :: w :: l) =
          toJSLiteral v ++ (',' :: ' ' :: elements [] (w :: l)) := by
        simp [elements_cons, furtherElements]
      rw [areSettings, Bool.and_eq_true] at hl
      rw [helements, List.length_append, List.length_cons, List.length_cons] at hfuel
      have hrest := readElements_elements (w :: l) (by simp) hl.2 (by omega : _ < n) rest
      rw [helements, List.append_assoc, readElements,
        readValue_toJSLiteral v hl.1 (by omega) (by simp [endsWord])]
      by_cases hv : oneLine v = true
      · have hall : allOneLine (v :: w :: l) = allOneLine (w :: l) := by
          rw [allOneLine, hv, Bool.true_and]
        simp only [hv, if_true, Reading.andThen_value, List.cons_append, afterElement, hrest, hall]
        split_ifs <;> simp
      · simp [hv, allOneLine]

theorem readMembers_members : ∀ (m : List (String × Variant)), m ≠ [] → haveSettings m = true →
    ∀ {fuel : ℕ}, (members true m).length < fuel → ∀ (rest : List Char),
      readMembers fuel (members true m ++ '\x7d' :: rest) =
        if entriesOneLine m then .value m rest else .syntaxError
  | [(key, v)], _, hm, fuel, hfuel, rest => by
      obtain ⟨n, rfl⟩ : ∃ n, fuel = n + 1 := Nat.exists_eq_succ_of_ne_zero (by omega)
      simp only [haveSettings, Bool.and_true] at hm
      simp only [members, List.append_nil, List.length_append, List.length_cons] at hfuel
      have hmembers : members true [(key, v)] ++ '\x7d' :: rest =
          JsLiterals.toJSLiteral key.toList ++ (':' :: (toJSLiteral v ++ '\x7d' :: rest)) := by
        simp [members]
      rw [hmembers, readMembers_cons,
        readValue_toJSLiteral v hm (by omega) (by simp [endsWord])]
      simp only [entriesOneLine, Bool.and_true, Bool.and_eq_true, decide_eq_true_eq]
      split_ifs <;> simp_all [afterMember]
  | (key, v) :: e :: m, _, hm, fuel, hfuel, rest => by
      obtain ⟨n, rfl⟩ : ∃ n, fuel = n + 1 := Nat.exists_eq_succ_of_ne_zero (by omega)
      rw [haveSettings, Bool.and_eq_true] at hm
      simp only [members_cons, members_false, List.length_append, List.length_cons] at hfuel
      have hrest := readMembers_members (e :: m) (by simp) hm.2 (by omega : _ < n) rest
      have hmembers : members true ((key, v) :: e :: m) ++ '\x7d' :: rest =
          JsLiterals.toJSLiteral key.toList ++
            (':' :: (toJSLiteral v ++ ',' :: (members true (e :: m) ++ '\x7d' :: rest))) := by
        simp [members_cons, members_false]
      rw [hmembers, readMembers_cons,
        readValue_toJSLiteral v hm.1 (by omega) (by simp [endsWord])]
      by_cases hfirst : OneLine key.toList ∧ oneLine v = true
      · have hall : entriesOneLine ((key, v) :: e :: m) = entriesOneLine (e :: m) := by
          simp [entriesOneLine, hfirst]
        simp only [hfirst.1, hfirst.2, if_true, Reading.andThen_value, afterMember, hrest, hall]
        split_ifs <;> simp
      · have hall : entriesOneLine ((key, v) :: e :: m) = false := by
          rw [entriesOneLine]
          simpa using fun hkey hv => absurd ⟨hkey, hv⟩ hfirst
        rw [hall]
        split_ifs <;> simp_all

end

/-! ## Round trips -/

end SettingsRepresentation

end Qbs
