import QbsCore.Library.AssocMap
import QbsCore.Library.CycleSearch
import QbsCore.Library.SortedSet

/-!
# Everything behind a node

A depth-first search that notes down for each node all nodes behind it, and copies what
it has noted down for a node already.  The notes are complete if there are no cycles.

Main results:

- Theorem {lit}`Closures.gatherAll_spec`: without cycles, the notes of a node are the
  nodes that can be reached from it.

Current gaps:

- What is noted down on a cycle is not stated.
-/

/-- For each node that was entered, the nodes behind it. -/
abbrev Closures (α : Type*) [LinearOrder α] :=
  AssocMap α (SortedSet α)

namespace Closures

open CycleSearch

variable {α : Type*} [LinearOrder α]

/-- The nodes that are noted down behind a node. -/
def value (m : Closures α) (a : α) : SortedSet α :=
  (m.lookup a).getD ∅

/-- Note down a node behind another one. -/
def add (m : Closures α) (u c : α) : Closures α :=
  AssocMap.modify m u ∅ (insert c)

/-- Note down all that is behind a node behind another one, too. -/
def addAll (m : Closures α) (u c : α) : Closures α :=
  AssocMap.modify m u ∅ fun s => s.unite (value m c)

variable (next : α → List α)

/-- Note down what is behind a node, if this has not begun yet. -/
def gather : Nat → α → Closures α → Closures α
  | 0, _, m => m
  | fuel + 1, u, m =>
      if (m.lookup u).isSome then m
      else
        (next u).foldl (fun m c => addAll (gather fuel c (add m u c)) u c) (AList.insert u ∅ m)

/-- Note down what is behind the nodes of a list. -/
def gatherAll (fuel : Nat) (us : List α) : Closures α :=
  us.foldl (fun m u => gather next fuel u m) ∅

/-! ## Lookups -/

theorem lookup_add (m : Closures α) (u c a : α) :
    (add m u c).lookup a = if a = u then some (insert c (value m u)) else m.lookup a :=
  AssocMap.lookup_modify m u a ∅ (insert c)

theorem lookup_addAll (m : Closures α) (u c a : α) :
    (addAll m u c).lookup a =
      if a = u then some ((value m u).unite (value m c)) else m.lookup a :=
  AssocMap.lookup_modify m u a ∅ fun s => s.unite (value m c)

@[simp]
theorem value_add_self (m : Closures α) (u c : α) : value (add m u c) u = insert c (value m u) := by
  simp [value, lookup_add]

variable {m m' : Closures α}

theorem mem_value_add {u c a b : α} :
    b ∈ value (add m u c) a ↔ b ∈ value m a ∨ a = u ∧ b = c := by
  by_cases h : a = u
  · subst h
    rw [value_add_self, SortedSet.mem_insert]
    simp [or_comm]
  · simp [value, lookup_add, h]

theorem exists_lookup_of_mem_value {a b : α} (h : b ∈ value m a) :
    m.lookup a = some (value m a) := by
  unfold value at h ⊢
  cases hlookup : m.lookup a with
  | none =>
      rw [hlookup] at h
      exact absurd h (SortedSet.not_mem_empty b)
  | some s => rfl

@[simp]
theorem value_addAll_self (m : Closures α) (u c : α) :
    value (addAll m u c) u = (value m u).unite (value m c) := by
  simp [value, lookup_addAll]

/-! ## What is noted down -/

/-- What is noted down for the nodes outside a path is exactly what is behind them. -/
def Exact (path : List α) (m : Closures α) : Prop :=
  ∀ a, (m.lookup a).isSome → a ∉ path →
    ∀ b, b ∈ value m a ↔ Relation.TransGen (Edge next) a b

/-- The notes of a node are there, those that were there before are unchanged, and all outside a
path are exact. -/
structure Gathered (path : List α) (u : α) (m m' : Closures α) : Prop where
  keep : ∀ a, (m.lookup a).isSome → m'.lookup a = m.lookup a
  exact : Exact next path m'
  noted : (m'.lookup u).isSome

/-- The notes of some successors of a node were added to its own. -/
structure Collected (path : List α) (u : α) (cs : List α) (m m' : Closures α) : Prop where
  keep : ∀ a, a ≠ u → (m.lookup a).isSome → m'.lookup a = m.lookup a
  exact : Exact next (u :: path) m'
  noted : (m'.lookup u).isSome
  value : ∀ b, b ∈ value m' u ↔
    b ∈ value m u ∨ ∃ c, c ∈ cs ∧ (b = c ∨ Relation.TransGen (Edge next) c b)

variable {next} {nodes path : List α}

theorem Exact.congr (h : Exact next path m) (heq : ∀ a, a ∉ path → m'.lookup a = m.lookup a) :
    Exact next path m' := by
  intro a hsome hpath b
  rw [heq a hpath] at hsome
  have hvalue : value m' a = value m a := by
    unfold Closures.value
    rw [heq a hpath]
  rw [hvalue]
  exact h a hsome hpath b

/-- The notes of one successor are added. -/
theorem collected_single {u c : α} (hc : c ∉ u :: path)
    (h : Gathered next (u :: path) c (add m u c) m') :
    Collected next path u [c] m (addAll m' u c) := by
  have hkeepSelf : m'.lookup u = (add m u c).lookup u :=
    h.keep u (by simp [lookup_add])
  have hvalue : value m' u = insert c (value m u) := by
    unfold value
    rw [hkeepSelf, lookup_add, if_pos rfl]
    rfl
  constructor
  · intro a ha hsome
    rw [lookup_addAll, if_neg ha]
    have hadd : (add m u c).lookup a = m.lookup a := by rw [lookup_add, if_neg ha]
    rw [h.keep a (hadd ▸ hsome), hadd]
  · apply h.exact.congr
    intro a ha
    rw [lookup_addAll, if_neg (List.ne_of_not_mem_cons ha)]
  · simp [lookup_addAll]
  · intro b
    rw [value_addAll_self, SortedSet.mem_unite, hvalue, SortedSet.mem_insert,
      h.exact c h.noted hc]
    simp only [List.mem_singleton, exists_eq_left]
    tauto

/-- The notes of more successors are added. -/
theorem Collected.append {u : α} {cs ds : List α} {m'' : Closures α}
    (h : Collected next path u cs m m') (h' : Collected next path u ds m' m'') :
    Collected next path u (cs ++ ds) m m'' := by
  constructor
  · intro a ha hsome
    have hkept := h.keep a ha hsome
    rw [h'.keep a ha (hkept ▸ hsome), hkept]
  · exact h'.exact
  · exact h'.noted
  · intro b
    rw [h'.value, h.value]
    simp only [List.mem_append, or_and_right, exists_or, or_assoc]

/-- The notes of all successors of a node are all that is behind it. -/
theorem Collected.gathered {u : α} (hu : m.lookup u = none)
    (h : Collected next path u (next u) (AList.insert u ∅ m) m') : Gathered next path u m m' := by
  constructor
  · intro a hsome
    have ha : a ≠ u := by
      intro hEq
      rw [hEq, hu] at hsome
      cases hsome
    have hinsert : AList.lookup a (AList.insert u ∅ m) = m.lookup a := AList.lookup_insert_ne ha
    rw [h.keep a ha (hinsert ▸ hsome), hinsert]
  · intro a hsome ha b
    by_cases hEq : a = u
    · have hempty : Closures.value (AList.insert u ∅ m) u = ∅ := by simp [Closures.value]
      rw [hEq, h.value, hempty, Relation.TransGen.head'_iff]
      constructor
      · intro hb
        rcases hb.resolve_left (SortedSet.not_mem_empty b) with ⟨c, hc, hEq | hpath⟩
        · exact ⟨c, hc, hEq ▸ Relation.ReflTransGen.refl⟩
        · exact ⟨c, hc, hpath.to_reflTransGen⟩
      · intro hb
        rcases hb with ⟨c, hc, hpath⟩
        rcases Relation.reflTransGen_iff_eq_or_transGen.mp hpath with hEq | hpath
        · exact Or.inr ⟨c, hc, Or.inl hEq⟩
        · exact Or.inr ⟨c, hc, Or.inr hpath⟩
    · exact h.exact a hsome (by simp [hEq, ha]) b
  · exact h.noted

section Spec

variable (hclosed : ∀ a, a ∈ nodes → ∀ b, b ∈ next a → b ∈ nodes)
  (hacyclic : ∀ a, ¬Relation.TransGen (Edge next) a a)

include hclosed hacyclic

/-- What is behind a node is noted down. The fuel is enough if all nodes fit on a path. -/
theorem gather_spec {fuel : Nat} {u : α} {path : List α} (habove : Above next nodes path u)
    (hu : u ∈ nodes) (hfuel : nodes.length < path.length + fuel) {m : Closures α}
    (hm : Exact next path m) : Gathered next path u m (gather next fuel u m) := by
  induction fuel generalizing u path m with
  | zero =>
      have hle := habove.length_le
      omega
  | succ fuel ih =>
      unfold gather
      split_ifs with hsome
      · exact ⟨fun a _ => rfl, hm, hsome⟩
      · apply Collected.gathered (by simpa using hsome)
        have hcollect : ∀ cs, (∀ c, c ∈ cs → c ∈ next u) → ∀ m : Closures α,
            Exact next (u :: path) m → (m.lookup u).isSome →
            Collected next path u cs m
              (cs.foldl (fun m c => addAll (gather next fuel c (add m u c)) u c) m) := by
          intro cs hcs
          induction cs with
          | nil =>
              intro m hexact hnoted
              exact ⟨fun a _ _ => rfl, hexact, hnoted, by simp⟩
          | cons c cs ihcs =>
              intro m hexact hnoted
              have hc : c ∈ next u := hcs c List.mem_cons_self
              have hchild : Above next nodes (u :: path) c := habove.cons hu (hacyclic u) hc
              have hadd : Exact next (u :: path) (add m u c) := by
                apply hexact.congr
                intro a ha
                rw [lookup_add, if_neg (List.ne_of_not_mem_cons ha)]
              have hgathered := ih hchild (hclosed u hu c hc)
                (by rw [List.length_cons]; omega) hadd
              have hout : c ∉ u :: path := fun h => hacyclic c (hchild.reaches c h)
              have hfirst := collected_single hout hgathered
              exact hfirst.append (ihcs (fun d hd => hcs d (List.mem_cons_of_mem c hd)) _
                hfirst.exact hfirst.noted)
        apply hcollect _ fun c hc => hc
        · intro a hsomeA ha
          have hne : a ≠ u := List.ne_of_not_mem_cons ha
          have hinsert : AList.lookup a (AList.insert u ∅ m) = m.lookup a :=
            AList.lookup_insert_ne hne
          have hvalue : value (AList.insert u ∅ m) a = value m a := by
            unfold value
            rw [hinsert]
          rw [hvalue]
          exact hm a (hinsert ▸ hsomeA) fun h => ha (List.mem_cons_of_mem u h)
        · simp

/-- What is behind the nodes of a list is noted down. -/
theorem gatherAll_spec {fuel : Nat} (hfuel : nodes.length < fuel) {us : List α}
    (hus : ∀ u, u ∈ us → u ∈ nodes) :
    Exact next [] (gatherAll next fuel us) ∧
      ∀ u, u ∈ us → ((gatherAll next fuel us).lookup u).isSome := by
  have hfold : ∀ (us : List α), (∀ u, u ∈ us → u ∈ nodes) → ∀ m : Closures α, Exact next [] m →
      Exact next [] (us.foldl (fun m u => gather next fuel u m) m) ∧
        ∀ u, u ∈ us ∨ (m.lookup u).isSome →
          ((us.foldl (fun m u => gather next fuel u m) m).lookup u).isSome := by
    intro us
    induction us with
    | nil =>
        intro _ m hm
        exact ⟨hm, by simp⟩
    | cons v us ih =>
        intro hus m hm
        have hgathered := gather_spec hclosed hacyclic (Above.nil next nodes v)
          (hus v List.mem_cons_self) (by simpa using hfuel) hm
        rcases ih (fun u hu => hus u (List.mem_cons_of_mem v hu)) _ hgathered.exact with
          ⟨hexact, hnoted⟩
        refine ⟨hexact, fun u hu => hnoted u ?_⟩
        rcases hu with hu | hsome
        · rcases List.mem_cons.mp hu with rfl | hu
          · exact Or.inr hgathered.noted
          · exact Or.inl hu
        · exact Or.inr (by rw [hgathered.keep u hsome]; exact hsome)
  have hempty : Exact next [] (∅ : Closures α) := by
    intro a hsome
    simp at hsome
  rcases hfold us hus ∅ hempty with ⟨hexact, hnoted⟩
  exact ⟨hexact, fun u hu => hnoted u (Or.inl hu)⟩

end Spec

end Closures
