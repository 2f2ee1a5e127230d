import Mathlib.Data.Fintype.Order
import Mathlib.Logic.Relation
import QbsCore.Library.Fuel

/-!
# Depth-first search for a path without a record of seen nodes

A recursive search from a node for a goal tries the successors of the node one after the other
until there is a path, also those that it has seen before.  It does not come to an end if it gets
into a cycle before it finds the goal.

Main results:

- Theorem {lit}`PathSearch.find_spec`: a search that ends finds a path exactly if there is one.
- Theorem {lit}`PathSearch.exists_find_iff`: in a finite graph, a search ends exactly if none of the
  edges that it tries lead to a cycle.

Current gaps:

- None.
-/

namespace PathSearch

variable {α : Type} (next : α → List α) (goal : α)

/-- Search from the nodes of a list until one search gives a path. There is no result if one of the
searches does not end before. -/
def findAny (find : α → Option (Option (List α))) : List α → Option (Option (List α))
  | [] => some none
  | u :: us =>
      match find u with
      | none => none
      | some (some path) => some (some path)
      | some none => findAny find us

/-- Search for a path from a node to the goal. There is no result if the fuel does not suffice. -/
def find [DecidableEq α] : Nat → α → Option (Option (List α))
  | 0, _ => none
  | fuel + 1, u =>
      if u = goal then some (some [goal])
      else (findAny (find fuel) (next u)).map fun path => path.map fun nodes => u :: nodes

/-- An edge of the graph that is searched. -/
def Edge (a b : α) : Prop :=
  b ∈ next a

/-- The search tries a successor if there is no path to the goal from those before it. -/
def Tried (u w : α) : Prop :=
  u ≠ goal ∧ ∃ before after, next u = before ++ w :: after ∧
    ∀ z, z ∈ before → ¬Relation.ReflTransGen (Edge next) z goal

variable {next goal} {search : α → Option (Option (List α))}

/-! ## Some searches one after the other -/

variable {us : List α} {u : α}

theorem findAny_eq_none_path (h : findAny search us = some none) :
    ∀ w, w ∈ us → search w = some none := by
  induction us with
  | nil => exact fun w hw => absurd hw List.not_mem_nil
  | cons u us ih =>
      rw [findAny] at h
      split at h
      · cases h
      · cases h
      · rename_i hu
        exact List.forall_mem_cons.mpr ⟨hu, ih h⟩

theorem exists_of_findAny {path : List α} (h : findAny search us = some (some path)) :
    ∃ w, w ∈ us ∧ search w = some (some path) := by
  induction us with
  | nil => cases h
  | cons u us ih =>
      rw [findAny] at h
      split at h
      · cases h
      · rename_i path' hu
        exact ⟨u, List.mem_cons_self, hu.trans h⟩
      · rcases ih h with ⟨w, hw, hpath⟩
        exact ⟨w, List.mem_cons_of_mem u hw, hpath⟩

/-- If the searches up to a node do not give a path, there was a search from this node. -/
theorem isSome_of_findAny {before after : List α} {w : α}
    (h : (findAny search (before ++ w :: after)).isSome = true)
    (hbefore : ∀ z, z ∈ before → ∀ path, search z ≠ some (some path)) :
    (search w).isSome = true := by
  induction before with
  | nil =>
      rw [List.nil_append, findAny] at h
      cases hw : search w with
      | none => simp [hw] at h
      | some r => rfl
  | cons z before ih =>
      rcases List.forall_mem_cons.mp hbefore with ⟨hz, hbefore⟩
      rw [List.cons_append, findAny] at h
      split at h
      · cases h
      · rename_i path hpath
        exact absurd hpath (hz path)
      · exact ih h hbefore

/-- The searches come to an end if each one does from which there is no path before it. -/
theorem isSome_findAny {us : List α} (h : ∀ before w after, us = before ++ w :: after →
    (∀ z, z ∈ before → search z = some none) → (search w).isSome = true) :
    (findAny search us).isSome = true := by
  induction us with
  | nil => rfl
  | cons u us ih =>
      have hu := h [] u us rfl (fun z hz => absurd hz List.not_mem_nil)
      rw [findAny]
      split
      · rename_i hnone
        simp [hnone] at hu
      · rfl
      · rename_i hu
        refine ih fun before w after hus hbefore => h (u :: before) w after (by rw [hus]; rfl) ?_
        exact List.forall_mem_cons.mpr ⟨hu, hbefore⟩

theorem findAny_congr {search' : α → Option (Option (List α))} {r : Option (List α)}
    (h : findAny search us = some r) (hmore : ∀ w r, search w = some r → search' w = some r) :
    findAny search' us = some r := by
  induction us with
  | nil => exact h
  | cons u us ih =>
      rw [findAny] at h ⊢
      split at h
      · cases h
      · rename_i path hu
        rw [hmore u _ hu]
        exact h
      · rename_i hu
        rw [hmore u _ hu]
        exact ih h

/-! ## Cycles -/

/-- No edges that are tried from a node on lead to a cycle of such edges. -/
def NoCycleTried (next : α → List α) (goal u : α) : Prop :=
  ∀ w, Relation.ReflTransGen (Tried next goal) u w → ¬Relation.TransGen (Tried next goal) w w

/-- What has no endless sequence of steps has no cycle. -/
theorem not_transGen_of_acc {R : α → α → Prop} (h : Acc (fun w u => R u w) u) :
    ¬Relation.TransGen R u u := by
  induction h with
  | intro u _ ih =>
      intro hcycle
      rcases Relation.TransGen.head'_iff.mp hcycle with ⟨w, hw, hback⟩
      exact ih w hw (Relation.TransGen.tail' hback hw)

theorem acc_of_reaches {R : α → α → Prop} {w : α} (h : Acc (fun w u => R u w) u)
    (hpath : Relation.ReflTransGen R u w) : Acc (fun w u => R u w) w := by
  induction hpath with
  | refl => exact h
  | tail _ hstep ih => exact ih.inv hstep

/-- Without cycles, none are tried. -/
theorem noCycleTried_of_acyclic (h : ∀ w, ¬Relation.TransGen (Edge next) w w) :
    NoCycleTried next goal u := by
  intro w _ hcycle
  have hedge : ∀ a b, Tried next goal a b → Edge next a b := by
    rintro a b ⟨-, before, after, hnext, -⟩
    simp [Edge, hnext]
  exact h w (Relation.TransGen.mono hedge _ _ hcycle)

/-! ## The search -/

variable [DecidableEq α]

theorem find_monotone (u : α) : Fuel.Monotone fun fuel => find next goal fuel u := by
  intro fuel
  induction fuel generalizing u with
  | zero => exact fun r h => absurd h (by simp [find])
  | succ fuel ih =>
      intro r h
      dsimp only at h ⊢
      rw [find] at h ⊢
      split_ifs at h ⊢
      · exact h
      · rcases Option.map_eq_some_iff.mp h with ⟨path, hpath, rfl⟩
        rw [findAny_congr hpath ih]
        rfl

/-- A search that ends finds a path exactly if there is one. -/
theorem find_spec {fuel : Nat} {r : Option (List α)} (h : find next goal fuel u = some r) :
    r.isSome = true ↔ Relation.ReflTransGen (Edge next) u goal := by
  induction fuel generalizing u r with
  | zero => cases h
  | succ fuel ih =>
      rw [find] at h
      split_ifs at h with hgoal
      · cases h
        subst hgoal
        exact iff_of_true rfl .refl
      · rcases Option.map_eq_some_iff.mp h with ⟨path, hpath, rfl⟩
        rw [Option.isSome_map]
        cases path with
        | none =>
            refine iff_of_false Bool.false_ne_true fun hreach => ?_
            rcases hreach.cases_head with hself | ⟨w, hw, hreach⟩
            · exact hgoal hself
            · have hnone := findAny_eq_none_path hpath w hw
              exact absurd ((ih hnone).mpr hreach) Bool.false_ne_true
        | some path =>
            rcases exists_of_findAny hpath with ⟨w, hw, hpath⟩
            exact iff_of_true rfl (.head hw ((ih hpath).mp rfl))

/-- A search that ends tries no endless sequence of edges. -/
theorem acc_of_find {fuel : Nat} (h : (find next goal fuel u).isSome = true) :
    Acc (fun w u => Tried next goal u w) u := by
  induction fuel generalizing u with
  | zero => cases h
  | succ fuel ih =>
      refine Acc.intro u ?_
      rintro w ⟨hgoal, before, after, hnext, hbefore⟩
      rw [find, if_neg hgoal, hnext, Option.isSome_map] at h
      refine ih (isSome_of_findAny h fun z hz path hpath => ?_)
      exact hbefore z hz ((find_spec hpath).mp rfl)

/-- Some searches all have a result with enough fuel. -/
theorem exists_fuel (h : ∀ w, w ∈ us → ∃ fuel, (find next goal fuel w).isSome = true) :
    ∃ fuel, ∀ w, w ∈ us → (find next goal fuel w).isSome = true := by
  induction us with
  | nil => exact ⟨0, fun w hw => absurd hw List.not_mem_nil⟩
  | cons u us ih =>
      rcases List.forall_mem_cons.mp h with ⟨⟨n, hn⟩, hus⟩
      rcases ih hus with ⟨m, hm⟩
      have hmore : ∀ w k, k ≤ max n m → (find next goal k w).isSome = true →
          (find next goal (max n m) w).isSome = true := by
        intro w k hk hsome
        rcases Option.isSome_iff_exists.mp hsome with ⟨r, hr⟩
        exact Option.isSome_iff_exists.mpr ⟨r, (find_monotone w).le hr hk⟩
      refine ⟨max n m, List.forall_mem_cons.mpr ⟨hmore u n (Nat.le_max_left n m) hn, ?_⟩⟩
      exact fun w hw => hmore w m (Nat.le_max_right n m) (hm w hw)

theorem exists_find_of_acc (h : Acc (fun w u => Tried next goal u w) u) :
    ∃ fuel, (find next goal fuel u).isSome = true := by
  induction h with
  | intro u _ ih =>
      by_cases hgoal : u = goal
      · exact ⟨1, by simp [find, hgoal]⟩
      · classical
        have htried : ∀ w, w ∈ (next u).filter (fun w => Tried next goal u w) →
            ∃ fuel, (find next goal fuel w).isSome = true :=
          fun w hw => ih w (by simpa using (List.mem_filter.mp hw).2)
        rcases exists_fuel htried with ⟨fuel, hfuel⟩
        refine ⟨fuel + 1, ?_⟩
        rw [find, if_neg hgoal, Option.isSome_map]
        refine isSome_findAny fun before w after hnext hbefore => hfuel w ?_
        have htried : Tried next goal u w := by
          refine ⟨hgoal, before, after, hnext, fun z hz hreach => ?_⟩
          exact absurd ((find_spec (hbefore z hz)).mpr hreach) Bool.false_ne_true
        exact List.mem_filter.mpr ⟨by simp [hnext], by simpa using htried⟩

/-- In a finite graph, a search ends exactly if no edges that it tries lead to a cycle. -/
theorem exists_find_iff {nodes : Finset α} (hclosed : ∀ a b, a ∈ nodes → b ∈ next a → b ∈ nodes)
    (hu : u ∈ nodes) :
    (∃ fuel, (find next goal fuel u).isSome = true) ↔ NoCycleTried next goal u := by
  constructor
  · rintro ⟨fuel, hfuel⟩ w hw
    exact not_transGen_of_acc (acc_of_reaches (acc_of_find hfuel) hw)
  · intro hnone
    refine exists_find_of_acc ?_
    -- The nodes that are tried are finite in number, and no edges lead back.
    let Reached := {w : α // w ∈ nodes ∧ Relation.ReflTransGen (Tried next goal) u w}
    have : Finite Reached := Finite.of_injective (fun w : Reached => (⟨w.1, w.2.1⟩ : nodes))
      fun a b hab => Subtype.ext (congrArg (fun w : nodes => w.1) hab)
    let R : Reached → Reached → Prop := fun w v => Relation.TransGen (Tried next goal) v.1 w.1
    have : IsTrans Reached R := ⟨fun a b c hab hbc => hbc.trans hab⟩
    have : Std.Irrefl R := ⟨fun a => hnone a.1 a.2.2⟩
    have hwf : WellFounded R := Finite.wellFounded_of_trans_of_irrefl R
    have hacc : ∀ w : Reached, Acc (fun w u => Tried next goal u w) w.1 := by
      intro w
      induction w using hwf.induction with
      | _ w ih =>
          refine Acc.intro _ fun v hv => ?_
          have hmem : v ∈ nodes := by
            rcases hv with ⟨-, before, after, hnext, -⟩
            exact hclosed w.1 v w.2.1 (by simp [hnext])
          exact ih ⟨v, hmem, w.2.2.tail hv⟩ (.single hv)
    exact hacc ⟨u, hu, .refl⟩

end PathSearch
