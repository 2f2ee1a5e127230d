import QbsCore.Library.CycleSearch
import QbsCore.Library.Fallible

/-!
# Visiting all paths

A traversal that goes along all paths from a node, without remembering where it has been.  A
visitor is told when a node is entered from another one and when it is left; it refuses a node
that is on the current path already.

Main results:

- Definition {lit}`PathVisitor.traverse`: the traversal.
- Theorem {lit}`PathVisitor.traverse_spec`: it is refused exactly if it comes to a cycle, and
  otherwise visits each edge that can be reached.
- Theorem {lit}`PathVisitor.traverseAll_spec`: the same for several starts.

Current gaps:

- None.
-/

/-- What is done when a node is entered, possibly from another one, and when it is left. -/
structure PathVisitor (α σ ε : Type) where
  visit : Option α → α → σ → Except ε σ
  endVisit : α → σ → σ
  outOfFuel : ε

namespace PathVisitor

open CycleSearch

variable {α σ ε : Type} (next : α → List α) (v : PathVisitor α σ ε)

/-- Visit a node and go on to its successors; the fuel bounds the length of paths. -/
def traverse : Nat → Option α → α → σ → Except ε σ
  | 0, _, _, _ => .error v.outOfFuel
  | fuel + 1, parent, u, s => do
      let s ← v.visit parent u s
      let s ← (next u).foldlM (fun s c => traverse fuel (some u) c s) s
      return v.endVisit u s

/-- Start at some nodes one after the other. -/
def traverseAll (fuel : Nat) (starts : List α) (s : σ) : Except ε σ :=
  starts.foldlM (fun s u => v.traverse next fuel none u s) s

/-- A visit of a node, entered from another one or as a start. -/
abbrev Visit (α : Type) :=
  Option α × α

/-- The visits behind a node. -/
def Behind (u : α) (visit : Visit α) : Prop :=
  ∃ a, visit.1 = some a ∧ Relation.ReflTransGen (Edge next) u a ∧ visit.2 ∈ next a

/-- A visitor keeps an invariant of the current path, the visits so far and the state, and refuses
exactly the nodes on the path. -/
structure Keeps (Refusal : ε → Prop) (Inv : List α → List (Visit α) → σ → Prop) : Prop where
  visit : ∀ path visits s parent u, Inv path visits s → u ∉ path →
    (∀ a, parent = some a → u ∈ next a ∧ a ∈ path) →
      ∃ s', v.visit parent u s = .ok s' ∧ Inv (u :: path) (visits ++ [(parent, u)]) s'
  refuse : ∀ path visits s parent u, Inv path visits s → u ∈ path →
    ∃ e, v.visit parent u s = .error e ∧ Refusal e
  endVisit : ∀ path visits s u, Inv (u :: path) visits s → Inv path visits (v.endVisit u s)

/-- A traversal from some nodes with its visits, or its refusal. -/
inductive Outcome (Refusal : ε → Prop) (Inv : List α → List (Visit α) → σ → Prop) (path : List α)
    (visits : List (Visit α)) (Made : Visit α → Prop) (leads : Prop) : Except ε σ → Prop where
  | done {s' : σ} (new : List (Visit α)) (hnot : ¬leads) (hnew : ∀ x, x ∈ new ↔ Made x)
      (hinv : Inv path (visits ++ new) s') : Outcome Refusal Inv path visits Made leads (.ok s')
  | refused {e : ε} (hleads : leads) (herror : Refusal e) :
      Outcome Refusal Inv path visits Made leads (.error e)

variable {next v} {Refusal : ε → Prop} {Inv : List α → List (Visit α) → σ → Prop}

/-- The traversal of some nodes, from what the traversal of one node does. -/
theorem foldlM_spec {fuel : Nat} {parent : Option α} {path : List α} (us : List α)
    (hstep : ∀ u, u ∈ us → ∀ visits s, Inv path visits s →
      Outcome Refusal Inv path visits (fun x => x = (parent, u) ∨ Behind next u x)
        (LeadsToCycle next u) (v.traverse next fuel parent u s))
    {visits : List (Visit α)} {s : σ} (hinv : Inv path visits s) :
    Outcome Refusal Inv path visits
      (fun x => ∃ u, u ∈ us ∧ (x = (parent, u) ∨ Behind next u x))
      (∃ u, u ∈ us ∧ LeadsToCycle next u)
      (us.foldlM (fun s u => v.traverse next fuel parent u s) s) := by
  induction us generalizing visits s with
  | nil =>
      exact Outcome.done [] (by simp) (by simp) (by simpa using hinv)
  | cons u us ih =>
      have hu := hstep u List.mem_cons_self visits s hinv
      rw [List.foldlM_cons]
      generalize v.traverse next fuel parent u s = o at hu
      cases hu with
      | @done s' new hnot hnew hinv' =>
          have hrest := ih (fun w hw => hstep w (List.mem_cons_of_mem u hw)) hinv'
          simp only [bind, Except.bind]
          generalize us.foldlM (fun s u => v.traverse next fuel parent u s) s' = o' at hrest
          cases hrest with
          | @done s'' new' hnot' hnew' hinv'' =>
              refine Outcome.done (new ++ new') ?_ ?_ ?_
              · rintro ⟨w, hw, hleads⟩
                rcases List.mem_cons.mp hw with rfl | hw
                · exact hnot hleads
                · exact hnot' ⟨w, hw, hleads⟩
              · intro x
                rw [List.mem_append, hnew, hnew', List.exists_mem_cons_iff]
              · rw [← List.append_assoc]
                exact hinv''
          | refused hleads herror =>
              rcases hleads with ⟨w, hw, hleads⟩
              exact Outcome.refused ⟨w, List.mem_cons_of_mem u hw, hleads⟩ herror
      | refused hleads herror =>
          exact Outcome.refused ⟨u, List.mem_cons_self, hleads⟩ herror

/-- The visits behind a node are those of its successors and what is behind them. -/
theorem behind_iff {u : α} {x : Visit α} :
    Behind next u x ↔ ∃ c, c ∈ next u ∧ (x = (some u, c) ∨ Behind next c x) := by
  constructor
  · rintro ⟨a, hparent, hpath, hmem⟩
    rcases Relation.ReflTransGen.cases_head hpath with rfl | ⟨c, hc, hrest⟩
    · exact ⟨x.2, hmem, Or.inl (Prod.ext hparent rfl)⟩
    · exact ⟨c, hc, Or.inr ⟨a, hparent, hrest, hmem⟩⟩
  · rintro ⟨c, hc, rfl | ⟨a, hparent, hpath, hmem⟩⟩
    · exact ⟨u, rfl, Relation.ReflTransGen.refl, hc⟩
    · exact ⟨a, hparent, Relation.ReflTransGen.head hc hpath, hmem⟩

section Spec

variable {nodes : List α} (hclosed : ∀ a, a ∈ nodes → ∀ b, b ∈ next a → b ∈ nodes)
  (hkeeps : v.Keeps next Refusal Inv)

include hclosed hkeeps

/-- A traversal along a path is refused if it comes to a node of the path or to a cycle. Its fuel
is enough if all nodes fit on a path. -/
theorem traverse_path_spec {fuel : Nat} {parent : Option α} {u : α} {path : List α}
    (habove : Above next nodes path u) (hu : u ∈ nodes)
    (hparent : ∀ a, parent = some a → u ∈ next a ∧ a ∈ path)
    (hfuel : nodes.length < path.length + fuel) {visits : List (Visit α)} {s : σ}
    (hinv : Inv path visits s) :
    Outcome Refusal Inv path visits (fun x => x = (parent, u) ∨ Behind next u x)
      (LeadsToCycle next u) (v.traverse next fuel parent u s) := by
  induction fuel generalizing parent u path visits s with
  | zero =>
      have hle := habove.length_le
      omega
  | succ fuel ih =>
      by_cases hmem : u ∈ path
      · rcases hkeeps.refuse path visits s parent u hinv hmem with ⟨e, he, hrefusal⟩
        have herror : v.traverse next (fuel + 1) parent u s = .error e := by
          unfold traverse
          rw [he]
          rfl
        rw [herror]
        exact Outcome.refused ⟨u, Relation.ReflTransGen.refl, habove.reaches u hmem⟩ hrefusal
      · rcases hkeeps.visit path visits s parent u hinv hmem hparent with ⟨s₁, hvisit, hinv₁⟩
        have hchild : ∀ c, c ∈ next u → Above next nodes (u :: path) c := by
          intro c hc
          refine ⟨List.nodup_cons.mpr ⟨hmem, habove.nodup⟩, ?_, ?_⟩
          · intro a ha
            rcases List.mem_cons.mp ha with rfl | ha
            · exact hu
            · exact habove.mem a ha
          · intro a ha
            rcases List.mem_cons.mp ha with rfl | ha
            · exact Relation.TransGen.single hc
            · exact (habove.reaches a ha).tail hc
        have hchildren := foldlM_spec (v := v) (next u) (fun c hc visits s hs =>
          ih (hchild c hc) (hclosed u hu c hc)
            (fun a ha => ⟨Option.some.inj ha ▸ hc, Option.some.inj ha ▸ List.mem_cons_self⟩)
            (by rw [List.length_cons]; omega) hs) hinv₁
        unfold traverse
        rw [hvisit]
        simp only [bind, Except.bind]
        generalize (next u).foldlM (fun s c => v.traverse next fuel (some u) c s) s₁ = o at hchildren
        cases hchildren with
        | @done s₂ new hnot hnew hinv₂ =>
            refine Outcome.done ((parent, u) :: new) ?_ ?_ ?_
            · intro hleads
              exact hnot hleads.exists_next
            · intro x
              rw [List.mem_cons, hnew, behind_iff]
            · have hend := hkeeps.endVisit path _ s₂ u hinv₂
              rw [List.append_assoc] at hend
              exact hend
        | refused hleads herror =>
            rcases hleads with ⟨c, hc, hleads⟩
            exact Outcome.refused (hleads.of_edge hc) herror

/-- The traversal from some starts is refused exactly if it comes to a cycle, and otherwise visits
the starts and all edges that can be reached. -/
theorem traverseAll_spec {starts : List α} (hstarts : ∀ u, u ∈ starts → u ∈ nodes) {fuel : Nat}
    (hfuel : nodes.length < fuel) {s : σ} (hinv : Inv [] [] s) :
    Outcome Refusal Inv [] []
      (fun x => ∃ u, u ∈ starts ∧ (x = (none, u) ∨ Behind next u x))
      (∃ u, u ∈ starts ∧ LeadsToCycle next u) (v.traverseAll next fuel starts s) := by
  refine foldlM_spec starts (fun u hu visits s hs => ?_) hinv
  refine traverse_path_spec hclosed hkeeps (Above.nil next nodes u) (hstarts u hu) ?_ ?_ hs
  · intro a ha
    cases ha
  · rw [List.length_nil]
    omega

end Spec

end PathVisitor
