import QbsCore.BuildGraph.Removal

/-!
# Removal of an artifact with its exclusive dependents

The recursion over the parents of a removed artifact is a run of small steps.  What
it removes is the least set with the artifact in it that contains an artifact as soon
as it contains one of its children and all inputs of its transformer.

Main results:

- Theorem {lit}`BuildGraph.removeDependents_run`: the recursion is a run of steps
  after which everything it has removed is gone.

Current gaps:

- None.
-/

namespace Qbs

namespace BuildGraph

variable {g g' : BuildGraph}

/-! ## Removal of exclusive dependents as a run of steps -/

/-- Build data with the artifacts removed so far. -/
abbrev RemovalState := BuildGraph × ArtifactSet

/-- The state after an artifact was detached from one of its parents: the parent joins the
removed artifacts or loses its timestamp. -/
def afterDetach (s : RemovalState) (parent a : NodeId) : RemovalState :=
  let g := s.1.detachFromParent parent a
  if g.removeParent parent then (g, insert parent s.2) else (g.clearTimestamp parent, s.2)

/-- The steps of a removal that has started from some build data: a removed artifact is
detached from an artifact that was its parent, or it is taken out of the build data when no
artifact is its parent any more. -/
inductive RemovalStep (g₀ : BuildGraph) : RemovalState → RemovalState → Prop
  | detach {s : RemovalState} {parent a : NodeId} (hremoved : a ∈ s.2)
      (hartifact : g₀.isArtifact parent = true) (hchild : a ∈ g₀.children parent) :
      RemovalStep g₀ s (afterDetach s parent a)
  | finish {s : RemovalState} {a : NodeId} (hremoved : a ∈ s.2)
      (hpar : ∀ p, p ∈ s.1.parents a → g₀.isArtifact p = false) :
      RemovalStep g₀ s (s.1.afterRemoval a true, s.2)

theorem afterDetach_cases (s : RemovalState) (parent a : NodeId) :
    afterDetach s parent a = (s.1.detachFromParent parent a, insert parent s.2) ∧
        (s.1.detachFromParent parent a).removeParent parent = true ∨
      afterDetach s parent a = ((s.1.detachFromParent parent a).clearTimestamp parent, s.2) ∧
        (s.1.detachFromParent parent a).removeParent parent = false := by
  unfold afterDetach
  dsimp only
  split <;> rename_i h
  · exact Or.inl ⟨rfl, h⟩
  · exact Or.inr ⟨rfl, by simpa using h⟩

theorem Mirror.afterRemoval (hm : g.Mirror) (a : NodeId) (fromProduct : Bool) :
    (g.afterRemoval a fromProduct).Mirror := by
  have h := afterRemoval_spec hm a fromProduct
  constructor
  intro u v
  rw [h.parents, h.children, hm.mem_parents_iff]

theorem Mirror.detachFromParent (hm : g.Mirror) (parent a : NodeId) :
    (g.detachFromParent parent a).Mirror := by
  have h := detached_spec (g := g) parent a
  constructor
  intro u v
  rw [h.parents, h.children, hm.mem_parents_iff]

theorem afterDetach_shrinks (s : RemovalState) (parent a : NodeId) :
    Shrinks s.1 (afterDetach s parent a).1 := by
  have h := (detached_spec (g := s.1) parent a).shrinks
  rcases afterDetach_cases s parent a with ⟨hEq, -⟩ | ⟨hEq, -⟩
  · rw [hEq]
    exact h
  · rw [hEq]
    exact h.trans (clearTimestamp_shrinks _ parent)

variable {a r : NodeId} {s : RemovalState}

theorem Mirror.afterDetach (hm : s.1.Mirror) (parent a : NodeId) :
    (afterDetach s parent a).1.Mirror := by
  have h := hm.detachFromParent parent a
  rcases afterDetach_cases s parent a with ⟨hEq, -⟩ | ⟨hEq, -⟩
  · rw [hEq]
    exact h
  · rw [hEq]
    exact ⟨h.mem_parents_iff⟩

theorem mem_afterDetach_removed {parent : NodeId} (hr : r ∈ s.2) :
    r ∈ (afterDetach s parent a).2 := by
  rcases afterDetach_cases s parent a with ⟨hEq, -⟩ | ⟨hEq, -⟩
  · rw [hEq]
    exact SortedSet.mem_insert.mpr (Or.inr hr)
  · rw [hEq]
    exact hr

theorem mem_children_afterDetach {parent u v : NodeId} :
    v ∈ (afterDetach s parent a).1.children u ↔
      v ∈ s.1.children u ∧ ¬(u = parent ∧ v = a) := by
  have h := (detached_spec (g := s.1) parent a).children u v
  rcases afterDetach_cases s parent a with ⟨hEq, -⟩ | ⟨hEq, -⟩ <;> rw [hEq] <;> exact h

/-- A state that a removal from some build data can be in. -/
structure RemovalFrame (g₀ : BuildGraph) (s : RemovalState) : Prop where
  shrinks : Shrinks g₀ s.1
  mirror : s.1.Mirror

variable {g₀ : BuildGraph} {s s' : RemovalState}

theorem RemovalStep.shrinks (hf : RemovalFrame g₀ s) (h : RemovalStep g₀ s s') :
    Shrinks s.1 s'.1 := by
  cases h with
  | detach hremoved hartifact hchild => exact afterDetach_shrinks s _ _
  | finish hremoved hpar =>
      refine (afterRemoval_spec hf.mirror _ true).shrinks ?_
      intro p hp
      rw [hf.shrinks.isArtifact]
      exact hpar p hp

/-- A step leads to a state that the removal can be in. -/
theorem RemovalStep.frame (hf : RemovalFrame g₀ s) (h : RemovalStep g₀ s s') :
    RemovalFrame g₀ s' := by
  refine ⟨hf.shrinks.trans (h.shrinks hf), ?_⟩
  cases h with
  | detach hremoved hartifact hchild => exact hf.mirror.afterDetach _ _
  | finish hremoved hpar => exact hf.mirror.afterRemoval _ true

theorem RemovalStep.removed (h : RemovalStep g₀ s s') (hr : r ∈ s.2) : r ∈ s'.2 := by
  cases h with
  | detach hremoved hartifact hchild => exact mem_afterDetach_removed hr
  | finish hremoved hpar => exact hr

/-- A removal: a sequence of removal steps. -/
abbrev RemovalRun (g₀ : BuildGraph) : RemovalState → RemovalState → Prop :=
  Relation.ReflTransGen (RemovalStep g₀)

/-- What each step keeps, a whole removal keeps. -/
theorem RemovalRun.invariant {P : RemovalState → Prop}
    (hstep : ∀ s s', RemovalFrame g₀ s → P s → RemovalStep g₀ s s' → P s')
    (hf : RemovalFrame g₀ s) (hP : P s) (h : RemovalRun g₀ s s') : P s' ∧ RemovalFrame g₀ s' := by
  induction h with
  | refl => exact ⟨hP, hf⟩
  | tail _ hlast ih => exact ⟨hstep _ _ ih.2 ih.1 hlast, hlast.frame ih.2⟩

theorem RemovalRun.frame (hf : RemovalFrame g₀ s) (h : RemovalRun g₀ s s') :
    RemovalFrame g₀ s' :=
  (RemovalRun.invariant (P := fun _ => True) (fun _ _ _ _ _ => trivial) hf trivial h).2

theorem RemovalRun.shrinks (hf : RemovalFrame g₀ s) (h : RemovalRun g₀ s s') :
    Shrinks s.1 s'.1 := by
  have hinv := RemovalRun.invariant (P := fun t => Shrinks s.1 t.1)
    (fun t t' ht hst hlast => hst.trans (hlast.shrinks ht)) hf (Shrinks.refl s.1) h
  exact hinv.1

theorem RemovalRun.removed (hf : RemovalFrame g₀ s) (h : RemovalRun g₀ s s') (hr : r ∈ s.2) :
    r ∈ s'.2 := by
  have hinv := RemovalRun.invariant (P := fun t => r ∈ t.2)
    (fun t t' _ hrt hlast => hlast.removed hrt) hf hr h
  exact hinv.1

/-- Nothing in the build data refers to an artifact any more, apart from rule nodes and the
explicit dependencies of transformers. -/
structure Gone (g : BuildGraph) (r : NodeId) : Prop where
  children : ∀ v, v ∉ g.children r
  parents : ∀ u, r ∉ g.children u
  outputs : ∀ t, (g.artifact r).transformer = some t → r ∉ (g.transformer t).outputs
  lookupTable : FileResource.artifact r ∉ g.lookupTable (g.artifact r).filePath
  nodes : ∀ d, g.productData (g.productOf r) = some d → r ∉ d.nodes ∧ r ∉ d.roots
  tags : ∀ d, g.productData (g.productOf r) = some d → ∀ tag, tag ∈ (g.artifact r).fileTags →
    r ∉ d.artifactsByFileTag.value tag

/-- What is gone stays gone. -/
theorem Gone.mono (h : Shrinks g g') (hr : Gone g r) : Gone g' r where
  children v hv := hr.children v (h.children r v hv)
  parents u hu := hr.parents u (h.children u r hu)
  outputs t ht ho := by
    rw [h.transformerOf] at ht
    exact hr.outputs t ht (h.outputs t r ho)
  lookupTable hl := by
    rw [h.filePath] at hl
    exact hr.lookupTable ((h.lookupTable _).subset hl)
  nodes d' hd' := by
    rw [h.productOf] at hd'
    rcases h.productData _ d' hd' with ⟨d, hd, hsub⟩
    exact ⟨fun hn => (hr.nodes d hd).1 (hsub.nodes r hn),
      fun hn => (hr.nodes d hd).2 (hsub.roots r hn)⟩
  tags d' hd' tag htag hn := by
    rw [h.productOf] at hd'
    rw [h.fileTags] at htag
    rcases h.productData _ d' hd' with ⟨d, hd, hsub⟩
    exact hr.tags d hd tag htag (hsub.tags tag r hn)

/-- A removed artifact is gone. -/
theorem gone_afterRemoval (hm : g.Mirror)
    (hnodup : ∀ f, (g.lookupTable f).Nodup) (a : NodeId) : Gone (g.afterRemoval a true) a := by
  have h := afterRemoval_spec hm a true
  rcases h.artifact a with ⟨_, hEq, -⟩
  constructor
  case children => exact fun v hv => ((h.children a v).mp hv).2.1 rfl
  case parents => exact fun u hu => ((h.children u a).mp hu).2.2 rfl
  case outputs =>
    intro t ht ho
    rw [hEq] at ht
    exact ((h.outputs t a).mp ho).2 ⟨rfl, ht⟩
  case lookupTable =>
    rw [hEq, h.lookupTable, if_pos rfl]
    exact (hnodup _).not_mem_erase
  case nodes =>
    intro d hd
    rw [h.productOf, h.productData, if_pos ⟨rfl, rfl⟩] at hd
    rcases Option.map_eq_some_iff.mp hd with ⟨d₀, -, rfl⟩
    exact ⟨fun hn => (SortedSet.mem_remove.mp hn).2 rfl, fun hn => (SortedSet.mem_remove.mp hn).2 rfl⟩
  case tags =>
    intro d hd tag htag hn
    rw [h.productOf, h.productData, if_pos ⟨rfl, rfl⟩] at hd
    rcases Option.map_eq_some_iff.mp hd with ⟨d₀, -, rfl⟩
    rw [hEq] at htag
    exact (mem_take_foldl.mp hn).2 ⟨rfl, htag⟩

/-! ## The recursion -/

/-- Build data in which a removal can start: edges start at existing nodes, and no list of the
lookup table has an entry twice. -/
structure Removable (g : BuildGraph) : Prop where
  mirror : g.Mirror
  parent_lt : ∀ u v, v ∈ g.children u → u < g.nextNode
  lookup_nodup : ∀ f, (g.lookupTable f).Nodup

theorem Removable.frame (h : Removable g) (r : ArtifactSet) : RemovalFrame g (g, r) :=
  ⟨Shrinks.refl g, h.mirror⟩

/-- The outcome of a part of the recursion: a run of steps, and what it has newly removed is
gone. -/
structure RemovalOutcome (g₀ : BuildGraph) (s s' : RemovalState) : Prop where
  run : RemovalRun g₀ s s'
  gone : ∀ r, r ∈ s'.2 → r ∈ s.2 ∨ Gone s'.1 r

theorem RemovalOutcome.trans {s₁ s₂ s₃ : RemovalState} (hf : RemovalFrame g₀ s₁)
    (h : RemovalOutcome g₀ s₁ s₂) (h' : RemovalOutcome g₀ s₂ s₃) : RemovalOutcome g₀ s₁ s₃ := by
  refine ⟨h.run.trans h'.run, ?_⟩
  intro r hr
  rcases h'.gone r hr with hr₂ | hgone
  · rcases h.gone r hr₂ with hr₁ | hgone
    · exact Or.inl hr₁
    · exact Or.inr (hgone.mono (RemovalRun.shrinks (RemovalRun.frame hf h.run) h'.run))
  · exact Or.inr hgone

/-- What a call of the recursion for an artifact does. -/
def RemovesDependents (g₀ : BuildGraph) (fuel : Nat) : Prop :=
  ∀ a s, RemovalFrame g₀ s → s.1.edgeCount < fuel →
    ∃ s', removeDependents fuel a s = .ok s' ∧
      RemovalOutcome g₀ (s.1, insert a s.2) s' ∧ Gone s'.1 a

/-- One iteration of the loop over the parents of an artifact. -/
theorem detachFromParents_cons {fuel : Nat} {p : NodeId} (hrec : RemovesDependents g₀ fuel)
    (parents : List NodeId) (hf : RemovalFrame g₀ s) (ha : a ∈ s.2) (hp : g₀.isArtifact p = true)
    (hchild : a ∈ g₀.children p) (hlt : (afterDetach s p a).1.edgeCount < fuel) :
    ∃ s₂, detachFromParents (removeDependents fuel) a (p :: parents) s = detachFromParents (removeDependents fuel) a parents s₂ ∧
      RemovalOutcome g₀ s s₂ ∧ Shrinks (afterDetach s p a).1 s₂.1 := by
  have hstep : RemovalStep g₀ s (afterDetach s p a) := RemovalStep.detach ha hp hchild
  have hf₁ : RemovalFrame g₀ (afterDetach s p a) := hstep.frame hf
  rcases afterDetach_cases s p a with ⟨hEq, hremove⟩ | ⟨hEq, hkeep⟩
  · have hfg : RemovalFrame g₀ (s.1.detachFromParent p a, s.2) := by
      rw [hEq] at hf₁
      exact ⟨hf₁.shrinks, hf₁.mirror⟩
    rw [hEq] at hlt
    rcases hrec p (s.1.detachFromParent p a, s.2) hfg hlt with ⟨s₂, hs₂, hout, hgone⟩
    rw [hEq] at hf₁ hstep
    refine ⟨s₂, ?_, ⟨Relation.ReflTransGen.head hstep hout.run, ?_⟩, ?_⟩
    · simp only [detachFromParents, hremove, if_true, hs₂]
      rfl
    · intro r hr
      rcases hout.gone r hr with hr₁ | hgr
      · rcases SortedSet.mem_insert.mp hr₁ with rfl | hr₁
        · exact Or.inr hgone
        · exact Or.inl hr₁
      · exact Or.inr hgr
    · rw [hEq]
      exact RemovalRun.shrinks hf₁ hout.run
  · refine ⟨afterDetach s p a, ?_, ⟨Relation.ReflTransGen.single hstep, ?_⟩, Shrinks.refl _⟩
    · rw [hEq]
      simp only [detachFromParents, hkeep, Bool.false_eq_true, if_false]
    · intro r hr
      rw [hEq] at hr
      exact Or.inl hr

/-- The loop over the parents of an artifact leaves none of them a parent. -/
theorem detachFromParents_run (hg₀ : Removable g₀) {fuel : Nat} {gs : BuildGraph}
    (hrec : RemovesDependents g₀ fuel) (hgs : Shrinks g₀ gs) (hcount : gs.edgeCount ≤ fuel)
    {parents : List NodeId}
    (hparents : ∀ p, p ∈ parents → g₀.isArtifact p = true ∧ a ∈ gs.children p)
    (hf : RemovalFrame g₀ s) (hs : Shrinks gs s.1) (ha : a ∈ s.2) :
    ∃ s', detachFromParents (removeDependents fuel) a parents s = .ok s' ∧ RemovalOutcome g₀ s s' ∧
      ∀ p, p ∈ parents → a ∉ s'.1.children p := by
  induction parents generalizing s with
  | nil =>
      refine ⟨s, ?_, ⟨Relation.ReflTransGen.refl, fun r hr => Or.inl hr⟩, by simp⟩
      simp only [detachFromParents]
  | cons p parents ih =>
      have hp := hparents p (by simp)
      have hs₁ : Shrinks gs (afterDetach s p a).1 := hs.trans (afterDetach_shrinks s p a)
      have hedge : a ∉ (afterDetach s p a).1.children p := by
        rw [mem_children_afterDetach]
        exact fun hc => hc.2 ⟨rfl, rfl⟩
      have hlt : (afterDetach s p a).1.edgeCount < fuel := by
        refine lt_of_lt_of_le (hs₁.edgeCount_lt ?_ hp.2 hedge) hcount
        rw [hgs.nextNode]
        exact hg₀.parent_lt p a (hgs.children p a hp.2)
      rcases detachFromParents_cons hrec parents hf ha hp.1
        (hgs.children p a hp.2) hlt with ⟨s₂, hrun, hout, hs₂⟩
      have hf₂ := RemovalRun.frame hf hout.run
      rcases ih (fun q hq => hparents q (List.mem_cons_of_mem p hq)) hf₂ (hs₁.trans hs₂)
        (RemovalRun.removed hf hout.run ha) with ⟨s', hs', hout', hedges⟩
      refine ⟨s', by rw [hrun, hs'], hout.trans hf hout', ?_⟩
      intro q hq
      rcases List.mem_cons.mp hq with rfl | hq
      · have hs₃ := RemovalRun.shrinks hf₂ hout'.run
        exact fun hc => hedge (hs₂.children _ _ (hs₃.children _ _ hc))
      · exact hedges q hq

/-- The recursion is a run of steps after which everything it has removed is gone. -/
theorem removeDependents_run (hg₀ : Removable g₀) (fuel : Nat) : RemovesDependents g₀ fuel := by
  induction fuel with
  | zero => exact fun a s _ hlt => absurd hlt (Nat.not_lt_zero _)
  | succ fuel ih =>
      intro a s hf hlt
      have hf₁ : RemovalFrame g₀ (s.1, insert a s.2) := ⟨hf.shrinks, hf.mirror⟩
      have hparents : ∀ p, p ∈ (s.1.parentArtifacts a).elems →
          g₀.isArtifact p = true ∧ a ∈ s.1.children p := by
        intro p hp
        have hmem := (mem_filterArtifacts s.1).mp (SortedSet.mem_def.mpr hp)
        rw [hf.shrinks.isArtifact] at hmem
        exact ⟨hmem.2, (hf.mirror.mem_parents_iff p a).mp hmem.1⟩
      rcases detachFromParents_run hg₀ ih hf.shrinks (Nat.lt_succ_iff.mp hlt) hparents hf₁
        (Shrinks.refl _) (SortedSet.mem_insert_self a s.2) with ⟨s₁, hs₁, hout, hedges⟩
      have hf₂ := RemovalRun.frame hf₁ hout.run
      have hpar : ∀ p, p ∈ s₁.1.parents a → g₀.isArtifact p = false := by
        intro p hp
        by_contra hart
        have hart : g₀.isArtifact p = true := by simpa using hart
        have hchild := (hf₂.mirror.mem_parents_iff p a).mp hp
        have hchild₀ := (RemovalRun.shrinks hf₁ hout.run).children p a hchild
        refine hedges p ?_ hchild
        refine (mem_filterArtifacts s.1).mpr ⟨(hf.mirror.mem_parents_iff p a).mpr hchild₀, ?_⟩
        rw [hf.shrinks.isArtifact]
        exact hart
      have ha : a ∈ s₁.2 := RemovalRun.removed hf₁ hout.run (SortedSet.mem_insert_self a s.2)
      have hstep : RemovalStep g₀ s₁ (s₁.1.afterRemoval a true, s₁.2) :=
        RemovalStep.finish ha hpar
      have hgone : Gone (s₁.1.afterRemoval a true) a :=
        gone_afterRemoval hf₂.mirror
          (fun f => (hf₂.shrinks.lookupTable f).nodup (hg₀.lookup_nodup f)) a
      refine ⟨(s₁.1.afterRemoval a true, s₁.2), ?_, ?_, hgone⟩
      · simp only [removeDependents, hs₁]
        refine Fallible.bind_eq_ok_iff.mpr ⟨s₁, rfl, ?_⟩
        refine Fallible.bind_eq_ok_iff.mpr ⟨s₁.1.afterRemoval a true, ?_, rfl⟩
        refine removeArtifact_of_no_parent ?_
        intro p hp
        rw [hf₂.shrinks.isArtifact]
        exact hpar p hp
      · refine hout.trans hf₁ ⟨Relation.ReflTransGen.single hstep, ?_⟩
        exact fun r hr => Or.inl hr

/-- A removal succeeds; it is a run of steps after which all removed artifacts are gone. -/
theorem removeArtifactAndExclusiveDependents_run (hg : Removable g) (a : NodeId) :
    ∃ s', g.removeArtifactAndExclusiveDependents a = .ok s' ∧
      RemovalRun g (g, {a}) s' ∧ a ∈ s'.2 ∧ ∀ r, r ∈ s'.2 → Gone s'.1 r := by
  rcases removeDependents_run hg (g.edgeCount + 1) a (g, ∅) (hg.frame ∅) (Nat.lt_succ_self _)
    with ⟨s', hs', hout, hgone⟩
  refine ⟨s', hs', hout.run, ?_, ?_⟩
  · exact RemovalRun.removed (hg.frame _) hout.run (SortedSet.mem_insert_self a ∅)
  · intro r hr
    rcases hout.gone r hr with hra | hgr
    · rw [SortedSet.mem_singleton.mp hra]
      exact hgone
    · exact hgr

end BuildGraph

end Qbs
