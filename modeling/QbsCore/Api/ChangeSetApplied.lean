import Mathlib.Data.List.Forall2
import QbsCore.Api.ChangeSet

/-!
# Change sets that are applied

When a replacement is carried out, the ones that remain have to be shifted to their places.  This
goes wrong for an insertion at the beginning of a range that is replaced by another text, and for
one from which the beginning of the range is separated only by what has been removed.

Main results:

- Theorem {lit}`ChangeSet.remains_step`: one replacement.
- Theorem {lit}`ChangeSet.appliedSimultaneously_iff`: when no operation is shifted by another one.
-/

namespace Qbs

namespace ChangeSet

open SimultaneousEdits

/-! ## Replacements that remain -/

/-- The replacement changes something. -/
def Effective (e : Edit Char) : Prop :=
  0 < e.len ∨ e.text ≠ []

/-- A replacement that remains is in the text as it is now, at the place where it belongs. -/
structure Remains (s : List Char) (done : List (Edit Char)) (now : List Char) (e : Edit Char)
    (x : Pending) : Prop where
  length1 : x.length1 = e.len
  text : x.text = e.text
  inPlace : Effective e → x.pos1 = place done s e ∧ x.pos1 + x.length1 ≤ now.length

/-- The replacements that remain and the text after a number of replacements. -/
def stateAfter (edits : List (Edit Char)) (s : List Char) (k : ℕ) : List Pending × List Char :=
  doReplace^[k] (edits.map Pending.start, s)

/-- No replacement is ever shifted away from its place by the ones that are done. -/
def NoneShifted (edits : List (Edit Char)) (s : List Char) : Prop :=
  ∀ done rest, edits = done ++ rest →
    List.Forall₂ (Remains s done (stateAfter edits s done.length).2) rest
      (stateAfter edits s done.length).1

/-- The change set gives the text that all operations together give, and none of them is shifted
by another one. -/
def AppliedSimultaneously (ops : List EditOp) (s : List Char) : Prop :=
  NoneShifted (replaceList s ops) s ∧ apply ops s = simultaneous (replaceList s ops) s

/-- A replacement by a text of another length shifts an insertion that belongs before it: nothing
is left between them once the earlier replacements are done. -/
def Disturbs (done : List (Edit Char)) (r c : Edit Char) : Prop :=
  c.len = 0 ∧ c.text ≠ [] ∧ r.text ≠ [] ∧ r.text.length ≠ r.len ∧
    (c.pos < r.pos ∨ c.pos = r.pos ∧ 0 < r.len) ∧ Vanished done c.pos r.pos

/-- All replacements are in the text, and none disturbs a later one. -/
structure Undisturbed (edits : List (Edit Char)) (s : List Char) : Prop where
  inText : ∀ e ∈ edits, Effective e → e.stop ≤ s.length
  undisturbed : ∀ done r rest, edits = done ++ r :: rest → ∀ c ∈ rest, ¬ Disturbs done r c

/-! ## Shifting -/

theorem shifted_behind {r c : Pending} (h : r.pos1 + r.length1 ≤ c.pos1) :
    (r.shifted c).pos1 + r.length1 = c.pos1 + r.text.length := by
  simp only [Pending.shifted]
  split_ifs <;> omega

theorem shifted_before {r c : Pending} (h : c.pos1 < r.pos1) : (r.shifted c).pos1 = c.pos1 := by
  simp only [Pending.shifted]
  split_ifs <;> omega

/-- A replacement at the same position is shifted like one that is behind it, unless there is no
new text. -/
theorem shifted_same {r c : Pending} (h : c.pos1 = r.pos1) :
    (r.shifted c).pos1 =
      if r.text = [] then c.pos1 else c.pos1 + r.text.length - r.length1 := by
  simp only [Pending.shifted, ← List.length_eq_zero_iff]
  split_ifs <;> omega

/-! ## One replacement -/

/-- A replacement that changes nothing leaves everything where it is. -/
theorem before_append_of_not_effective {r : Edit Char} (h : ¬ Effective r)
    (done : List (Edit Char)) (s : List Char) (p : ℕ) :
    before (done ++ [r]) s p = before done s p := by
  rw [Effective, not_or, not_not] at h
  obtain ⟨hlen, htext⟩ := h
  have hslot : ∀ q, slot (done ++ [r]) s q = slot done s q := fun q => by
    have houtside : ¬ (r.pos ≤ q ∧ q < r.stop) := by
      simp only [Edit.stop]
      omega
    simp [slot, replaced_append, kept_append, inserted_append, htext, houtside]
  induction p with
  | zero => simp [before, inserted_append, htext]
  | succ p ih => rw [before, ih, hslot, before]

theorem carryOut_eq {s now : List Char} {done : List (Edit Char)} {r : Edit Char} {x : Pending}
    (hdone : ∀ e ∈ done, Compatible e r) (hr : Effective r → r.stop ≤ s.length)
    (hnow : now = simultaneous done s) (hx : Remains s done now r x) :
    x.carryOut now = simultaneous (done ++ [r]) s := by
  by_cases heffective : Effective r
  · obtain ⟨hpos, hwithin⟩ := hx.inPlace heffective
    rw [Pending.carryOut, if_neg (by omega), hx.length1, hx.text, hpos, Int.toNat_natCast, hnow,
      splice_simultaneous hdone (hr heffective)]
  · have hsame : simultaneous (done ++ [r]) s = now := by
      rw [hnow, simultaneous, before_append_of_not_effective heffective, simultaneous]
    rw [Effective, not_or, not_not] at heffective
    have hlen : x.length1 = 0 := by
      have hlength := hx.length1
      omega
    rw [hsame, Pending.carryOut, hx.text, heffective.2, hlen]
    split_ifs <;> simp [splice]

/-- A range that is not replaced yet is still there. -/
theorem place_add_len_le {s : List Char} {done : List (Edit Char)} {c : Edit Char}
    (hdone : ∀ e ∈ done, Compatible e c) (hc : c.stop ≤ s.length) :
    place done s c + c.len ≤ (simultaneous done s).length := by
  obtain ⟨rest, hwithout, _⟩ := before_of_stop_le hdone s hc
  have hlength : ((s.drop c.pos).take c.len).length = c.len := by
    simp only [Edit.stop] at hc
    simp
    omega
  rw [place, simultaneous, hwithout]
  simp only [List.length_append, hlength]
  omega

section Step

variable {s now : List Char} {done : List (Edit Char)} {r c : Edit Char} {x y : Pending}

/-- A replacement shifts one that remains to its place unless it disturbs it. -/
theorem pos_shifted (hr : ∀ e ∈ done, Compatible e r) (hc : ∀ e ∈ done, Compatible e c)
    (hrc : Compatible r c) (hstop : r.stop ≤ s.length) (hx : x.pos1 = place done s r)
    (hxlen : x.length1 = r.len) (hxtext : x.text = r.text) (hy : y.pos1 = place done s c)
    (heffective : Effective c) :
    (x.shifted y).pos1 = place (done ++ [r]) s c ↔ ¬ Disturbs done r c := by
  by_cases hbehind : r.stop ≤ c.pos
  · obtain ⟨hle, hplace⟩ := place_append_of_behind hr hbehind hstop
    have hshifted := @shifted_behind x y (by omega)
    have hnot : ¬ Disturbs done r c := fun hdisturbs => by
      have hbefore := hdisturbs.2.2.2.2.1
      simp only [Edit.stop] at hbehind
      omega
    rw [hxtext, hxlen] at hshifted
    exact ⟨fun _ => hnot, fun _ => by omega⟩
  · have hfirst : c.stop ≤ r.pos := hrc.resolve_left hbehind
    have hrpos : r.pos ≤ s.length := by
      simp only [Edit.stop] at hstop
      omega
    have hcpos : c.pos ≤ r.pos := by
      simp only [Edit.stop] at hfirst
      omega
    obtain ⟨hle, hsame⟩ := @place_le _ done r s c hcpos hrpos
    rw [place_append_of_not_behind hrc hbehind]
    by_cases heq : place done s c = place done s r
    · -- Both are at the same position now, and the replacement belongs behind the insertion.
      have hlen : c.len = 0 := by
        by_contra hlen
        have hlt := place_lt hc (by omega) hfirst hrpos
        omega
      have htext : c.text ≠ [] := heffective.resolve_left (by omega)
      have hbefore : c.pos < r.pos ∨ c.pos = r.pos ∧ 0 < r.len := by
        simp only [Edit.stop] at hbehind
        omega
      have hdisturbs : Disturbs done r c ↔ r.text ≠ [] ∧ r.text.length ≠ r.len := by
        simp [Disturbs, hlen, htext, hbefore, hsame.mp heq]
      have hshifted := @shifted_same x y (by omega)
      rw [hxtext, hxlen] at hshifted
      rw [hshifted, hdisturbs]
      by_cases hempty : r.text = []
      · simp [hempty, hy]
      · simp only [hy, ne_eq, hempty, if_false, not_false_eq_true, true_and, not_not]
        omega
    · have hshifted := @shifted_before x y (by omega)
      have hnot : ¬ Disturbs done r c := fun hdisturbs => heq (hsame.mpr hdisturbs.2.2.2.2.2)
      exact ⟨fun _ => hnot, fun _ => by omega⟩

/-- A replacement that remains is still in the text, at its place, unless it is disturbed. -/
theorem remains_shifted (hr : ∀ e ∈ done, Compatible e r) (hc : ∀ e ∈ done, Compatible e c)
    (hrc : Compatible r c) (hrstop : Effective r → r.stop ≤ s.length)
    (hcstop : Effective c → c.stop ≤ s.length) (hx : Remains s done now r x)
    (hy : Remains s done now c y) :
    Remains s (done ++ [r]) (simultaneous (done ++ [r]) s) c (x.shifted y) ↔
      ¬ Disturbs done r c := by
  have hlength : (x.shifted y).length1 = c.len := hy.length1
  have htext : (x.shifted y).text = c.text := hy.text
  by_cases hceffective : Effective c
  · have hwithin := @place_add_len_le s (done ++ [r]) c
      (by simpa [or_imp, forall_and] using ⟨hc, hrc⟩) (hcstop hceffective)
    have hpos : (x.shifted y).pos1 = place (done ++ [r]) s c ↔ ¬ Disturbs done r c := by
      by_cases hreffective : Effective r
      · exact pos_shifted hr hc hrc (hrstop hreffective) (hx.inPlace hreffective).1 hx.length1
          hx.text (hy.inPlace hceffective).1 hceffective
      · have hnothing := not_or.mp hreffective
        have hnot : ¬ Disturbs done r c := fun hdisturbs => hnothing.2 hdisturbs.2.2.1
        have hxtext : x.text.length = 0 := by
          rw [hx.text, not_not.mp hnothing.2, List.length_nil]
        have hxlen := hx.length1
        have hshifted : (x.shifted y).pos1 = y.pos1 := by
          simp only [Pending.shifted]
          split_ifs <;> omega
        rw [hshifted, (hy.inPlace hceffective).1, place, place,
          before_append_of_not_effective hreffective]
        exact ⟨fun _ => hnot, fun _ => rfl⟩
    rw [← hpos]
    constructor
    · intro hremains
      exact (hremains.inPlace hceffective).1
    · intro hplace
      exact ⟨hlength, htext, fun _ => ⟨hplace, by omega⟩⟩
  · have hnot : ¬ Disturbs done r c := fun hdisturbs => hceffective (.inr hdisturbs.2.1)
    exact ⟨fun _ => hnot, fun _ => ⟨hlength, htext, fun heffective => absurd heffective hceffective⟩⟩

end Step

/-! ## All replacements -/

/-- What holds of the elements of two lists after a map. -/
theorem forall₂_map_iff {α β : Type*} {P Q : α → β → Prop} {N : α → Prop} {f : β → β} {l : List α}
    {m : List β} (h : List.Forall₂ P l m) (hstep : ∀ a ∈ l, ∀ b, P a b → (Q a (f b) ↔ N a)) :
    List.Forall₂ Q l (m.map f) ↔ ∀ a ∈ l, N a := by
  induction h with
  | nil => simp
  | cons hab hrest ih =>
      rw [List.map_cons, List.forall₂_cons, List.forall_mem_cons, hstep _ (by simp) _ hab,
        ih fun a ha => hstep a (by simp [ha])]

section Run

variable {edits : List (Edit Char)} {s : List Char}

theorem stateAfter_succ (edits : List (Edit Char)) (s : List Char) (k : ℕ) :
    stateAfter edits s (k + 1) = doReplace (stateAfter edits s k) :=
  Function.iterate_succ_apply' _ _ _

/-- One replacement: the text that the edits so far give, and the replacements that remain. -/
theorem remains_step (hcompatible : edits.Pairwise Compatible)
    (hin : ∀ e ∈ edits, Effective e → e.stop ≤ s.length) {done rest : List (Edit Char)}
    {r : Edit Char} (hsplit : edits = done ++ r :: rest)
    (htext : (stateAfter edits s done.length).2 = simultaneous done s)
    (hremains : List.Forall₂ (Remains s done (stateAfter edits s done.length).2) (r :: rest)
      (stateAfter edits s done.length).1) :
    (stateAfter edits s (done.length + 1)).2 = simultaneous (done ++ [r]) s ∧
      (List.Forall₂ (Remains s (done ++ [r]) (stateAfter edits s (done.length + 1)).2) rest
          (stateAfter edits s (done.length + 1)).1 ↔
        ∀ c ∈ rest, ¬ Disturbs done r c) := by
  rw [hsplit] at hcompatible hin
  obtain ⟨_, hnext, hdone⟩ := List.pairwise_append.mp hcompatible
  rw [stateAfter_succ]
  generalize stateAfter edits s done.length = state at htext hremains
  obtain ⟨pending, now⟩ := state
  cases hremains with
  | cons hx hrest =>
      have hr : ∀ e ∈ done, Compatible e r := fun e he => hdone e he r (by simp)
      have hcarried := carryOut_eq hr (hin r (by simp)) htext hx
      refine ⟨hcarried, ?_⟩
      simp only [doReplace, hcarried]
      refine forall₂_map_iff hrest fun c hc y hy => ?_
      exact remains_shifted hr (fun e he => hdone e he c (by simp [hc]))
        ((List.pairwise_cons.mp hnext).1 c hc) (hin r (by simp)) (hin c (by simp [hc])) hx hy

/-- All replacements are at their places before the first one if they are in the text. -/
theorem remains_start :
    List.Forall₂ (Remains s [] s) edits (edits.map Pending.start) ↔
      ∀ e ∈ edits, Effective e → e.stop ≤ s.length := by
  rw [List.forall₂_map_right_iff, List.forall₂_same]
  have hstart : ∀ e, Remains s [] s e (Pending.start e) ↔ (Effective e → e.stop ≤ s.length) := by
    intro e
    have hplace : place [] s e = min e.pos s.length := by
      rw [place, before_nil, List.length_take]
    constructor
    · intro hremains heffective
      have hwithin := (hremains.inPlace heffective).2
      simp only [Pending.start] at hwithin
      simp only [Edit.stop]
      omega
    · intro hstop
      refine ⟨by simp [Pending.start], by simp [Pending.start], fun heffective => ?_⟩
      have hle := hstop heffective
      simp only [Edit.stop] at hle
      simp only [Pending.start, hplace]
      omega
  simp only [hstart]

/-- The replacements that are done give the text that they give together, as long as none was
shifted. -/
theorem text_of_noneShifted (hcompatible : edits.Pairwise Compatible) (h : NoneShifted edits s)
    (hin : ∀ e ∈ edits, Effective e → e.stop ≤ s.length) (done rest : List (Edit Char))
    (hsplit : edits = done ++ rest) :
    (stateAfter edits s done.length).2 = simultaneous done s := by
  induction done using List.reverseRecOn generalizing rest with
  | nil => simp [stateAfter, simultaneous_nil]
  | append_singleton done r ih =>
      rw [List.append_assoc, List.singleton_append] at hsplit
      have htext := ih (r :: rest) hsplit
      have hremains := h done (r :: rest) hsplit
      rw [List.length_append, List.length_singleton]
      exact (remains_step hcompatible hin hsplit htext hremains).1

/-- Replacements that do not disturb each other remain at their places. -/
theorem noneShifted_of_undisturbed (hcompatible : edits.Pairwise Compatible)
    (h : Undisturbed edits s) (done rest : List (Edit Char)) (hsplit : edits = done ++ rest) :
    (stateAfter edits s done.length).2 = simultaneous done s ∧
      List.Forall₂ (Remains s done (stateAfter edits s done.length).2) rest
        (stateAfter edits s done.length).1 := by
  induction done using List.reverseRecOn generalizing rest with
  | nil =>
      have hstart := remains_start.mpr h.inText
      rw [List.nil_append] at hsplit
      rw [hsplit] at hstart ⊢
      simpa [stateAfter, simultaneous_nil] using hstart
  | append_singleton done r ih =>
      rw [List.append_assoc, List.singleton_append] at hsplit
      obtain ⟨htext, hremains⟩ := ih (r :: rest) hsplit
      obtain ⟨htext', hremains'⟩ := remains_step hcompatible h.inText hsplit htext hremains
      rw [List.length_append, List.length_singleton]
      exact ⟨htext', hremains'.mpr (h.undisturbed done r rest hsplit)⟩

theorem noneShifted_iff (hcompatible : edits.Pairwise Compatible) :
    NoneShifted edits s ↔ Undisturbed edits s := by
  constructor
  · intro h
    have hin : ∀ e ∈ edits, Effective e → e.stop ≤ s.length := by
      have hstart := h [] edits (by simp)
      simp only [stateAfter, List.length_nil, Function.iterate_zero, id] at hstart
      exact remains_start.mp hstart
    refine ⟨hin, fun done r rest hsplit => ?_⟩
    have htext := text_of_noneShifted hcompatible h hin done (r :: rest) hsplit
    have hremains := h done (r :: rest) hsplit
    have hnext := h (done ++ [r]) rest (by simp [hsplit])
    rw [List.length_append, List.length_singleton] at hnext
    exact (remains_step hcompatible hin hsplit htext hremains).2.mp hnext
  · intro h done rest hsplit
    exact (noneShifted_of_undisturbed hcompatible h done rest hsplit).2

end Run

theorem apply_of_undisturbed {ops : List EditOp} {s : List Char}
    (haccepted : hadErrors ops = false) (h : Undisturbed (replaceList s ops) s) :
    apply ops s = simultaneous (replaceList s ops) s := by
  have htext := (noneShifted_of_undisturbed (compatible_of_accepted haccepted s) h _ []
    (List.append_nil _).symm).1
  rw [apply, execute, List.length_map]
  exact htext

/-- The operations of a change set are carried out simultaneously, and none of them is shifted by
another one, exactly if no replacement disturbs a later one.  The order in which operations were
added then makes no difference, but for insertions at the same position. -/
theorem appliedSimultaneously_iff {ops : List EditOp} {s : List Char}
    (haccepted : hadErrors ops = false) :
    (AppliedSimultaneously ops s ↔ Undisturbed (replaceList s ops) s) ∧
      ∀ ops', ops.Perm ops' → hadErrors ops' = false →
        (∀ p, inserted (replaceList s ops) p = inserted (replaceList s ops') p) →
        Undisturbed (replaceList s ops) s → Undisturbed (replaceList s ops') s →
        apply ops' s = apply ops s := by
  have hcompatible := compatible_of_accepted haccepted s
  refine ⟨?_, fun ops' hperm haccepted' hinserted h h' => ?_⟩
  · rw [AppliedSimultaneously, noneShifted_iff hcompatible]
    exact ⟨fun hboth => hboth.1, fun h => ⟨h, apply_of_undisturbed haccepted h⟩⟩
  · have hlists : (replaceList s ops).Perm (replaceList s ops') :=
      hperm.flatMap_right (convertToReplace s)
    rw [apply_of_undisturbed haccepted h, apply_of_undisturbed haccepted' h',
      simultaneous_perm hlists hcompatible hinserted]

/-- An insertion behind the removal of two characters, and one at their beginning. -/
theorem appliedSimultaneously_iff_removal :
    AppliedSimultaneously [.remove 1 2, .insert 1 ['x'], .insert 4 ['y']]
      ['a', 'b', 'c', 'd'] := by
  have hpairwise : (replaceList ['a', 'b', 'c', 'd']
      [.remove 1 2, .insert 1 ['x'], .insert 4 ['y']]).Pairwise fun r c =>
        r.text = [] ∨ r.pos < c.pos := by
    decide
  refine (appliedSimultaneously_iff (by decide)).1.mpr
    ⟨fun e he heffective => ?_, fun done r rest h c hc hdisturbs => ?_⟩
  · clear heffective
    revert e
    decide
  · rw [h, List.pairwise_append, List.pairwise_cons] at hpairwise
    rcases hdisturbs with ⟨-, -, htext, -, hpos, -⟩
    rcases hpairwise.2.1.1 c hc with htext' | hlt
    · exact htext htext'
    · omega

/-- A range is replaced by a shorter text, and then there is an insertion at its beginning: the
insertion is lost. It is not if it was added first. -/
theorem not_appliedSimultaneously_insertion :
    let ops : List EditOp := [.replace 0 3 ['x', 'y'], .insert 0 ['z']]
    let s := ['a', 'b', 'c']
    hadErrors ops = false ∧ hadErrors ops.reverse = false ∧ ¬ AppliedSimultaneously ops s ∧
      simultaneous (replaceList s ops) s = ['z', 'x', 'y'] ∧ apply ops s = ['x', 'y'] ∧
      apply ops.reverse s = ['z', 'x', 'y'] := by
  intro ops s
  refine ⟨by decide, by decide, ?_, by decide, by decide, by decide⟩
  intro happlied
  have heq : apply ops s = simultaneous (replaceList s ops) s := happlied.2
  exact absurd heq (by decide)

end ChangeSet

end Qbs
