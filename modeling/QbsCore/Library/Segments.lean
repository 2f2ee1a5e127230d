import Mathlib.Data.List.Basic

/-!
# Lists of segments as one list

Segments that do not contain a separator are written one after the other, each with a
separator before it.  The segments can be read off the result, and prefixes of the
result are not quite prefixes of the list of segments: the last segment of a prefix
may end too early.

Main results:

- Theorem {lit}`splitOn_joined`: the segments can be read off.
- Theorem {lit}`joined_prefix_iff`: prefixes as lists of elements.
-/

namespace Segments

variable {α : Type} [DecidableEq α] (sep : α)

/-- All segments, each with a separator before it. -/
def joined (l : List (List α)) : List α :=
  l.flatMap fun s => sep :: s

/-- The separator is in no segment. -/
def Separated (l : List (List α)) : Prop :=
  ∀ s, s ∈ l → sep ∉ s

variable {sep}

omit [DecidableEq α] in
@[simp]
theorem joined_nil : joined sep ([] : List (List α)) = [] :=
  rfl

omit [DecidableEq α] in
@[simp]
theorem joined_cons (s : List α) (l : List (List α)) :
    joined sep (s :: l) = sep :: (s ++ joined sep l) :=
  rfl

omit [DecidableEq α] in
@[simp]
theorem joined_append (l m : List (List α)) :
    joined sep (l ++ m) = joined sep l ++ joined sep m :=
  List.flatMap_append

variable {l : List (List α)}

omit [DecidableEq α] in
theorem Separated.cons {s : List α} (h : Separated sep (s :: l)) :
    sep ∉ s ∧ Separated sep l :=
  ⟨h s List.mem_cons_self, fun t ht => h t (List.mem_cons_of_mem s ht)⟩

omit [DecidableEq α] in
omit [DecidableEq α] in
theorem separated_append {m : List (List α)} (hl : Separated sep l) (hm : Separated sep m) :
    Separated sep (l ++ m) := by
  intro s hs
  rcases List.mem_append.mp hs with hs | hs
  · exact hl s hs
  · exact hm s hs

/-- Splitting at the separators gives the segments back. -/
theorem splitOn_joined (hl : Separated sep l) :
    (joined sep l).splitOn sep = [] :: l := by
  suffices h : ∀ s, sep ∉ s → (s ++ joined sep l).splitOn sep = s :: l from
    h [] List.not_mem_nil
  induction l with
  | nil =>
      intro s hs
      rw [joined_nil, List.append_nil]
      exact List.splitOn_eq_singleton hs
  | cons t l ih =>
      intro s hs
      rw [joined_cons, List.splitOn_append_cons_self, List.splitOn_eq_singleton hs,
        ih hl.cons.2 t hl.cons.1]
      rfl

/-- What splitting gives has no separators. -/
theorem separated_splitOn (t : List α) : Separated sep (t.splitOn sep) := by
  induction t with
  | nil =>
      intro s hs
      rw [List.splitOn_nil] at hs
      rw [List.mem_singleton.mp hs]
      exact List.not_mem_nil
  | cons a t ih =>
      intro s hs
      rw [List.splitOn_cons_eq_if_modifyHead] at hs
      split at hs
      · rcases List.mem_cons.mp hs with rfl | hs
        · exact List.not_mem_nil
        · exact ih s hs
      · rename_i hne
        cases hsplit : t.splitOn sep with
        | nil => exact absurd hsplit (List.splitOn_ne_nil sep t)
        | cons u l =>
            rw [hsplit] at hs ih
            rcases List.mem_cons.mp hs with rfl | hs
            · rw [List.mem_cons]
              rintro (rfl | hmem)
              · exact hne (beq_self_eq_true _)
              · exact ih u List.mem_cons_self hmem
            · exact ih s (List.mem_cons_of_mem u hs)

omit [DecidableEq α] in
/-- A segment is a prefix of a text that starts with a segment exactly if it is a prefix of this
segment. -/
theorem prefix_append_joined_iff {a b : List α} (ha : sep ∉ a) :
    a <+: b ++ joined sep l ↔ a <+: b := by
  constructor
  · intro h
    rcases List.prefix_or_prefix_of_prefix h (List.prefix_append b _) with h' | ⟨t, rfl⟩
    · exact h'
    · rw [List.prefix_append_right_inj] at h
      cases l with
      | nil =>
          rw [joined_nil, List.prefix_nil] at h
          simp [h]
      | cons s l =>
          rw [joined_cons, List.prefix_cons_iff] at h
          rcases h with rfl | ⟨t', rfl, -⟩
          · simp
          · exact absurd (List.mem_append_right b List.mem_cons_self) ha
  · exact fun h => h.trans (List.prefix_append b _)

/-- Prefixes as lists of elements: all segments but the last one are the same, and the last one is
a prefix. -/
theorem joined_prefix_iff {m : List (List α)} {a : List α} (hl : Separated sep (l ++ [a]))
    (hm : Separated sep m) :
    joined sep (l ++ [a]) <+: joined sep m ↔ ∃ b rest, m = l ++ b :: rest ∧ a <+: b := by
  induction l generalizing m with
  | nil =>
      have ha : sep ∉ a := hl a List.mem_cons_self
      cases m with
      | nil => simp
      | cons b m =>
          rw [List.nil_append, joined_cons, joined_nil, List.append_nil, joined_cons,
            List.cons_prefix_cons, prefix_append_joined_iff ha]
          constructor
          · exact fun h => ⟨b, m, rfl, h.2⟩
          · rintro ⟨b', rest, heq, h⟩
            rw [List.nil_append] at heq
            cases heq
            exact ⟨rfl, h⟩
  | cons s l ih =>
      have hs := Separated.cons hl
      cases m with
      | nil =>
          simp
      | cons t m =>
          have ht := Separated.cons hm
          rw [List.cons_append, joined_cons, joined_cons, List.cons_prefix_cons]
          constructor
          · rintro ⟨-, h⟩
            -- The first separator after the first segment is at the same place in both.
            have hsplit : ∃ u, s ++ joined sep (l ++ [a]) ++ u = t ++ joined sep m := h
            rcases hsplit with ⟨u, hu⟩
            have hst : s = t := by
              have h₁ := congrArg (List.splitOn sep) hu
              cases hla : l ++ [a] with
              | nil => exact absurd hla (by simp)
              | cons v w =>
                  rw [hla, joined_cons, List.append_assoc, List.cons_append,
                    List.splitOn_append_cons_self, List.splitOn_eq_singleton hs.1] at h₁
                  cases m with
                  | nil =>
                      rw [joined_nil, List.append_nil, List.splitOn_eq_singleton ht.1] at h₁
                      exact (List.cons.inj h₁).1
                  | cons v' m =>
                      rw [joined_cons, List.splitOn_append_cons_self,
                        List.splitOn_eq_singleton ht.1] at h₁
                      exact (List.cons.inj h₁).1
            subst hst
            have hrest : joined sep (l ++ [a]) <+: joined sep m := by
              rw [List.append_assoc] at hu
              exact ⟨u, List.append_cancel_left hu⟩
            rcases (ih hs.2 ht.2).mp hrest with ⟨b, rest, rfl, hab⟩
            exact ⟨b, rest, rfl, hab⟩
          · rintro ⟨b, rest, heq, hab⟩
            rw [List.cons_append] at heq
            cases heq
            refine ⟨rfl, ?_⟩
            rw [List.prefix_append_right_inj]
            exact (ih hs.2 ht.2).mpr ⟨b, rest, rfl, hab⟩

end Segments
