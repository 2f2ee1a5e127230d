import Mathlib.Data.List.Flatten

/-!
# Parsers for data that arrive in chunks

A parser takes items off the front of the data that have arrived.  Where the data do not suffice
for an item, it keeps its state and what is left of the data until more of them arrive.

Main results:

- Theorem {lit}`ResumableParser.drain_append`: what has been parsed stays parsed when more data
  arrive.
- Theorem {lit}`ResumableParser.feedAll_eq`: the items do not depend on how the data are cut.
-/

/-- What a parser does with the data that have arrived. -/
inductive ResumableParser.Outcome (σ α β ε : Type*) where
  | incomplete (s : σ) (rest : List α)
  | item (b : β) (s : σ) (rest : List α)
  | error (e : ε)

/-- A parser that can be resumed: what it finds stays found when more data arrive, and data that do
not suffice are not lost. -/
structure ResumableParser (σ α β ε : Type*) where
  parse : σ → List α → ResumableParser.Outcome σ α β ε
  resumes : ∀ s xs ys,
    match parse s xs with
    | .incomplete s' rest => parse s (xs ++ ys) = parse s' (rest ++ ys)
    | .item b s' rest => rest.length < xs.length ∧ parse s (xs ++ ys) = .item b s' (rest ++ ys)
    | .error e => parse s (xs ++ ys) = .error e

namespace ResumableParser

variable {σ α β ε : Type*} {p : ResumableParser σ α β ε} {rest xs : List α} {s s' : σ}

theorem incomplete_append (h : p.parse s xs = .incomplete s' rest) (ys : List α) :
    p.parse s (xs ++ ys) = p.parse s' (rest ++ ys) := by
  have hresumes := p.resumes s xs ys
  rwa [h] at hresumes

theorem item_append {b : β} (h : p.parse s xs = .item b s' rest) (ys : List α) :
    p.parse s (xs ++ ys) = .item b s' (rest ++ ys) := by
  have hresumes := p.resumes s xs ys
  rw [h] at hresumes
  exact hresumes.2

theorem length_lt {b : β} (h : p.parse s xs = .item b s' rest) :
    rest.length < xs.length := by
  have hresumes := p.resumes s xs []
  rw [h] at hresumes
  exact hresumes.1

theorem error_append {e : ε} (h : p.parse s xs = .error e) (ys : List α) :
    p.parse s (xs ++ ys) = .error e := by
  have hresumes := p.resumes s xs ys
  rwa [h] at hresumes

variable (p)

/-- The items that were found, and the state and the data that are left or the error. -/
abbrev Result (σ α β ε : Type*) :=
  List β × Except ε (σ × List α)

/-- Parse as long as there are items. -/
def drain (s : σ) (xs : List α) : Result σ α β ε :=
  match _h : p.parse s xs with
  | .incomplete s' rest => ([], .ok (s', rest))
  | .item b s' rest => ((drain s' rest).map (b :: ·) id)
  | .error e => ([], .error e)
termination_by xs.length
decreasing_by exact length_lt _h

/-- Add a chunk to the data that are left each time, and parse them. -/
def feedAll (s : σ) (buffer : List α) : List (List α) → Result σ α β ε
  | [] => ([], .ok (s, buffer))
  | chunk :: chunks =>
      match p.drain s (buffer ++ chunk) with
      | (items, .ok (s', rest)) => (feedAll s' rest chunks).map (items ++ ·) id
      | (items, .error e) => (items, .error e)

variable {p}

theorem drain_of_incomplete (h : p.parse s xs = .incomplete s' rest) :
    p.drain s xs = ([], .ok (s', rest)) := by
  rw [drain]
  split <;> simp_all

theorem drain_of_item {b : β} (h : p.parse s xs = .item b s' rest) :
    p.drain s xs = (p.drain s' rest).map (b :: ·) id := by
  rw [drain]
  split <;> simp_all

theorem drain_of_error {e : ε} (h : p.parse s xs = .error e) :
    p.drain s xs = ([], .error e) := by
  rw [drain]
  split <;> simp_all

/-- States and data that are parsed in the same way give the same items. -/
theorem drain_congr {ys : List α} (h : p.parse s xs = p.parse s' ys) :
    p.drain s xs = p.drain s' ys := by
  cases hparse : p.parse s' ys with
  | incomplete t rest => rw [drain_of_incomplete (h.trans hparse), drain_of_incomplete hparse]
  | item b t rest => rw [drain_of_item (h.trans hparse), drain_of_item hparse]
  | error e => rw [drain_of_error (h.trans hparse), drain_of_error hparse]

/-- Parsing goes on where it was left when more data arrive. -/
theorem drain_append (s : σ) (xs ys : List α) :
    p.drain s (xs ++ ys) =
      match p.drain s xs with
      | (items, .ok (s', rest)) => (p.drain s' (rest ++ ys)).map (items ++ ·) id
      | (items, .error e) => (items, .error e) := by
  induction hlength : xs.length using Nat.strongRecOn generalizing s xs with
  | ind n ih =>
      cases hparse : p.parse s xs with
      | incomplete s' rest =>
          rw [drain_of_incomplete hparse, drain_congr (incomplete_append hparse ys)]
          simp [Prod.map]
      | item b s' rest =>
          have hlt := length_lt hparse
          rw [drain_of_item hparse, drain_of_item (item_append hparse ys),
            ih rest.length (hlength ▸ hlt) s' rest rfl]
          rcases p.drain s' rest with ⟨items, e | ⟨s'', rest'⟩⟩
          · simp
          · simp [Prod.map]
      | error e => rw [drain_of_error hparse, drain_of_error (error_append hparse ys)]

/-- The data that are left do not suffice for an item. -/
theorem parse_of_drain {items : List β} (h : p.drain s xs = (items, .ok (s', rest))) :
    p.parse s' rest = .incomplete s' rest := by
  induction hlength : xs.length using Nat.strongRecOn generalizing s xs items with
  | ind n ih =>
      cases hparse : p.parse s xs with
      | incomplete t left =>
          rw [drain_of_incomplete hparse] at h
          obtain ⟨_, rfl, rfl⟩ : [] = items ∧ t = s' ∧ left = rest := by simpa using h
          have hagain := incomplete_append hparse []
          rw [List.append_nil, List.append_nil] at hagain
          rw [← hagain, hparse]
      | item b t left =>
          have hlt := length_lt hparse
          rw [drain_of_item hparse] at h
          cases hdrain : p.drain t left with
          | mk found result =>
              rw [hdrain] at h
              obtain rfl : result = .ok (s', rest) := (Prod.mk.inj h).2
              exact ih left.length (hlength ▸ hlt) hdrain rfl
      | error e =>
          rw [drain_of_error hparse] at h
          cases (Prod.mk.inj h).2

/-- Feeding chunk by chunk gives what all data give at once. -/
theorem feedAll_eq {buffer : List α} (hwaiting : p.parse s buffer = .incomplete s buffer)
    (chunks : List (List α)) :
    p.feedAll s buffer chunks = p.drain s (buffer ++ chunks.flatten) := by
  induction chunks generalizing s buffer with
  | nil => simp [feedAll, drain_of_incomplete hwaiting]
  | cons chunk chunks ih =>
      rw [feedAll, List.flatten_cons, ← List.append_assoc, drain_append s (buffer ++ chunk)]
      cases hdrain : p.drain s (buffer ++ chunk) with
      | mk items result =>
          cases result with
          | error e => rfl
          | ok left =>
              simp only
              rw [ih (parse_of_drain hdrain)]

/-! ## Written items -/

/-- The data give one item after the other, and then what comes after them is parsed. -/
theorem drain_flatMap {γ : Type*} {write : γ → List α} {found : γ → β} {l : List γ}
    (hwritten : ∀ a ∈ l, ∀ rest, p.parse s (write a ++ rest) = .item (found a) s rest)
    (rest : List α) :
    p.drain s (l.flatMap write ++ rest) = (p.drain s rest).map (l.map found ++ ·) id := by
  induction l with
  | nil => simp [Prod.map]
  | cons a l ih =>
      have hrest := ih fun b hb => hwritten b (by simp [hb])
      rw [List.flatMap_cons, List.append_assoc, drain_of_item (hwritten a (by simp) _), hrest]
      simp [Prod.map]

/-- Where an item is cut off, there is no item, and no error. -/
theorem drain_of_cut {t : σ} {ys : List α} {b : β} (hys : ys ≠ [])
    (h : p.parse s (xs ++ ys) = .item b t []) : ∃ left, p.drain s xs = ([], .ok left) := by
  cases hparse : p.parse s xs with
  | incomplete s' rest => exact ⟨_, drain_of_incomplete hparse⟩
  | item b' s' rest =>
      rw [item_append hparse ys] at h
      obtain ⟨_, hrest⟩ : rest = [] ∧ ys = [] := by simp_all
      exact absurd hrest hys
  | error e =>
      rw [error_append hparse ys] at h
      cases h

end ResumableParser
