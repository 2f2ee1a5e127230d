import Mathlib.Data.List.Basic
import Mathlib.Data.List.Perm.Basic

/-!
# Edits that are carried out simultaneously

An edit replaces a range of a text; its position refers to the text before any edit.  The text that
all edits together give is put together position by position, so that no edit can be shifted by
another one.

Main results:

- Theorem {lit}`SimultaneousEdits.splice_simultaneous`: edits can be carried out one by one, each at
  its place in the text that the earlier ones give.
- Theorems {lit}`SimultaneousEdits.place_append_of_behind` and
  {lit}`SimultaneousEdits.place_append_of_not_behind`: what a further edit does to the place of
  another one.
- Theorem {lit}`SimultaneousEdits.simultaneous_perm`: the order of the edits does not matter, but
  for insertions at the same position.
-/

namespace SimultaneousEdits

/-- Replace a range by other elements; with an empty range this is an insertion. -/
structure Edit (α : Type*) where
  pos : ℕ
  len : ℕ
  text : List α

variable {α : Type*}

/-- The end of the range. -/
def Edit.stop (e : Edit α) : ℕ :=
  e.pos + e.len

/-- One range ends before the other one begins. An insertion can be at either end of a range. -/
def Compatible (e f : Edit α) : Prop :=
  e.stop ≤ f.pos ∨ f.stop ≤ e.pos

/-- The texts that are inserted at a position, in the order of the edits. -/
def inserted (edits : List (Edit α)) (p : ℕ) : List α :=
  (edits.filter fun e => e.pos = p ∧ e.len = 0).flatMap Edit.text

/-- What the range that begins at a position is replaced by. -/
def replaced (edits : List (Edit α)) (p : ℕ) : List α :=
  (edits.filter fun e => e.pos = p ∧ 0 < e.len).flatMap Edit.text

/-- The element at a position, if it is in no range. -/
def kept (edits : List (Edit α)) (text : List α) (p : ℕ) : List α :=
  if ∃ e ∈ edits, e.pos ≤ p ∧ p < e.stop then [] else text[p]?.toList

/-- What comes between the insertions at a position and those edits at the next one that follow
the insertions there. -/
def slot (edits : List (Edit α)) (text : List α) (p : ℕ) : List α :=
  replaced edits p ++ (kept edits text p ++ inserted edits (p + 1))

/-- What comes before a further edit at a position. -/
def before (edits : List (Edit α)) (text : List α) : ℕ → List α
  | 0 => inserted edits 0
  | p + 1 => before edits text p ++ slot edits text p

/-- The text that all edits together give. -/
def simultaneous (edits : List (Edit α)) (text : List α) : List α :=
  before edits text text.length

/-- Where a further edit belongs in the text that the edits give. -/
def place (edits : List (Edit α)) (text : List α) (e : Edit α) : ℕ :=
  (before edits text e.pos).length

/-- Replace a range of a text. -/
def splice (text : List α) (pos len : ℕ) (new : List α) : List α :=
  text.take pos ++ (new ++ text.drop (pos + len))

/-! ## One more edit -/

theorem inserted_append (edits : List (Edit α)) (r : Edit α) (p : ℕ) :
    inserted (edits ++ [r]) p = inserted edits p ++ if r.pos = p ∧ r.len = 0 then r.text else [] := by
  by_cases h : r.pos = p ∧ r.len = 0 <;> simp [inserted, List.filter_append, h]

theorem replaced_append (edits : List (Edit α)) (r : Edit α) (p : ℕ) :
    replaced (edits ++ [r]) p = replaced edits p ++ if r.pos = p ∧ 0 < r.len then r.text else [] := by
  by_cases h : r.pos = p ∧ 0 < r.len <;> simp [replaced, List.filter_append, h]

theorem kept_append (edits : List (Edit α)) (r : Edit α) (text : List α) (p : ℕ) :
    kept (edits ++ [r]) text p = if r.pos ≤ p ∧ p < r.stop then [] else kept edits text p := by
  by_cases h : r.pos ≤ p ∧ p < r.stop
  · have hexists : ∃ e ∈ edits ++ [r], e.pos ≤ p ∧ p < e.stop := ⟨r, by simp, h⟩
    rw [kept, if_pos hexists, if_pos h]
  · have hiff : (∃ e ∈ edits ++ [r], e.pos ≤ p ∧ p < e.stop) ↔
        ∃ e ∈ edits, e.pos ≤ p ∧ p < e.stop := by
      constructor
      · intro ⟨e, he, hrange⟩
        rcases List.mem_append.mp he with he | he
        · exact ⟨e, he, hrange⟩
        · rw [List.mem_singleton.mp he] at hrange
          exact absurd hrange h
      · intro ⟨e, he, hrange⟩
        exact ⟨e, by simp [he], hrange⟩
    simp only [kept, hiff, if_neg h]

/-- A slot away from the edit stays as it is. -/
theorem slot_append_of_lt {r : Edit α} {p : ℕ} (h : p < r.pos) (hnext : r.pos = p + 1 → 0 < r.len)
    (edits : List (Edit α)) (text : List α) : slot (edits ++ [r]) text p = slot edits text p := by
  have hinserted : ¬ (r.pos = p + 1 ∧ r.len = 0) := by omega
  rw [slot, replaced_append, kept_append, inserted_append, if_neg (by omega), if_neg (by omega),
    if_neg hinserted, List.append_nil, List.append_nil, slot]

theorem slot_append_of_stop_le {r : Edit α} {p : ℕ} (h : r.stop ≤ p) (edits : List (Edit α))
    (text : List α) : slot (edits ++ [r]) text p = slot edits text p := by
  have hpos : r.pos + r.len ≤ p := h
  rw [slot, replaced_append, kept_append, inserted_append, if_neg (by omega), if_neg (by omega),
    if_neg (by omega), List.append_nil, List.append_nil, slot]

/-- A further edit does not change what comes before an edit that it is not before. -/
theorem before_append_of_not_behind {r : Edit α} {p : ℕ} (h : p < r.pos ∨ p = r.pos ∧ 0 < r.len)
    (edits : List (Edit α)) (text : List α) : before (edits ++ [r]) text p = before edits text p := by
  induction p with
  | zero =>
      rw [before, inserted_append, if_neg (by omega), List.append_nil, before]
  | succ p ih =>
      rw [before, ih (by omega), slot_append_of_lt (by omega) (by omega), before]

/-- What comes between two positions. -/
theorem before_add (edits : List (Edit α)) (text : List α) (p k : ℕ) :
    before edits text (p + k) =
      before edits text p ++ (List.range' p k).flatMap (slot edits text) := by
  induction k with
  | zero => simp
  | succ k ih =>
      rw [← Nat.add_assoc, before, ih, List.range'_concat]
      simp

theorem before_nil (text : List α) (p : ℕ) : before [] text p = text.take p := by
  induction p with
  | zero => simp [before, inserted]
  | succ p ih => simp [before, ih, slot, replaced, kept, inserted, List.take_add_one]

/-- Without edits the text stays as it is. -/
theorem simultaneous_nil (text : List α) : simultaneous [] text = text := by
  rw [simultaneous, before_nil, List.take_length]

/-! ## The range of an edit -/

section Range

variable {edits : List (Edit α)} {r : Edit α} {k p : ℕ}

theorem replaced_of_compatible (hr : ∀ e ∈ edits, Compatible e r) (hp : r.pos ≤ p)
    (hstop : p < r.stop) : replaced edits p = [] := by
  simp only [replaced, List.flatMap_eq_nil_iff, List.mem_filter, decide_eq_true_eq]
  intro e ⟨he, hpos, hlen⟩
  rcases hr e he with hfirst | hlast
  · simp only [Edit.stop] at hfirst
    omega
  · omega

theorem kept_of_compatible (hr : ∀ e ∈ edits, Compatible e r) (hp : r.pos ≤ p) (hstop : p < r.stop)
    (text : List α) : kept edits text p = text[p]?.toList := by
  rw [kept, if_neg]
  intro ⟨e, he, hpos, hlt⟩
  rcases hr e he with hfirst | hlast
  · omega
  · omega

/-- There are no insertions within the range. -/
theorem inserted_of_compatible (hr : ∀ e ∈ edits, Compatible e r) (hp : r.pos ≤ p)
    (hstop : p < r.stop) :
    inserted edits (p + 1) = if p + 1 = r.stop then inserted edits r.stop else [] := by
  split_ifs with hend
  · rw [hend]
  · simp only [inserted, List.flatMap_eq_nil_iff, List.mem_filter, decide_eq_true_eq]
    intro e ⟨he, hpos, hlen⟩
    rcases hr e he with hfirst | hlast
    · simp only [Edit.stop] at hfirst
      omega
    · omega

theorem slot_of_compatible (hr : ∀ e ∈ edits, Compatible e r) (hp : r.pos ≤ p) (hstop : p < r.stop)
    (text : List α) :
    slot edits text p = text[p]?.toList ++ if p + 1 = r.stop then inserted edits r.stop else [] := by
  rw [slot, replaced_of_compatible hr hp hstop, kept_of_compatible hr hp hstop,
    inserted_of_compatible hr hp hstop, List.nil_append]

/-- The edit puts its text at the beginning of its range. -/
theorem slot_append_of_compatible (hr : ∀ e ∈ edits, Compatible e r) (hp : r.pos ≤ p)
    (hstop : p < r.stop) (text : List α) :
    slot (edits ++ [r]) text p =
      (if p = r.pos then r.text else []) ++
        if p + 1 = r.stop then inserted edits r.stop else [] := by
  have hstop' : p < r.pos + r.len := hstop
  have hbegin : r.pos = p ∧ 0 < r.len ↔ p = r.pos := by omega
  have hnext : ¬ (r.pos = p + 1 ∧ r.len = 0) := by omega
  rw [slot, replaced_append, kept_append, inserted_append, replaced_of_compatible hr hp hstop,
    inserted_of_compatible hr hp hstop]
  simp [hbegin, hnext, hp, hstop]

/-- Within the range there is the text that was there. -/
theorem before_within (hr : ∀ e ∈ edits, Compatible e r) (text : List α) (hk : k < r.len) :
    before edits text (r.pos + k) = before edits text r.pos ++ (text.drop r.pos).take k := by
  induction k with
  | zero => simp
  | succ k ih =>
      have hstop : r.stop = r.pos + r.len := by simp [Edit.stop]
      rw [← Nat.add_assoc, before, ih (by omega),
        slot_of_compatible hr (by omega) (by omega), if_neg (by omega), List.take_add_one,
        List.getElem?_drop, List.append_nil, List.append_assoc]

/-- Within the range there is the text of the edit. -/
theorem before_append_within (hr : ∀ e ∈ edits, Compatible e r) (text : List α) (hk : k < r.len) :
    before (edits ++ [r]) text (r.pos + k) =
      before edits text r.pos ++ if k = 0 then [] else r.text := by
  induction k with
  | zero =>
      rw [Nat.add_zero, before_append_of_not_behind (.inr ⟨rfl, hk⟩)]
      simp
  | succ k ih =>
      have hstop : r.stop = r.pos + r.len := by simp [Edit.stop]
      rw [← Nat.add_assoc, before, ih (by omega),
        slot_append_of_compatible hr (by omega) (by omega), if_neg (by omega : ¬ _ = r.stop)]
      by_cases hzero : k = 0 <;> simp [hzero]

/-- Behind an insertion there is its text. -/
theorem before_append_insertion (h : r.len = 0) (edits : List (Edit α)) (text : List α) :
    before (edits ++ [r]) text r.pos = before edits text r.pos ++ r.text := by
  obtain ⟨pos, len, new⟩ := r
  cases pos with
  | zero => rw [before, inserted_append, if_pos ⟨rfl, h⟩, before]
  | succ p =>
      have hlen : len = 0 := h
      rw [before, before_append_of_not_behind (.inl (Nat.lt_succ_self p)), before, slot,
        replaced_append, kept_append, inserted_append, if_neg (by simp [hlen]),
        if_neg (fun hin => absurd hin.1 (Nat.not_succ_le_self p)), if_pos ⟨rfl, h⟩]
      simp [slot]

/-- At the end of the range of an edit, its text takes the place of the range. -/
theorem before_stop (hr : ∀ e ∈ edits, Compatible e r) (text : List α) :
    ∃ rest,
      before edits text r.stop =
          before edits text r.pos ++ ((text.drop r.pos).take r.len ++ rest) ∧
        before (edits ++ [r]) text r.stop = before edits text r.pos ++ (r.text ++ rest) := by
  have hstop : r.stop = r.pos + r.len := by simp [Edit.stop]
  cases hlen : r.len with
  | zero =>
      refine ⟨[], ?_, ?_⟩
      · simp [hstop, hlen]
      · rw [hstop, hlen, Nat.add_zero, before_append_insertion hlen, List.append_nil]
  | succ k =>
      refine ⟨inserted edits r.stop, ?_, ?_⟩
      · rw [hstop, hlen, ← Nat.add_assoc, before, before_within hr text (by omega),
          slot_of_compatible hr (by omega) (by omega), if_pos (by omega), List.take_add_one,
          List.getElem?_drop]
        simp [hstop, hlen, Nat.add_assoc]
      · rw [hstop, hlen, ← Nat.add_assoc, before, before_append_within hr text (by omega),
          slot_append_of_compatible hr (by omega) (by omega), if_pos (by omega : _ = r.stop)]
        by_cases hzero : k = 0 <;> simp [hzero, hstop, hlen, Nat.add_assoc]

end Range

/-! ## Places -/

section Places

variable {edits : List (Edit α)} {r : Edit α}

/-- What comes before a position behind the edit, without the edit and with it. -/
theorem before_of_stop_le (hr : ∀ e ∈ edits, Compatible e r) (text : List α) {p : ℕ}
    (hp : r.stop ≤ p) :
    ∃ rest,
      before edits text p = before edits text r.pos ++ ((text.drop r.pos).take r.len ++ rest) ∧
        before (edits ++ [r]) text p = before edits text r.pos ++ (r.text ++ rest) := by
  obtain ⟨rest, hwithout, hwith⟩ := before_stop hr text
  obtain ⟨k, rfl⟩ := Nat.exists_eq_add_of_le hp
  have hslots : (List.range' r.stop k).flatMap (slot (edits ++ [r]) text) =
      (List.range' r.stop k).flatMap (slot edits text) := by
    apply List.flatMap_congr
    intro q hq
    exact slot_append_of_stop_le (List.mem_range'_1.mp hq).1 edits text
  refine ⟨rest ++ (List.range' r.stop k).flatMap (slot edits text), ?_, ?_⟩
  · simp [before_add, hwithout]
  · simp [before_add, hwith, hslots]

variable {text : List α}

/-- The edit takes its place in what the earlier edits give. -/
theorem splice_simultaneous (hr : ∀ e ∈ edits, Compatible e r) (hstop : r.stop ≤ text.length) :
    splice (simultaneous edits text) (place edits text r) r.len r.text =
      simultaneous (edits ++ [r]) text := by
  obtain ⟨rest, hwithout, hwith⟩ := before_of_stop_le hr text hstop
  have hlength : ((text.drop r.pos).take r.len).length = r.len := by
    simp only [Edit.stop] at hstop
    simp
    omega
  rw [simultaneous, simultaneous, hwithout, hwith, splice, place, List.take_left, ← List.drop_drop,
    List.drop_left, List.drop_left' hlength]

/-- The place of an edit behind the range of another one moves with the size of the text. -/
theorem place_append_of_behind (hr : ∀ e ∈ edits, Compatible e r) {c : Edit α} (hc : r.stop ≤ c.pos)
    (hstop : r.stop ≤ text.length) :
    place edits text r + r.len ≤ place edits text c ∧
      place (edits ++ [r]) text c + r.len = place edits text c + r.text.length := by
  obtain ⟨rest, hwithout, hwith⟩ := before_of_stop_le hr text hc
  have hlength : ((text.drop r.pos).take r.len).length = r.len := by
    simp only [Edit.stop] at hstop
    simp
    omega
  have hplace : place edits text c = place edits text r + (r.len + rest.length) := by
    rw [place, place, hwithout, List.length_append, List.length_append, hlength]
  have hplace' : place (edits ++ [r]) text c =
      place edits text r + (r.text.length + rest.length) := by
    rw [place, place, hwith, List.length_append, List.length_append]
  omega

/-- The place of another edit stays. -/
theorem place_append_of_not_behind {c : Edit α} (hrc : Compatible r c) (hc : ¬ r.stop ≤ c.pos)
    (edits : List (Edit α)) (text : List α) : place (edits ++ [r]) text c = place edits text c := by
  rcases hrc with hfirst | hlast
  · exact absurd hfirst hc
  · simp only [Edit.stop] at hc hlast
    rw [place, before_append_of_not_behind (by omega), place]

/-- Nothing is left of the text between two positions: each element is in a range, and what was
inserted or takes the place of a range is empty. -/
def Vanished (edits : List (Edit α)) (p q : ℕ) : Prop :=
  ∀ i, p ≤ i → i < q →
    (∃ e ∈ edits, e.pos ≤ i ∧ i < e.stop) ∧
      ∀ e ∈ edits, e.pos = i ∧ 0 < e.len ∨ e.pos = i + 1 ∧ e.len = 0 → e.text = []

theorem slot_eq_nil_iff {p : ℕ} (hp : p < text.length) :
    slot edits text p = [] ↔
      (∃ e ∈ edits, e.pos ≤ p ∧ p < e.stop) ∧
        ∀ e ∈ edits, e.pos = p ∧ 0 < e.len ∨ e.pos = p + 1 ∧ e.len = 0 → e.text = [] := by
  have hkept : kept edits text p = [] ↔ ∃ e ∈ edits, e.pos ≤ p ∧ p < e.stop := by
    rw [kept]
    split_ifs with hcovered
    · exact ⟨fun _ => hcovered, fun _ => rfl⟩
    · simp [hp, hcovered]
  rw [slot, List.append_eq_nil_iff, List.append_eq_nil_iff, hkept]
  simp only [replaced, inserted, List.flatMap_eq_nil_iff, List.mem_filter, decide_eq_true_eq]
  constructor
  · intro ⟨hreplaced, hcovered, hinserted⟩
    refine ⟨hcovered, fun e he hcases => ?_⟩
    rcases hcases with hbegin | hnext
    · exact hreplaced e ⟨he, hbegin⟩
    · exact hinserted e ⟨he, hnext⟩
  · intro ⟨hcovered, hempty⟩
    exact ⟨fun e he => hempty e he.1 (.inl he.2), hcovered, fun e he => hempty e he.1 (.inr he.2)⟩

/-- Two places are the same exactly if nothing is left between them. -/
theorem place_le {c : Edit α} (hc : c.pos ≤ r.pos) (hr : r.pos ≤ text.length) :
    place edits text c ≤ place edits text r ∧
      (place edits text c = place edits text r ↔ Vanished edits c.pos r.pos) := by
  obtain ⟨k, hk⟩ := Nat.exists_eq_add_of_le hc
  have hbefore := before_add edits text c.pos k
  rw [← hk] at hbefore
  have hplace : place edits text r = place edits text c +
      ((List.range' c.pos k).flatMap (slot edits text)).length := by
    rw [place, place, hbefore, List.length_append]
  refine ⟨by omega, ?_⟩
  have hnil : place edits text c = place edits text r ↔
      (List.range' c.pos k).flatMap (slot edits text) = [] := by
    rw [← List.length_eq_zero_iff]
    omega
  rw [hnil, List.flatMap_eq_nil_iff]
  constructor
  · intro hslots i hle hlt
    exact (slot_eq_nil_iff (by omega)).mp (hslots i (List.mem_range'_1.mpr ⟨hle, by omega⟩))
  · intro hvanished i hi
    obtain ⟨hle, hlt⟩ := List.mem_range'_1.mp hi
    exact (slot_eq_nil_iff (by omega)).mpr (hvanished i hle (by omega))

/-- An edit whose range is not empty is at another place than the edits behind it. -/
theorem place_lt {c : Edit α} (hc : ∀ e ∈ edits, Compatible e c) (hlen : 0 < c.len)
    (hcr : c.stop ≤ r.pos) (hr : r.pos ≤ text.length) :
    place edits text c < place edits text r := by
  have hstop : c.stop = c.pos + c.len := by simp [Edit.stop]
  obtain ⟨hle, hiff⟩ := @place_le _ edits r text c (by omega) hr
  refine Nat.lt_of_le_of_ne hle fun heq => ?_
  -- The first element of the range is still there.
  obtain ⟨⟨e, he, hpos, hlt⟩, _⟩ := hiff.mp heq c.pos (Nat.le_refl _) (by omega)
  rcases hc e he with hfirst | hlast
  · omega
  · omega

end Places

/-! ## Orders -/

/-- At most one range begins at a position. -/
theorem replaced_perm {edits edits' : List (Edit α)} (hperm : edits.Perm edits')
    (hcompatible : edits.Pairwise Compatible) (p : ℕ) : replaced edits p = replaced edits' p := by
  have hfilter := hperm.filter fun e => decide (e.pos = p ∧ 0 < e.len)
  have hpairwise := hcompatible.filter fun e => decide (e.pos = p ∧ 0 < e.len)
  have hmem : ∀ e ∈ edits.filter fun e => decide (e.pos = p ∧ 0 < e.len), e.pos = p ∧ 0 < e.len :=
    fun e he => by simpa using (List.mem_filter.mp he).2
  rw [replaced, replaced]
  cases hbegin : edits.filter fun e => decide (e.pos = p ∧ 0 < e.len) with
  | nil =>
      rw [hbegin] at hfilter
      rw [List.nil_perm.mp hfilter]
  | cons e l =>
      rw [hbegin] at hfilter hpairwise hmem
      cases l with
      | nil => rw [List.singleton_perm.mp hfilter]
      | cons f l =>
          have he := hmem e (by simp)
          have hf := hmem f (by simp)
          rcases (List.pairwise_cons.mp hpairwise).1 f (by simp) with hfirst | hlast
          · simp only [Edit.stop] at hfirst
            omega
          · simp only [Edit.stop] at hlast
            omega

/-- The order of the edits does not matter, but for insertions at the same position. -/
theorem simultaneous_perm {edits edits' : List (Edit α)} (hperm : edits.Perm edits')
    (hcompatible : edits.Pairwise Compatible)
    (hinserted : ∀ p, inserted edits p = inserted edits' p) (text : List α) :
    simultaneous edits text = simultaneous edits' text := by
  have hkept : ∀ p, kept edits text p = kept edits' text p := fun p => by
    have hiff : (∃ e ∈ edits, e.pos ≤ p ∧ p < e.stop) ↔ ∃ e ∈ edits', e.pos ≤ p ∧ p < e.stop := by
      simp only [hperm.mem_iff]
    simp only [kept, hiff]
  have hbefore : ∀ p, before edits text p = before edits' text p := by
    intro p
    induction p with
    | zero => rw [before, before, hinserted]
    | succ p ih =>
        rw [before, before, ih, slot, slot, replaced_perm hperm hcompatible, hkept, hinserted]
  rw [simultaneous, simultaneous, hbefore]

end SimultaneousEdits
