import Mathlib.Data.List.Nodup

/-!
# Job limits

How many commands of a job pool may run at the same time.  A limit of zero stands
for no restriction and becomes the largest number; a limit of -1 is no limit at all.

Main results:

- Structure {lit}`JobLimits`: at most one limit for each job pool.
- Theorem {lit}`JobLimits.getLimit_merge`: the limit of a pool after the limits of
  another object were merged in.
- Theorem {lit}`JobLimits.getLimit_update`: the limit of a pool after an update.

Current gaps:

- None.
-/

namespace Qbs

/-- The largest number of the type of the limits. -/
def intMax : Int :=
  2147483647

/-- The limit for a number given by the user. -/
def transformLimit (limitFromUser : Int) : Int :=
  if limitFromUser = 0 then intMax else if limitFromUser < -1 then -1 else limitFromUser

/-- The limit of one job pool. -/
structure JobLimit where
  pool : String
  limit : Int
deriving DecidableEq

/-- A limit as given by the user. -/
def JobLimit.create (pool : String) (limit : Int) : JobLimit :=
  ⟨pool, transformLimit limit⟩

/-- The limits of some job pools, each of which has at most one. -/
structure JobLimits where
  jobLimits : List JobLimit
  pools_nodup : (jobLimits.map JobLimit.pool).Nodup
deriving DecidableEq

namespace JobLimits

instance : EmptyCollection JobLimits where
  emptyCollection := ⟨[], List.nodup_nil⟩

/-- Replace the limit of a pool in a list, or add it. -/
def setInList (limit : JobLimit) : List JobLimit → List JobLimit
  | [] => [limit]
  | current :: rest =>
      if current.pool = limit.pool then
        (if current.limit ≠ limit.limit then limit else current) :: rest
      else current :: setInList limit rest

theorem map_pool_setInList (limit : JobLimit) (l : List JobLimit) :
    (setInList limit l).map JobLimit.pool =
      if limit.pool ∈ l.map JobLimit.pool then l.map JobLimit.pool
      else l.map JobLimit.pool ++ [limit.pool] := by
  induction l with
  | nil => rfl
  | cons current rest ih =>
      by_cases hpool : current.pool = limit.pool
      · simp only [setInList, List.map_cons, List.mem_cons, hpool, true_or, if_true]
        split_ifs <;> simp [hpool]
      · have hne : ¬limit.pool = current.pool := fun h => hpool h.symm
        simp only [setInList, if_neg hpool, List.map_cons, ih, List.mem_cons, hne, false_or]
        split_ifs <;> rfl

def setJobLimit (limits : JobLimits) (limit : JobLimit) : JobLimits where
  jobLimits := setInList limit limits.jobLimits
  pools_nodup := by
    rw [map_pool_setInList]
    split_ifs with h
    · exact limits.pools_nodup
    · rw [List.nodup_append]
      refine ⟨limits.pools_nodup, by simp, ?_⟩
      intro p hp q hq heq
      rw [List.mem_singleton.mp hq] at heq
      exact h (heq ▸ hp)

/-- The entry of a pool. -/
def lookup (limits : JobLimits) (pool : String) : Option Int :=
  (limits.jobLimits.find? fun l => decide (l.pool = pool)).map JobLimit.limit

/-- The limit of a pool, or -1. -/
def getLimit (limits : JobLimits) (pool : String) : Int :=
  (limits.lookup pool).getD (-1)

def isEmpty (limits : JobLimits) : Bool :=
  limits.jobLimits.isEmpty

/-- Take those limits of another object that pass a test on the old limit and the new one. -/
def merge (test : Int → Int → Bool) (limits other : JobLimits) : JobLimits :=
  other.jobLimits.foldl
    (fun acc l => if test (acc.getLimit l.pool) l.limit then acc.setJobLimit l else acc) limits

/-- Let the limits of another object replace those in an object. -/
def update (limits other : JobLimits) : JobLimits :=
  if limits.isEmpty then other else merge (fun _ limit => limit ≠ -1) limits other

/-! ## Lookup -/

theorem find?_setInList (limit : JobLimit) (l : List JobLimit) (pool : String) :
    ((setInList limit l).find? fun l => decide (l.pool = pool)).map JobLimit.limit =
      if limit.pool = pool then some limit.limit
      else (l.find? fun l => decide (l.pool = pool)).map JobLimit.limit := by
  induction l with
  | nil =>
      simp only [setInList, List.find?_cons, List.find?_nil]
      split_ifs with h <;> simp [h]
  | cons current rest ih =>
      by_cases hcurrent : current.pool = limit.pool
      · by_cases hlimit : current.limit = limit.limit
        · by_cases hpool : limit.pool = pool <;>
            simp [setInList, hcurrent, hlimit, hpool]
        · by_cases hpool : limit.pool = pool <;>
            simp [setInList, hcurrent, hlimit, hpool]
      · simp only [setInList, if_neg hcurrent, List.find?_cons]
        by_cases hpool : current.pool = pool
        · have hne : limit.pool ≠ pool := fun h => hcurrent (hpool.trans h.symm)
          simp [hpool, hne]
        · simpa [hpool] using ih

theorem lookup_setJobLimit (limits : JobLimits) (limit : JobLimit) (pool : String) :
    (limits.setJobLimit limit).lookup pool =
      if limit.pool = pool then some limit.limit else limits.lookup pool :=
  find?_setInList limit limits.jobLimits pool

theorem getLimit_setJobLimit (limits : JobLimits) (limit : JobLimit) (pool : String) :
    (limits.setJobLimit limit).getLimit pool =
      if limit.pool = pool then limit.limit else limits.getLimit pool := by
  unfold getLimit
  rw [lookup_setJobLimit]
  split_ifs <;> rfl

@[simp]
theorem getLimit_empty (pool : String) : (∅ : JobLimits).getLimit pool = -1 :=
  rfl

theorem getLimit_of_isEmpty {limits : JobLimits} (h : limits.isEmpty = true) (pool : String) :
    limits.getLimit pool = -1 := by
  have hnil : limits.jobLimits = [] := List.isEmpty_iff.mp h
  simp [getLimit, lookup, hnil]

/-- The limit of one pool after a merge. -/
def mergedLimit (test : Int → Int → Bool) (old : Int) : Option Int → Int
  | none => old
  | some limit => if test old limit then limit else old

theorem getLimit_foldl (test : Int → Int → Bool) (limits : JobLimits) {l : List JobLimit}
    (hnodup : (l.map JobLimit.pool).Nodup) (pool : String) :
    (l.foldl (fun acc l => if test (acc.getLimit l.pool) l.limit then acc.setJobLimit l else acc)
        limits).getLimit pool =
      mergedLimit test (limits.getLimit pool)
        ((l.find? fun l => decide (l.pool = pool)).map JobLimit.limit) := by
  induction l generalizing limits with
  | nil => rfl
  | cons current rest ih =>
      rw [List.map_cons, List.nodup_cons] at hnodup
      rw [List.foldl_cons, ih _ hnodup.2, List.find?_cons]
      by_cases hpool : current.pool = pool
      · have hnone : (rest.find? fun l => decide (l.pool = pool)) = none := by
          rw [List.find?_eq_none]
          intro l hl heq
          have hl' : l.pool = pool := by simpa using heq
          exact hnodup.1 (List.mem_map.mpr ⟨l, hl, hl'.trans hpool.symm⟩)
        simp only [hnone, hpool, Option.map_none, Option.map_some, decide_true, mergedLimit]
        split_ifs
        · rw [getLimit_setJobLimit, if_pos hpool]
        · rfl
      · simp only [hpool, decide_false]
        split_ifs
        · rw [getLimit_setJobLimit, if_neg hpool]
        · rfl

/-- The limit of a pool after a merge depends on its old and its new limit only. -/
theorem getLimit_merge (test : Int → Int → Bool) (limits other : JobLimits) (pool : String) :
    (merge test limits other).getLimit pool =
      mergedLimit test (limits.getLimit pool) (other.lookup pool) :=
  getLimit_foldl test limits other.pools_nodup pool

/-- After an update, the new limit counts if there is one. -/
theorem getLimit_update (limits other : JobLimits) (pool : String) :
    (limits.update other).getLimit pool =
      if other.getLimit pool = -1 then limits.getLimit pool else other.getLimit pool := by
  unfold update
  split_ifs with hempty hnone hnone
  · rw [hnone, getLimit_of_isEmpty hempty]
  · rfl
  · rw [getLimit_merge]
    unfold getLimit at hnone
    cases hother : other.lookup pool with
    | none => rfl
    | some limit =>
        have hlimit : limit = -1 := by simpa [hother] using hnone
        simp [mergedLimit, hlimit]
  · rw [getLimit_merge]
    unfold getLimit at hnone ⊢
    cases hother : other.lookup pool with
    | none => simp [hother] at hnone
    | some limit =>
        have hlimit : limit ≠ -1 := by simpa [hother] using hnone
        simp [mergedLimit, hlimit]

end JobLimits

end Qbs
