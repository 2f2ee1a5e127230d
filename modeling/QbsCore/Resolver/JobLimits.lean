import QbsCore.Tools.JobLimits
import QbsCore.Tools.Error
import Mathlib.Order.MinMax
import Mathlib.Data.Int.Order.Basic

/-!
# Resolution of JobLimit items

JobLimit items stand in projects, products and modules.  Each project, product and
module collects the limits of its own items; a product takes over those of the
projects around it, from the innermost to the outermost one, and last those of its
modules.

Main results:

- Theorem {lit}`JobLimitItems.resolveProject_right_iff`: when each product gets the
  lowest positive number of the level with the highest precedence.

Current gaps:

- Errors end the resolution at once; the code collects those of all items.
- Errors in a product fail the resolution, as with strict handling of product errors.
-/

namespace Qbs

namespace JobLimitItems

/-- A JobLimit item; the number may be missing. -/
structure JobLimitItem where
  condition : Bool
  jobPool : String
  jobCount : Option Int32

/-- A module of a product with its JobLimit items. -/
structure ModuleItem where
  isPresentModule : Bool
  jobLimitItems : List JobLimitItem

/-- A product with its JobLimit items and its modules. -/
structure ProductItem where
  name : String
  jobLimitItems : List JobLimitItem
  modules : List ModuleItem

/-- The children of a project in the order of the project file. Nested projects may be disabled. -/
inductive ProjectChild where
  | jobLimit (item : JobLimitItem)
  | product (item : ProductItem)
  | project (enabled : Bool) (children : List ProjectChild)

/-- Enter the limit of an item into the limits of its project, product or module. -/
def resolveJobLimit (item : JobLimitItem) (jobLimits : JobLimits) : Except ErrorInfo JobLimits :=
  if !item.condition then .ok jobLimits
  else if item.jobPool = "" then
    .error (.message "A JobLimit item needs to have a non-empty 'jobPool' property.")
  else
    match item.jobCount.map Int32.toInt with
    | none => .error (.message "A JobLimit item needs to have a 'jobCount' property.")
    | some jobCount =>
        if jobCount < 0 then
          .error (.message "A JobLimit item must have a non-negative 'jobCount' property.")
        else
          let oldLimit := jobLimits.getLimit item.jobPool
          if oldLimit = -1 ∨ oldLimit > jobCount then
            .ok (jobLimits.setJobLimit (JobLimit.create item.jobPool jobCount))
          else .ok jobLimits

/-- The limits of a project, product or module after some of its items. -/
def resolveJobLimits (items : List JobLimitItem) : Except ErrorInfo JobLimits :=
  items.foldlM (fun jobLimits item => resolveJobLimit item jobLimits) ∅

/-- Add the limits of a module to those of all modules: the lower limit counts. -/
def resolveModule (m : ModuleItem) (jobLimits : JobLimits) : Except ErrorInfo JobLimits :=
  if !m.isPresentModule then .ok jobLimits
  else
    (resolveJobLimits m.jobLimitItems).map
      (JobLimits.merge (fun oldLimit newLimit => oldLimit = -1 || oldLimit > newLimit) jobLimits)

/-- The limits of the modules count where the product has none. -/
def resolveModules (modules : List ModuleItem) (product : JobLimits) :
    Except ErrorInfo JobLimits :=
  (modules.foldlM (fun jobLimits m => resolveModule m jobLimits) ∅).map
    (JobLimits.merge (fun oldLimit _ => oldLimit = -1) product)

/-- The limits of a product in nested projects, the innermost first. -/
def resolveProductFully (p : ProductItem) (contexts : List JobLimits) :
    Except ErrorInfo JobLimits := do
  let jobLimits ← resolveJobLimits p.jobLimitItems
  resolveModules p.modules
    (contexts.foldl (fun jobLimits context => context.update jobLimits) jobLimits)

mutual

/-- Resolve a child of a project; returns the limits of the project and the new products. -/
def callItemFunction :
    ProjectChild → List JobLimits → JobLimits →
      Except ErrorInfo (JobLimits × List (ProductItem × JobLimits))
  | .jobLimit item, _, own => (resolveJobLimit item own).map fun own' => (own', [])
  | .product p, parents, own =>
      (resolveProductFully p (own :: parents)).map fun jobLimits => (own, [(p, jobLimits)])
  | .project enabled children, parents, own =>
      if enabled then (resolveProject children (own :: parents) ∅).map fun products => (own, products)
      else .ok (own, [])

/-- The products of a project with their limits; the limits of the project itself are those of the
children that were resolved so far. -/
def resolveProject :
    List ProjectChild → List JobLimits → JobLimits →
      Except ErrorInfo (List (ProductItem × JobLimits))
  | [], _, _ => .ok []
  | child :: rest, parents, own =>
      (callItemFunction child parents own).bind fun r =>
        (resolveProject rest parents r.1).map fun products => r.2 ++ products

end

/-! ## What the limits should be -/

/-- The numbers of the active items for a pool, in the order of the items. -/
def activeCounts (pool : String) (items : List JobLimitItem) : List Int :=
  items.filterMap fun item =>
    if item.condition = true ∧ item.jobPool = pool then item.jobCount.map Int32.toInt else none

/-- The lowest of some numbers; the largest number if there are none. -/
def least (counts : List Int) : Int :=
  counts.foldr min intMax

/-- The numbers that are a restriction. -/
def positive (counts : List Int) : List Int :=
  counts.filter fun c => decide (0 < c)

/-- The limit that the levels, from the highest to the lowest precedence, should give: the lowest
positive number of the first level with an active item, and no limit without any. -/
def expectedLimit (levels : List (List Int)) : Int :=
  ((levels.find? fun counts => !counts.isEmpty).map fun counts => least (positive counts)).getD (-1)

/-- The JobLimit items of a project around a product: those that stand before the product, or the
nested project with the product, and those behind it. -/
structure Level where
  before : List JobLimitItem
  after : List JobLimitItem

/-- A product with the projects around it, the innermost first. -/
structure PlacedProduct where
  product : ProductItem
  levels : List Level

/-- The JobLimit items among the children of a project. -/
def jobLimitItems (children : List ProjectChild) : List JobLimitItem :=
  children.filterMap fun child =>
    match child with
    | .jobLimit item => some item
    | _ => none

mutual

/-- The products in a child of a project with the given items before and behind it. -/
def placedInChild : ProjectChild → List Level → Level → List PlacedProduct
  | .jobLimit _, _, _ => []
  | .product p, outer, level => [⟨p, level :: outer⟩]
  | .project enabled children, outer, level =>
      if enabled then placedProducts children (level :: outer) [] else []

/-- The products among the children of a project, of which some items came before. -/
def placedProducts : List ProjectChild → List Level → List JobLimitItem → List PlacedProduct
  | [], _, _ => []
  | child :: rest, outer, before =>
      placedInChild child outer ⟨before, jobLimitItems rest⟩ ++
        placedProducts rest outer (before ++ jobLimitItems [child])

end

/-- The numbers for a pool on all levels of a product. -/
def allCounts (pool : String) (p : PlacedProduct) : List (List Int) :=
  activeCounts pool p.product.jobLimitItems ::
    p.levels.map (fun level => activeCounts pool (level.before ++ level.after)) ++
    [(p.product.modules.filter ModuleItem.isPresentModule).flatMap fun m =>
      activeCounts pool m.jobLimitItems]

/-- The numbers for a pool that are known when a product is resolved, on each level by the product,
project or module that they come from. -/
def knownCounts (pool : String) (p : PlacedProduct) : List (List (List Int)) :=
  [activeCounts pool p.product.jobLimitItems] ::
    p.levels.map (fun level => [activeCounts pool level.before]) ++
    [(p.product.modules.filter ModuleItem.isPresentModule).map fun m =>
      activeCounts pool m.jobLimitItems]

/-- The positive numbers without a zero behind them. -/
def effective : List Int → List Int
  | [] => []
  | c :: counts => if 0 < c ∧ 0 ∉ counts then c :: effective counts else effective counts

/-- The numbers of the first level that has any. -/
def firstCounts (levels : List (List Int)) : List Int :=
  (levels.find? fun counts => !counts.isEmpty).getD []

/-- The numbers of the first level of which any are known, by where they come from. -/
def firstKnown (levels : List (List (List Int))) : List (List Int) :=
  (levels.find? fun groups => !groups.flatten.isEmpty).getD []

/-- Some level is known if there is any, and each restriction on the first level is matched by a
restriction that is at least as strong, is known in time and has no zero of the same product,
project or module behind it, and the other way round. -/
def RestrictionsKnown (levels : List (List Int)) (known : List (List (List Int))) : Prop :=
  (firstCounts levels ≠ [] ↔ (firstKnown known).flatten ≠ []) ∧
    ∀ n, n < intMax → ((∃ c, c ∈ positive (firstCounts levels) ∧ c ≤ n) ↔
      ∃ c, c ∈ (firstKnown known).flatMap effective ∧ c ≤ n)

/-! ## One project, product or module -/

/-- The limit after one more number. -/
def enterCount (limit c : Int) : Int :=
  if limit = -1 ∨ limit > c then transformLimit c else limit

theorem least_le_intMax (counts : List Int) : least counts ≤ intMax := by
  induction counts with
  | nil => exact le_refl _
  | cons c counts ih =>
      simp only [least, List.foldr_cons] at ih ⊢
      omega

variable {jobLimits jobLimits' : JobLimits} {groups : List (List Int)} {counts : List Int}
  {items : List JobLimitItem}

theorem least_pos (h : ∀ c, c ∈ counts → 0 < c) : 0 < least counts := by
  induction counts with
  | nil => decide
  | cons c counts ih =>
      have hc := h c (by simp)
      have hrest := ih fun d hd => h d (List.mem_cons_of_mem c hd)
      simp only [least, List.foldr_cons] at hrest ⊢
      omega

theorem least_le_iff {n : Int} (hn : n < intMax) :
    least counts ≤ n ↔ ∃ c, c ∈ counts ∧ c ≤ n := by
  induction counts with
  | nil => simpa [least] using hn
  | cons c counts ih =>
      simp only [least, List.foldr_cons, List.mem_cons, exists_eq_or_imp] at ih ⊢
      rw [min_le_iff, ih]

theorem least_append (as bs : List Int) : least (as ++ bs) = min (least as) (least bs) := by
  induction as with
  | nil =>
      have h := least_le_intMax bs
      simp only [least, List.nil_append, List.foldr_nil] at h ⊢
      omega
  | cons a as ih =>
      simp only [least, List.cons_append, List.foldr_cons] at ih ⊢
      rw [ih, min_assoc]

theorem effective_pos (counts : List Int) : ∀ c, c ∈ effective counts → 0 < c := by
  induction counts with
  | nil => simp [effective]
  | cons d counts ih =>
      intro c hc
      simp only [effective] at hc
      split_ifs at hc with h
      · rcases List.mem_cons.mp hc with rfl | hc
        · exact h.1
        · exact ih c hc
      · exact ih c hc

/-- Numbers in the range of the type of the numbers in items. -/
def Valid (counts : List Int) : Prop :=
  ∀ c, c ∈ counts → 0 ≤ c ∧ c ≤ intMax

/-- Entering numbers into a limit that exists. -/
theorem foldl_enterCount {counts : List Int} (h : Valid counts) {limit : Int} (hpos : 0 < limit)
    (hmax : limit ≤ intMax) :
    counts.foldl enterCount limit =
      min (if 0 ∈ counts then intMax else limit) (least (effective counts)) := by
  induction counts generalizing limit with
  | nil =>
      simp only [List.foldl_nil, List.not_mem_nil, if_false, effective, least, List.foldr_nil]
      omega
  | cons c counts ih =>
      have hc := h c (by simp)
      have hcounts : Valid counts := fun d hd => h d (List.mem_cons_of_mem c hd)
      have hle := least_le_intMax (effective counts)
      rw [List.foldl_cons]
      rcases Int.lt_or_eq_of_le hc.1 with hcpos | hzero
      · have henter : enterCount limit c = min limit c := by
          unfold enterCount transformLimit
          split_ifs <;> omega
        have hmin : 0 < min limit c := by omega
        have hmem : (0 : Int) ∈ c :: counts ↔ 0 ∈ counts := by
          rw [List.mem_cons]
          constructor
          · rintro (hc0 | h0)
            · omega
            · exact h0
          · exact Or.inr
        rw [henter, ih hcounts hmin (by omega)]
        simp only [effective, hmem]
        split_ifs with h0 h1 h1
        · exact absurd h0 h1.2
        · rfl
        · simp only [least, List.foldr_cons]
          omega
        · exact absurd ⟨hcpos, h0⟩ h1
      · subst hzero
        have henter : enterCount limit 0 = intMax := by
          unfold enterCount transformLimit
          simp [hpos]
        rw [henter, ih hcounts (by decide) (le_refl _)]
        simp [effective]

/-- The limit from some numbers alone. -/
theorem foldl_enterCount_none (h : Valid counts) :
    counts.foldl enterCount (-1) = if counts = [] then -1 else least (effective counts) := by
  cases counts with
  | nil => rfl
  | cons c counts =>
      have hc := h c (by simp)
      have hcounts : Valid counts := fun d hd => h d (List.mem_cons_of_mem c hd)
      have hle := least_le_intMax (effective counts)
      have henter : enterCount (-1) c = if c = 0 then intMax else c := by
        unfold enterCount transformLimit
        split_ifs <;> omega
      rw [List.foldl_cons, henter, if_neg (List.cons_ne_nil c counts)]
      by_cases hzero : c = 0
      · rw [if_pos hzero, foldl_enterCount hcounts (by decide) (le_refl _)]
        simp [effective, hzero, hle]
      · have hcpos : 0 < c := by omega
        rw [if_neg hzero, foldl_enterCount hcounts hcpos hc.2]
        simp only [effective, hcpos, true_and]
        split_ifs with h0
        · omega
        · simp [least]

variable {pool : String}

theorem getLimit_of_lookup_none (h : jobLimits.lookup pool = none) :
    jobLimits.getLimit pool = -1 := by
  rw [JobLimits.getLimit, h]
  rfl

theorem getLimit_of_lookup_some {limit : Int} (h : jobLimits.lookup pool = some limit) :
    jobLimits.getLimit pool = limit := by
  rw [JobLimits.getLimit, h]
  rfl

/-- What one item does to the entry of a pool. -/
theorem resolveJobLimit_spec {item : JobLimitItem}
    (h : resolveJobLimit item jobLimits = .ok jobLimits') (pool : String) :
    activeCounts pool [item] = [] ∧ jobLimits'.lookup pool = jobLimits.lookup pool ∨
      ∃ c, activeCounts pool [item] = [c] ∧ 0 ≤ c ∧ c ≤ intMax ∧
        jobLimits'.lookup pool = some (enterCount (jobLimits.getLimit pool) c) := by
  unfold resolveJobLimit at h
  by_cases hcondition : item.condition = true
  · simp only [hcondition, Bool.not_true, Bool.false_eq_true, if_false] at h
    split_ifs at h with hempty
    cases hcount : item.jobCount with
    | none => simp [hcount] at h
    | some count =>
        simp only [hcount, Option.map_some] at h
        split_ifs at h with hnegative hlower
        · have hmax : count.toInt ≤ intMax := by
            have := count.toInt_lt
            unfold intMax
            omega
          by_cases hpool : item.jobPool = pool
          · refine Or.inr ⟨count.toInt, by simp [activeCounts, hcondition, hpool, hcount], by omega,
              hmax, ?_⟩
            rw [← Except.ok.inj h, JobLimits.lookup_setJobLimit, ← hpool]
            simp [JobLimit.create, enterCount, hlower]
          · refine Or.inl ⟨by simp [activeCounts, hpool], ?_⟩
            rw [← Except.ok.inj h, JobLimits.lookup_setJobLimit]
            simp [JobLimit.create, hpool]
        · have hmax : count.toInt ≤ intMax := by
            have := count.toInt_lt
            unfold intMax
            omega
          rw [← Except.ok.inj h]
          by_cases hpool : item.jobPool = pool
          · refine Or.inr ⟨count.toInt, by simp [activeCounts, hcondition, hpool, hcount], by omega,
              hmax, ?_⟩
            rw [hpool] at hlower
            cases hlookup : jobLimits.lookup pool with
            | none => exact absurd (Or.inl (getLimit_of_lookup_none hlookup)) hlower
            | some limit => rw [enterCount, if_neg hlower, getLimit_of_lookup_some hlookup]
          · exact Or.inl ⟨by simp [activeCounts, hpool], rfl⟩
  · simp only [hcondition, Bool.not_false, if_true, Except.ok.injEq] at h
    refine Or.inl ⟨by simp [activeCounts, hcondition], by rw [h]⟩

theorem activeCounts_append (pool : String) (items items' : List JobLimitItem) :
    activeCounts pool (items ++ items') = activeCounts pool items ++ activeCounts pool items' :=
  List.filterMap_append

theorem activeCounts_cons (pool : String) (item : JobLimitItem) (items : List JobLimitItem) :
    activeCounts pool (item :: items) = activeCounts pool [item] ++ activeCounts pool items :=
  activeCounts_append pool [item] items

theorem foldlM_resolveJobLimit {items : List JobLimitItem} {jobLimits jobLimits' : JobLimits}
    (h : items.foldlM (fun jobLimits item => resolveJobLimit item jobLimits) jobLimits =
      .ok jobLimits') (pool : String) :
    Valid (activeCounts pool items) ∧
      jobLimits'.lookup pool = if activeCounts pool items = [] then jobLimits.lookup pool
        else some ((activeCounts pool items).foldl enterCount (jobLimits.getLimit pool)) := by
  induction items generalizing jobLimits with
  | nil =>
      rw [← Except.ok.inj h]
      exact ⟨by simp [Valid, activeCounts], rfl⟩
  | cons item items ih =>
      rw [List.foldlM_cons] at h
      rcases Fallible.bind_eq_ok_iff.mp h with ⟨middle, hitem, hrest⟩
      rcases ih hrest with ⟨hvalid, hlookup⟩
      rw [activeCounts_cons]
      rcases resolveJobLimit_spec hitem pool with ⟨hnone, hsame⟩ | ⟨c, hc, hnonneg, hmax, henter⟩
      · rw [hnone, List.nil_append]
        refine ⟨hvalid, ?_⟩
        rw [hlookup, JobLimits.getLimit, hsame]
        rfl
      · rw [hc, List.singleton_append]
        refine ⟨?_, ?_⟩
        · intro d hd
          rcases List.mem_cons.mp hd with rfl | hd
          · exact ⟨hnonneg, hmax⟩
          · exact hvalid d hd
        · rw [hlookup, if_neg (List.cons_ne_nil _ _), List.foldl_cons, henter,
            getLimit_of_lookup_some henter]
          split_ifs with hempty
          · rw [hempty, List.foldl_nil]
          · rfl

/-- The entry of a pool after the items of one project, product or module. -/
theorem lookup_resolveJobLimits (h : resolveJobLimits items = .ok jobLimits) (pool : String) :
    jobLimits.lookup pool =
      if activeCounts pool items = [] then none
      else some (least (effective (activeCounts pool items))) := by
  rcases foldlM_resolveJobLimit h pool with ⟨hvalid, hlookup⟩
  rw [hlookup, JobLimits.getLimit_empty, foldl_enterCount_none hvalid]
  split_ifs <;> rfl

/-! ## Levels -/

/-- The limit that the known numbers of one level give. -/
def levelLimit (groups : List (List Int)) : Int :=
  if groups.flatten = [] then -1 else least (groups.flatMap effective)

theorem flatMap_effective_pos (groups : List (List Int)) :
    ∀ c, c ∈ groups.flatMap effective → 0 < c := by
  intro c hc
  rcases List.mem_flatMap.mp hc with ⟨counts, -, hc⟩
  exact effective_pos counts c hc

theorem levelLimit_eq_iff :
    levelLimit groups = -1 ↔ groups.flatten = [] := by
  unfold levelLimit
  split_ifs with h
  · simp [h]
  · have hpos := least_pos (flatMap_effective_pos groups)
    simp only [h, iff_false]
    omega

theorem getLimit_resolveJobLimits (h : resolveJobLimits items = .ok jobLimits) (pool : String) :
    jobLimits.getLimit pool = levelLimit [activeCounts pool items] := by
  rw [JobLimits.getLimit, lookup_resolveJobLimits h]
  simp only [levelLimit, List.flatten_cons, List.flatten_nil, List.append_nil, List.flatMap_cons,
    List.flatMap_nil]
  split_ifs <;> rfl

/-- The limit of the modules after one more module. -/
theorem getLimit_resolveModule {m : ModuleItem} (h : resolveModule m jobLimits = .ok jobLimits')
    (hgroups : jobLimits.getLimit pool = levelLimit groups) :
    jobLimits'.getLimit pool = levelLimit (groups ++
      ([m].filter ModuleItem.isPresentModule).map fun m => activeCounts pool m.jobLimitItems) := by
  unfold resolveModule at h
  by_cases hpresent : m.isPresentModule = true
  · simp only [hpresent, Bool.not_true, Bool.false_eq_true, if_false] at h
    cases hitems : resolveJobLimits m.jobLimitItems with
    | error e => simp [hitems, Except.map] at h
    | ok own =>
        simp only [hitems, Except.map, Except.ok.injEq] at h
        rw [← h, JobLimits.getLimit_merge, lookup_resolveJobLimits hitems, hgroups]
        simp only [List.filter_cons, hpresent, if_true, List.filter_nil, List.map_cons, List.map_nil]
        have hpos := least_pos (effective_pos (activeCounts pool m.jobLimitItems))
        have hle := least_le_intMax (effective (activeCounts pool m.jobLimitItems))
        split_ifs with hempty
        · simp [JobLimits.mergedLimit, levelLimit, hempty, effective]
        · unfold levelLimit
          by_cases hnone : groups.flatten = []
          · have heffective : groups.flatMap effective = [] := by
              rw [List.flatMap_eq_nil_iff]
              intro counts hcounts
              rw [List.flatten_eq_nil_iff.mp hnone counts hcounts]
              rfl
            simp [JobLimits.mergedLimit, hnone, hempty, heffective]
          · have hgroupsPos := least_pos (flatMap_effective_pos groups)
            simp only [JobLimits.mergedLimit, hnone, if_false, List.flatten_append,
              List.append_eq_nil_iff, false_and, List.flatMap_append, List.flatMap_cons,
              List.flatMap_nil, List.append_nil, least_append]
            simp only [Bool.or_eq_true, decide_eq_true_eq]
            split_ifs <;> omega
  · simp only [hpresent, Bool.not_false, if_true, Except.ok.injEq] at h
    simp [← h, hgroups, hpresent]

theorem getLimit_foldlM_resolveModule {modules : List ModuleItem}
    (h : modules.foldlM (fun jobLimits m => resolveModule m jobLimits) jobLimits = .ok jobLimits')
    (hgroups : jobLimits.getLimit pool = levelLimit groups) :
    jobLimits'.getLimit pool = levelLimit (groups ++
      (modules.filter ModuleItem.isPresentModule).map fun m =>
        activeCounts pool m.jobLimitItems) := by
  induction modules generalizing jobLimits groups with
  | nil =>
      rw [← Except.ok.inj h, hgroups]
      simp
  | cons m modules ih =>
      rw [List.foldlM_cons] at h
      rcases Fallible.bind_eq_ok_iff.mp h with ⟨middle, hm, hrest⟩
      rw [ih hrest (getLimit_resolveModule hm hgroups), List.append_assoc, ← List.map_append,
        ← List.filter_append]
      rfl

/-- The first limit that exists. -/
def firstLimit : List Int → Int
  | [] => -1
  | limit :: limits => if limit = -1 then firstLimit limits else limit

theorem getLimit_resolveModules {modules : List ModuleItem} {product : JobLimits}
    (h : resolveModules modules product = .ok jobLimits) (pool : String) :
    jobLimits.getLimit pool = firstLimit [product.getLimit pool,
      levelLimit ((modules.filter ModuleItem.isPresentModule).map fun m =>
        activeCounts pool m.jobLimitItems)] := by
  unfold resolveModules at h
  cases hmodules : modules.foldlM (fun jobLimits m => resolveModule m jobLimits) ∅ with
  | error e => simp [hmodules, Except.map] at h
  | ok moduleLimits =>
      simp only [hmodules, Except.map, Except.ok.injEq] at h
      have hgroups : (∅ : JobLimits).getLimit pool = levelLimit [] := rfl
      have hlimit := getLimit_foldlM_resolveModule hmodules hgroups
      rw [List.nil_append] at hlimit
      rw [← h, ← hlimit, JobLimits.getLimit_merge]
      simp only [firstLimit]
      cases hlookup : moduleLimits.lookup pool with
      | none =>
          rw [getLimit_of_lookup_none hlookup]
          simp only [JobLimits.mergedLimit]
          split_ifs <;> omega
      | some limit =>
          rw [getLimit_of_lookup_some hlookup]
          simp only [JobLimits.mergedLimit, decide_eq_true_eq]
          split_ifs <;> omega

theorem getLimit_contexts (contexts : List JobLimits) (jobLimits : JobLimits) (pool : String) :
    (contexts.foldl (fun jobLimits context => context.update jobLimits) jobLimits).getLimit pool =
      firstLimit (jobLimits.getLimit pool :: contexts.map fun c => c.getLimit pool) := by
  induction contexts generalizing jobLimits with
  | nil =>
      simp only [List.foldl_nil, List.map_nil, firstLimit]
      split_ifs with h
      · exact h
      · rfl
  | cons context contexts ih =>
      rw [List.foldl_cons, ih, JobLimits.getLimit_update]
      simp only [List.map_cons, firstLimit]
      split_ifs <;> rfl

theorem firstLimit_append (as bs : List Int) :
    firstLimit (as ++ bs) = firstLimit [firstLimit as, firstLimit bs] := by
  induction as with
  | nil =>
      simp only [List.nil_append, firstLimit, if_true]
      split_ifs with h
      · exact h
      · rfl
  | cons a as ih =>
      by_cases ha : a = -1
      · have hleft : firstLimit (a :: as ++ bs) = firstLimit (as ++ bs) := if_pos ha
        have hright : firstLimit (a :: as) = firstLimit as := if_pos ha
        rw [hleft, hright, ih]
      · have hleft : firstLimit (a :: as ++ bs) = a := if_neg ha
        have hright : firstLimit (a :: as) = a := if_neg ha
        rw [hleft, hright]
        exact (if_neg ha).symm

/-- The limits of the projects around a product when it is resolved. -/
def KnownLimits (levels : List Level) (contexts : List JobLimits) : Prop :=
  List.Forall₂ (fun level context => resolveJobLimits level.before = .ok context) levels contexts

theorem KnownLimits.map_getLimit {levels : List Level} {contexts : List JobLimits}
    (h : KnownLimits levels contexts) (pool : String) :
    (contexts.map fun c => c.getLimit pool) =
      levels.map fun level => levelLimit [activeCounts pool level.before] := by
  induction h with
  | nil => rfl
  | cons hcontext _ ih =>
      rw [List.map_cons, List.map_cons, ih, getLimit_resolveJobLimits hcontext]

/-- A product gets the limit of the first level of which any number is known. -/
theorem getLimit_resolveProductFully {p : PlacedProduct} {contexts : List JobLimits}
    (hcontexts : KnownLimits p.levels contexts)
    (h : resolveProductFully p.product contexts = .ok jobLimits) (pool : String) :
    jobLimits.getLimit pool = firstLimit ((knownCounts pool p).map levelLimit) := by
  unfold resolveProductFully at h
  rcases Fallible.bind_eq_ok_iff.mp h with ⟨own, hown, hmodules⟩
  rw [getLimit_resolveModules hmodules, getLimit_contexts, getLimit_resolveJobLimits hown,
    hcontexts.map_getLimit]
  have hknown : (knownCounts pool p).map levelLimit =
      (levelLimit [activeCounts pool p.product.jobLimitItems] ::
        p.levels.map fun level => levelLimit [activeCounts pool level.before]) ++
      [levelLimit ((p.product.modules.filter ModuleItem.isPresentModule).map fun m =>
        activeCounts pool m.jobLimitItems)] := by
    simp [knownCounts, Function.comp_def]
  rw [hknown, firstLimit_append]
  simp only [firstLimit]
  split_ifs <;> rfl

theorem firstLimit_levelLimit (levels : List (List (List Int))) :
    firstLimit (levels.map levelLimit) = levelLimit (firstKnown levels) := by
  induction levels with
  | nil => rfl
  | cons groups levels ih =>
      simp only [List.map_cons, firstLimit, firstKnown, List.find?_cons] at ih ⊢
      by_cases hgroups : groups.flatten = []
      · rw [if_pos (levelLimit_eq_iff.mpr hgroups), ih]
        simp [hgroups]
      · have hempty : groups.flatten.isEmpty = false := by
          rw [Bool.eq_false_iff]
          exact fun h => hgroups (List.isEmpty_iff.mp h)
        rw [if_neg (fun h => hgroups (levelLimit_eq_iff.mp h)), hempty]
        rfl

theorem expectedLimit_eq (levels : List (List Int)) :
    expectedLimit levels =
      if firstCounts levels = [] then -1 else least (positive (firstCounts levels)) := by
  unfold expectedLimit firstCounts
  cases h : levels.find? fun counts => !counts.isEmpty with
  | none => rfl
  | some counts =>
      have hne : counts ≠ [] := by
        intro hnil
        have hsome := List.find?_some (p := fun counts : List Int => !counts.isEmpty) h
        rw [hnil] at hsome
        cases hsome
      simp only [Option.map_some, Option.getD_some, if_neg hne]

/-- The two limits agree exactly if the restrictions are known. -/
theorem limits_agree_iff (levels : List (List Int)) (known : List (List (List Int))) :
    levelLimit (firstKnown known) = expectedLimit levels ↔ RestrictionsKnown levels known := by
  rw [expectedLimit_eq]
  unfold levelLimit RestrictionsKnown
  have hpositive : ∀ c, c ∈ positive (firstCounts levels) → 0 < c := by
    intro c hc
    simpa using (List.mem_filter.mp hc).2
  have hexpected := least_pos hpositive
  have hexpectedMax := least_le_intMax (positive (firstCounts levels))
  have hknown := least_pos (flatMap_effective_pos (firstKnown known))
  have hknownMax := least_le_intMax ((firstKnown known).flatMap effective)
  by_cases hlevels : firstCounts levels = []
  · by_cases hfirst : (firstKnown known).flatten = []
    · have heffective : (firstKnown known).flatMap effective = [] := by
        rw [List.flatMap_eq_nil_iff]
        intro counts hcounts
        rw [List.flatten_eq_nil_iff.mp hfirst counts hcounts]
        rfl
      simp [hlevels, hfirst, heffective, positive]
    · simp only [hlevels, hfirst, if_false, if_true, ne_eq, not_true_eq_false, not_false_eq_true,
        false_iff, false_and, iff_false]
      omega
  · by_cases hfirst : (firstKnown known).flatten = []
    · simp only [hlevels, hfirst, if_false, if_true, ne_eq, not_true_eq_false, not_false_eq_true,
        false_and, iff_false]
      omega
    · simp only [hlevels, hfirst, if_false, ne_eq, not_false_eq_true, true_and]
      constructor
      · intro heq n hn
        rw [← least_le_iff hn, ← least_le_iff hn, heq]
      · intro h
        apply Int.le_antisymm
        · by_cases hmax : least (positive (firstCounts levels)) < intMax
          · exact (least_le_iff hmax).mpr ((h _ hmax).mp ((least_le_iff hmax).mp (Int.le_refl _)))
          · omega
        · by_cases hmax : least ((firstKnown known).flatMap effective) < intMax
          · exact (least_le_iff hmax).mpr ((h _ hmax).mpr ((least_le_iff hmax).mp (Int.le_refl _)))
          · omega

/-! ## Nested projects -/

/-- A product was resolved at its place. -/
def Resolved (p : PlacedProduct) (result : ProductItem × JobLimits) : Prop :=
  p.product = result.1 ∧
    ∃ contexts, KnownLimits p.levels contexts ∧
      resolveProductFully p.product contexts = .ok result.2

theorem resolveJobLimits_append_single {item : JobLimitItem} {own own' : JobLimits}
    (h : resolveJobLimits items = .ok own) (hitem : resolveJobLimit item own = .ok own') :
    resolveJobLimits (items ++ [item]) = .ok own' := by
  unfold resolveJobLimits at h ⊢
  have hsingle : [item].foldlM (fun jobLimits item => resolveJobLimit item jobLimits) own =
      .ok own' := by
    rw [List.foldlM_cons, hitem]
    rfl
  rw [List.foldlM_append, h]
  exact hsingle

mutual

theorem callItemFunction_spec :
    ∀ (child : ProjectChild) {parents : List JobLimits} {own : JobLimits} {outer : List Level}
      {before : List JobLimitItem} (after : List JobLimitItem)
      {r : JobLimits × List (ProductItem × JobLimits)},
      callItemFunction child parents own = .ok r → KnownLimits outer parents →
      resolveJobLimits before = .ok own →
      resolveJobLimits (before ++ jobLimitItems [child]) = .ok r.1 ∧
        List.Forall₂ Resolved (placedInChild child outer ⟨before, after⟩) r.2
  | .jobLimit item, parents, own, outer, before, after, r, h, hparents, hown => by
      rcases Fallible.map_eq_ok_iff.mp h with ⟨own', hitem, rfl⟩
      exact ⟨resolveJobLimits_append_single hown hitem, List.Forall₂.nil⟩
  | .product p, parents, own, outer, before, after, r, h, hparents, hown => by
      rcases Fallible.map_eq_ok_iff.mp h with ⟨jobLimits, hproduct, rfl⟩
      refine ⟨by simpa [jobLimitItems] using hown, List.Forall₂.cons ⟨rfl, ?_⟩ List.Forall₂.nil⟩
      exact ⟨own :: parents, List.Forall₂.cons hown hparents, hproduct⟩
  | .project enabled children, parents, own, outer, before, after, r, h, hparents, hown => by
      have hsame : resolveJobLimits (before ++ jobLimitItems [.project enabled children]) =
          .ok own := by
        simpa [jobLimitItems] using hown
      unfold callItemFunction at h
      unfold placedInChild
      split_ifs at h ⊢
      · rcases Fallible.map_eq_ok_iff.mp h with ⟨products, hproducts, rfl⟩
        exact ⟨hsame, resolveProject_spec children hproducts (List.Forall₂.cons hown hparents) rfl⟩
      · rw [← Except.ok.inj h]
        exact ⟨hsame, List.Forall₂.nil⟩

/-- The resolution of a project is the resolution of each of its products at its place. -/
theorem resolveProject_spec :
    ∀ (children : List ProjectChild) {parents : List JobLimits} {own : JobLimits}
      {outer : List Level} {before : List JobLimitItem} {products : List (ProductItem × JobLimits)},
      resolveProject children parents own = .ok products → KnownLimits outer parents →
      resolveJobLimits before = .ok own →
      List.Forall₂ Resolved (placedProducts children outer before) products
  | [], _, _, _, _, products, h, _, _ => by
      rw [← Except.ok.inj h]
      exact List.Forall₂.nil
  | child :: rest, parents, own, outer, before, products, h, hparents, hown => by
      unfold resolveProject at h
      rcases Fallible.bind_eq_ok_iff.mp h with ⟨r, hchild, hrest⟩
      rcases Fallible.map_eq_ok_iff.mp hrest with ⟨restProducts, hrestProducts, rfl⟩
      rcases callItemFunction_spec child (jobLimitItems rest) hchild hparents hown with
        ⟨hown', hforall⟩
      exact List.rel_append hforall (resolveProject_spec rest hrestProducts hparents hown')

end

/-- The products of a project, each with its limits: the limit of a pool is the lowest positive
number of the level with the highest precedence exactly if the restrictions of this level are
known when the product is resolved and are not followed by a zero. -/
theorem resolveProject_right_iff (children : List ProjectChild)
    (products : List (ProductItem × JobLimits))
    (h : resolveProject children [] ∅ = .ok products) :
    List.Forall₂ (fun p result => ∀ pool,
        (result.2.getLimit pool = expectedLimit (allCounts pool p) ↔
          RestrictionsKnown (allCounts pool p) (knownCounts pool p)))
      (placedProducts children [] []) products := by
  have hempty : resolveJobLimits [] = .ok ∅ := rfl
  have hresolved := resolveProject_spec children h List.Forall₂.nil hempty
  refine hresolved.imp ?_
  rintro p result ⟨-, contexts, hcontexts, hproduct⟩ pool
  rw [getLimit_resolveProductFully hcontexts hproduct pool, firstLimit_levelLimit]
  exact limits_agree_iff _ _

/-- A product with two limits for a pool, of which the second one is no restriction. -/
def sampleProduct : ProductItem where
  name := "app"
  jobLimitItems := [⟨true, "linker", some 2⟩, ⟨true, "linker", some 0⟩]
  modules := []

/-- A project with this product in front of a limit for another pool. -/
def sampleProject : List ProjectChild :=
  [.product sampleProduct, .jobLimit ⟨true, "compiler", some 4⟩]

/-- The limits that the product gets. -/
def sampleLimits : JobLimits :=
  ⟨[⟨"linker", intMax⟩], by decide⟩

theorem resolveProject_sampleProject :
    List.Forall₂ (fun p result => ∀ pool,
        (result.2.getLimit pool = expectedLimit (allCounts pool p) ↔
          RestrictionsKnown (allCounts pool p) (knownCounts pool p)))
      (placedProducts sampleProject [] []) [(sampleProduct, sampleLimits)] :=
  resolveProject_right_iff sampleProject [(sampleProduct, sampleLimits)] rfl

/-- The product has no restriction for the first pool, where two commands at a time are allowed,
and no limit for the second pool, where there is one in the project. -/
theorem resolveProject_sampleProject_wrong :
    resolveProject sampleProject [] ∅ = .ok [(sampleProduct, sampleLimits)] ∧
      placedProducts sampleProject [] [] =
        [⟨sampleProduct, [⟨[], [⟨true, "compiler", some 4⟩]⟩]⟩] ∧
      (sampleLimits.getLimit "linker" = intMax ∧
        expectedLimit (allCounts "linker"
          ⟨sampleProduct, [⟨[], [⟨true, "compiler", some 4⟩]⟩]⟩) = 2) ∧
      sampleLimits.getLimit "compiler" = -1 ∧
        expectedLimit (allCounts "compiler"
          ⟨sampleProduct, [⟨[], [⟨true, "compiler", some 4⟩]⟩]⟩) = 4 :=
  ⟨rfl, rfl, ⟨rfl, rfl⟩, rfl, rfl⟩

end JobLimitItems

end Qbs
