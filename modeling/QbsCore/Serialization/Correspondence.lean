import QbsCore.Serialization.SharedValues

/-!
# Loading values of all types

A loaded value corresponds to the stored one: it is equal, with pointers to the objects that
have been loaded for the stored ones.  Loading a value mirrors storing it if this is so for
pointers.

Main results:

- Definition {lit}`Serialization.Ty.Corresponds`: what a loaded value has to do with the stored
  one.
- Theorem {lit}`Serialization.mirrors_value`: loading a value of any type mirrors storing it.

Current gaps:

- None.
-/

namespace Qbs

namespace Serialization

open Streams Growth

variable {n bound : Nat} {Class : Type} {fields : Fields Class} {Ref : Bool → Class → Type}

/-! ## Corresponding values -/

/-- How a pointer is related to the one that is loaded for it. -/
abbrev PointerRel (Ref : Bool → Class → Type) :=
  (shared : Bool) → (c : Class) → Option (Ref shared c) → Option Nat → Prop

/-- A loaded key is the stored one. -/
def KeyTy.Corresponds (R : PointerRel Ref) :
    (k : KeyTy Class) → k.Val Ref → k.Val (Loaded Class) → Prop
  | int, (i : Int), (j : Int) => i = j
  | string, (s : String), (t : String) => s = t
  | stringList, (l : List String), (l' : List String) => l = l'
  | pair a b, (x, y), (x', y') => a.Corresponds R x x' ∧ b.Corresponds R y y'
  | pointer shared c, p, q => R shared c p q

/-- A loaded set has the elements of the stored one; pointers are in the order of their
addresses. -/
def KeyTy.SetCorresponds (R : PointerRel Ref) :
    (k : KeyTy Class) → List (k.Val Ref) → List (k.Val (Loaded Class)) → Prop
  | pointer shared c, x, (y : List (Option Nat)) =>
      (∃ l, l.Perm y ∧ List.Forall₂ (R shared c) x l) ∧
        y.Pairwise fun p q => p.elim 0 (· + 1) ≤ q.elim 0 (· + 1)
  | int, x, y => List.Forall₂ (int.Corresponds R) x y
  | string, x, y => List.Forall₂ (string.Corresponds R) x y
  | stringList, x, y => List.Forall₂ (stringList.Corresponds R) x y
  | pair a b, x, y => List.Forall₂ ((pair a b).Corresponds R) x y

/-- A loaded value is the stored one; the entries of a map have no order. -/
def Ty.Corresponds (R : PointerRel Ref) : (t : Ty Class) → t.Val Ref → t.Val (Loaded Class) → Prop
  | unit, _, _ => True
  | key k, x, y => k.Corresponds R x y
  | environment, (env : QProcessEnvironment), (env' : QProcessEnvironment) => env = env'
  | variant, (v : QVariant), (v' : QVariant) => v = v'
  | pair a b, (x, y), (x', y') => a.Corresponds R x x' ∧ b.Corresponds R y y'
  | list a, l, l' => List.Forall₂ (a.Corresponds R) l l'
  | map _ k v, (m : AssocMap (k.Val Ref) (v.Val Ref)), (m' : AssocMap (k.Val _) (v.Val _)) =>
      ∃ l, l.Perm m'.entries ∧
        List.Forall₂ (fun e e' => k.Corresponds R e.1 e'.1 ∧ v.Corresponds R e.2 e'.2) m.entries l
  | set a, x, y => a.SetCorresponds R x y
  | sum a _, .inl x, .inl x' => a.Corresponds R x x'
  | sum _ b, .inr y, .inr y' => b.Corresponds R y y'
  | sum _ _, .inl _, .inr _ | sum _ _, .inr _, .inl _ => False

section Corresponds

variable {R R' : PointerRel Ref}

theorem KeyTy.Corresponds.mono (h : ∀ shared c p q, R shared c p q → R' shared c p q)
    {k : KeyTy Class} {x : k.Val Ref} {y : k.Val (Loaded Class)} (hxy : k.Corresponds R x y) :
    k.Corresponds R' x y := by
  induction k with
  | int => exact hxy
  | string => exact hxy
  | stringList => exact hxy
  | pair a b iha ihb => exact ⟨iha hxy.1, ihb hxy.2⟩
  | pointer shared c => exact h shared c x y hxy

theorem KeyTy.SetCorresponds.mono (h : ∀ shared c p q, R shared c p q → R' shared c p q)
    {k : KeyTy Class} {x : List (k.Val Ref)} {y : List (k.Val (Loaded Class))}
    (hxy : k.SetCorresponds R x y) : k.SetCorresponds R' x y := by
  cases k with
  | int => exact hxy
  | string => exact hxy
  | stringList => exact hxy
  | pair a b => exact List.Forall₂.imp (fun _ _ => KeyTy.Corresponds.mono h) hxy
  | pointer shared c =>
      rcases hxy with ⟨⟨l, hperm, hl⟩, hsorted⟩
      exact ⟨⟨l, hperm, hl.imp (h shared c)⟩, hsorted⟩

theorem Ty.Corresponds.mono (h : ∀ shared c p q, R shared c p q → R' shared c p q)
    {t : Ty Class} {x : t.Val Ref} {y : t.Val (Loaded Class)} (hxy : t.Corresponds R x y) :
    t.Corresponds R' x y := by
  induction t with
  | unit => trivial
  | key k => exact KeyTy.Corresponds.mono h hxy
  | environment => exact hxy
  | variant => exact hxy
  | pair a b iha ihb => exact ⟨iha hxy.1, ihb hxy.2⟩
  | list a ih => exact List.Forall₂.imp (fun _ _ => ih) hxy
  | map overwrites k v ih =>
      rcases hxy with ⟨l, hperm, hl⟩
      exact ⟨l, hperm, hl.imp fun _ _ he => ⟨KeyTy.Corresponds.mono h he.1, ih he.2⟩⟩
  | set a => exact KeyTy.SetCorresponds.mono h hxy
  | sum a b iha ihb =>
      cases x with
      | inl x =>
          cases y with
          | inl y => exact iha hxy
          | inr y => exact hxy
      | inr x =>
          cases y with
          | inl y => exact hxy
          | inr y => exact ihb hxy

/-- Different keys are loaded as different ones. -/
theorem KeyTy.Corresponds.leftUnique
    (h : ∀ shared c p p' q, R shared c p q → R shared c p' q → p = p')
    {k : KeyTy Class} {x x' : k.Val Ref} {y : k.Val (Loaded Class)} (hx : k.Corresponds R x y)
    (hx' : k.Corresponds R x' y) : x = x' := by
  induction k with
  | int => exact Eq.trans hx (Eq.symm hx')
  | string => exact Eq.trans hx (Eq.symm hx')
  | stringList => exact Eq.trans hx (Eq.symm hx')
  | pair a b iha ihb => exact Prod.ext (iha hx.1 hx'.1) (ihb hx.2 hx'.2)
  | pointer shared c => exact h shared c x x' y hx hx'

end Corresponds

/-! ## Containers -/

section Containers

variable {α β γ : Type}

/-- If what is loaded for different items is different, there are no equal items again. -/
theorem nodup_of_forall₂ {r : α → β → Prop} (h : ∀ x x' y, r x y → r x' y → x = x')
    {xs : List α} {ys : List β} (hr : List.Forall₂ r xs ys) (hxs : xs.Nodup) : ys.Nodup := by
  induction hr with
  | nil => exact List.nodup_nil
  | @cons x y xs ys hxy hrest ih =>
      rw [List.nodup_cons] at hxs ⊢
      refine ⟨fun hy => ?_, ih hxs.2⟩
      rcases List.mem_iff_getElem.mp hy with ⟨i, hi, hyi⟩
      have hlen := hrest.length_eq
      have hx := hrest.get (i := i) (by omega) hi
      have hsame := h x _ y hxy (by simpa [hyi] using hx)
      exact hxs.1 (hsame ▸ List.getElem_mem _)

/-- Entries with new keys are all inserted, whether or not inserting overwrites. -/
theorem foldl_insert_perm [DecidableEq α] (overwrites : Bool) (ys : List (α × β))
    (m : AssocMap α β) (hys : (ys.map Prod.fst).Nodup) (hm : ∀ e, e ∈ ys → e.1 ∉ m) :
    (ys.foldl (fun m e =>
      if overwrites then AList.insert e.1 e.2 m else AssocMap.insertNew m e.1 e.2) m).entries.Perm
      (m.entries ++ ys.map fun e => (⟨e.1, e.2⟩ : Σ _ : α, β)) := by
  induction ys generalizing m with
  | nil => simp
  | cons e ys ih =>
      rw [List.map_cons, List.nodup_cons] at hys
      have hnew : e.1 ∉ m := hm e List.mem_cons_self
      have hinsert : (if overwrites then AList.insert e.1 e.2 m
          else AssocMap.insertNew m e.1 e.2) = AList.insert e.1 e.2 m := by
        have hlookup : m.lookup e.1 = none := AList.lookup_eq_none.mpr hnew
        cases overwrites <;> simp [AssocMap.insertNew, hlookup]
      rw [List.foldl_cons, hinsert]
      refine (ih (AList.insert e.1 e.2 m) hys.2 fun e' he' => ?_).trans ?_
      · rw [AList.mem_insert, not_or]
        refine ⟨fun hsame => hys.1 ?_, hm e' (List.mem_cons_of_mem e he')⟩
        rw [← hsame]
        exact List.mem_map_of_mem he'
      · rw [AList.entries_insert_of_notMem hnew, List.map_cons, List.cons_append]
        exact List.perm_middle.symm

end Containers

/-! ## Operations for all types -/

section Operations

variable {storePtr : (shared : Bool) → (c : Class) → Option (Ref shared c) → Store n Unit}
  {loadPtr : (shared : Bool) → Class → Load fields (Option Nat)}

theorem writes_storeKey (h : ∀ shared c p, Writes (storePtr shared c p)) (k : KeyTy Class)
    (x : k.Val Ref) : Writes (storeKey storePtr k x) := by
  induction k with
  | int => exact writes_putInt _
  | string => exact writes_storeString _
  | stringList => exact writes_storeStringList _
  | pair a b iha ihb => exact (iha x.1).bind (ihb x.2)
  | pointer shared c => exact h shared c x

theorem writes_storeValue (h : ∀ shared c p, Writes (storePtr shared c p)) (t : Ty Class)
    (x : t.Val Ref) : Writes (storeValue storePtr t x) := by
  induction t with
  | unit => exact Writes.pure
  | key k => exact writes_storeKey h k x
  | environment => exact writes_storeEnvironment _
  | variant => exact writes_storeVariant _
  | pair a b iha ihb => exact (iha x.1).bind (ihb x.2)
  | list a ih => exact (writes_putInt _).bind (Writes.putAll ih x)
  | map overwrites k v ih =>
      exact (writes_putInt _).bind
        (Writes.putAll (fun e : Σ _ : k.Val Ref, v.Val Ref =>
          (writes_storeKey h k e.1).bind (ih e.2)) _)
  | set a => exact (writes_putInt _).bind (Writes.putAll (writes_storeKey h a) x)
  | sum a b iha ihb =>
      cases x with
      | inl x => exact (writes_putInt _).bind (iha x)
      | inr x => exact (writes_putInt _).bind (ihb x)

/-- Loading pointers mirrors storing them, and it is known how they are related then. -/
structure PointersMirror (bound : Nat) (Sync : StorePool n → LoadPool fields → Prop)
    (R : StorePool n → PointerRel Ref)
    (storePtr : (shared : Bool) → (c : Class) → Option (Ref shared c) → Store n Unit)
    (loadPtr : (shared : Bool) → Class → Load fields (Option Nat)) : Prop where
  free : TablesFree Sync
  writes : ∀ shared c p, Writes (storePtr shared c p)
  mirrors : ∀ shared c p, Mirrors bound (PoolSync Sync) (PoolSync Sync) (storePtr shared c p)
    (loadPtr shared c) fun s q => R s shared c p q
  mono : ∀ s s', Grows s s' → ∀ shared c p q, R s shared c p q → R s' shared c p q
  leftUnique : ∀ s l, Sync s l → ∀ shared c p p' q, R s shared c p q → R s shared c p' q → p = p'

variable {Sync : StorePool n → LoadPool fields → Prop} {R : StorePool n → PointerRel Ref}

theorem PointersMirror.mono_key (h : PointersMirror bound Sync R storePtr loadPtr)
    (k : KeyTy Class) (x : k.Val Ref) (s s' : StorePool n) (y : k.Val (Loaded Class))
    (hgrows : Grows s s') (hy : k.Corresponds (R s) x y) : k.Corresponds (R s') x y :=
  KeyTy.Corresponds.mono (h.mono s s' hgrows) hy

theorem PointersMirror.mono_value (h : PointersMirror bound Sync R storePtr loadPtr)
    (t : Ty Class) (x : t.Val Ref) (s s' : StorePool n) (y : t.Val (Loaded Class))
    (hgrows : Grows s s') (hy : t.Corresponds (R s) x y) : t.Corresponds (R s') x y :=
  Ty.Corresponds.mono (h.mono s s' hgrows) hy

/-- A number by itself. -/
theorem mirrors_int {Pre : StorePool n → LoadPool fields → Prop} (i : Int) :
    Mirrors bound Pre Pre (putInt i) (nextInt : Load fields Int) fun _ j => i = j := by
  have hnum : Mirrors bound Pre Pre (putInt i) (nextInt >>= pure) fun _ j => i = j :=
    mirrors_putInt i (Mirrors.pure fun _ => rfl)
  rwa [bind_pure] at hnum

/-- Two values, one after the other. -/
theorem mirrors_pair {α β : Type} {w₁ w₂ : Store n Unit} {r₁ : Load fields α} {r₂ : Load fields β}
    {P : StorePool n → α → Prop} {Q : StorePool n → β → Prop} (hw₁ : Writes w₁) (hw₂ : Writes w₂)
    (hmono : ∀ s s' x, Grows s s' → P s x → P s' x)
    (h₁ : Mirrors bound (PoolSync Sync) (PoolSync Sync) w₁ r₁ P)
    (h₂ : Mirrors bound (PoolSync Sync) (PoolSync Sync) w₂ r₂ Q) :
    Mirrors bound (PoolSync Sync) (PoolSync Sync) (w₁ >>= fun _ => w₂)
      (r₁ >>= fun x => r₂ >>= fun y => pure (x, y)) fun s z => P s z.1 ∧ Q s z.2 := by
  have hseq : Mirrors bound (PoolSync Sync) (PoolSync Sync) (w₁ >>= fun _ => w₂)
      (r₁ >>= fun x => r₂ >>= fun y => pure (x, y))
      fun s z => ∃ x, P s x ∧ z.1 = x ∧ Q s z.2 := by
    apply Mirrors.bind hw₁ hw₂ hmono h₁
    intro x _
    exact h₂.map _ fun _ _ hy => ⟨rfl, hy⟩
  refine hseq.imp fun s z hz => ?_
  rcases hz with ⟨x, hx, rfl, hy⟩
  exact ⟨hx, hy⟩

/-- A list of items that are appended when they are loaded. -/
theorem mirrors_items {α β : Type} {ws : α → Store n Unit} {r : Load fields β}
    {P : α → StorePool n → β → Prop} (hw : ∀ x, Writes (ws x))
    (hmono : ∀ x s s' y, Grows s s' → P x s y → P x s' y)
    (h : ∀ x, Mirrors bound (PoolSync Sync) (PoolSync Sync) (ws x) r (P x)) (xs : List α) :
    Mirrors bound (PoolSync Sync) (PoolSync Sync) (putAll ws xs)
      (readInto r (fun l x => l ++ [x]) xs.length [])
      fun s ys => List.Forall₂ (fun x y => P x s y) xs ys := by
  refine (Mirrors.loop hw hmono xs (fun x _ => h x) []).imp fun s c hc => ?_
  rcases hc with ⟨ys, hys, rfl⟩
  rwa [foldl_concat, List.nil_append]

theorem mirrors_key (h : PointersMirror bound Sync R storePtr loadPtr) (k : KeyTy Class)
    (x : k.Val Ref) :
    Mirrors bound (PoolSync Sync) (PoolSync Sync) (storeKey storePtr k x) (loadKey loadPtr k)
      fun s y => k.Corresponds (R s) x y := by
  induction k with
  | int => exact mirrors_int x
  | string => exact h.free.mirrors_string x
  | stringList => exact h.free.mirrors_stringList x
  | pair a b iha ihb =>
      exact mirrors_pair (writes_storeKey h.writes a x.1) (writes_storeKey h.writes b x.2)
        (h.mono_key a x.1) (iha x.1) (ihb x.2)
  | pointer shared c => exact h.mirrors shared c x

theorem setCorresponds_sortAfterLoad {R : PointerRel Ref} (k : KeyTy Class)
    {x : List (k.Val Ref)} {y : List (k.Val (Loaded Class))}
    (h : List.Forall₂ (k.Corresponds R) x y) : k.SetCorresponds R x (sortAfterLoad k y) := by
  cases k with
  | int => exact h
  | string => exact h
  | stringList => exact h
  | pair a b => exact h
  | pointer shared c =>
      refine ⟨⟨y, (List.mergeSort_perm _ _).symm, h⟩, ?_⟩
      exact AssocMap.pairwise_mergeSort_key (fun p : Option Nat => p.elim 0 (· + 1)) y

/-- The loaded entries of a map have different keys again. -/
theorem mapCorresponds_foldl {R : PointerRel Ref}
    (h : ∀ shared c p p' q, R shared c p q → R shared c p' q → p = p') (overwrites : Bool)
    (k : KeyTy Class) (v : Ty Class) (m : AssocMap (k.Val Ref) (v.Val Ref))
    {ys : List (k.Val (Loaded Class) × v.Val (Loaded Class))}
    (hys : List.Forall₂ (fun e e' => k.Corresponds R e.1 e'.1 ∧ v.Corresponds R e.2 e'.2)
      m.entries ys) :
    (Ty.map overwrites k v).Corresponds R m (ys.foldl (fun m e =>
      if overwrites then AList.insert e.1 e.2 m else AssocMap.insertNew m e.1 e.2)
        (∅ : AList fun _ : k.Val (Loaded Class) => v.Val (Loaded Class))) := by
  have hkeys : List.Forall₂ (k.Corresponds R) m.keys (ys.map Prod.fst) := by
    show List.Forall₂ _ (m.entries.map Sigma.fst) _
    rw [List.forall₂_map_left_iff, List.forall₂_map_right_iff]
    exact hys.imp fun _ _ he => he.1
  have hnodup : (ys.map Prod.fst).Nodup :=
    nodup_of_forall₂ (r := k.Corresponds R) (fun _ _ _ => KeyTy.Corresponds.leftUnique h) hkeys
      m.nodupKeys
  have hperm := foldl_insert_perm overwrites ys ∅ hnodup fun e _ => AList.notMem_empty e.1
  rw [AList.empty_entries, List.nil_append] at hperm
  refine ⟨_, hperm.symm, ?_⟩
  rw [List.forall₂_map_right_iff]
  exact hys

/-- Loading a value of any type mirrors storing it. -/
theorem mirrors_value (h : PointersMirror bound Sync R storePtr loadPtr) (t : Ty Class)
    (x : t.Val Ref) :
    Mirrors bound (PoolSync Sync) (PoolSync Sync) (storeValue storePtr t x)
      (loadValue (loadVariant bound) loadPtr t) fun s y => t.Corresponds (R s) x y := by
  induction t with
  | unit => exact Mirrors.pure fun _ => trivial
  | key k => exact mirrors_key h k x
  | environment => exact h.free.mirrors_environment x
  | variant =>
      exact (mirrors_variant h.free x.1 x.2 bound).imp fun _ _ hb => (Subtype.ext hb).symm
  | pair a b iha ihb =>
      exact mirrors_pair (writes_storeValue h.writes a x.1) (writes_storeValue h.writes b x.2)
        (h.mono_value a x.1) (iha x.1) (ihb x.2)
  | list a ih =>
      apply mirrors_putInt_bind _ (Writes.putAll (writes_storeValue h.writes a) x)
      rw [Int.toNat_natCast]
      exact (mirrors_items (writes_storeValue h.writes a) (h.mono_value a) ih x).mono
        (Nat.sub_le bound 1)
  | map overwrites k v ih =>
      have hwrites : ∀ e : Σ _ : k.Val Ref, v.Val Ref,
          Writes (storeKey storePtr k e.1 >>= fun _ => storeValue storePtr v e.2) :=
        fun e => (writes_storeKey h.writes k e.1).bind (writes_storeValue h.writes v e.2)
      apply mirrors_putInt_bind _ (Writes.putAll hwrites _)
      rw [Int.toNat_natCast]
      have hentry : ∀ e : Σ _ : k.Val Ref, v.Val Ref,
          Mirrors bound (PoolSync Sync) (PoolSync Sync)
            (storeKey storePtr k e.1 >>= fun _ => storeValue storePtr v e.2)
            (loadKey loadPtr k >>= fun key =>
              loadValue (loadVariant bound) loadPtr v >>= fun value => pure (key, value))
            fun s e' => k.Corresponds (R s) e.1 e'.1 ∧ v.Corresponds (R s) e.2 e'.2 :=
        fun e => mirrors_pair (writes_storeKey h.writes k e.1) (writes_storeValue h.writes v e.2)
          (h.mono_key k e.1) (mirrors_key h k e.1) (ih e.2)
      have hentries := Mirrors.loop
        (g := fun m (e : k.Val (Loaded Class) × v.Val (Loaded Class)) =>
          if overwrites then AList.insert e.1 e.2 m else AssocMap.insertNew m e.1 e.2) hwrites
        (fun e s s' e' hgrows he => ⟨h.mono_key k e.1 s s' e'.1 hgrows he.1,
          h.mono_value v e.2 s s' e'.2 hgrows he.2⟩)
        x.entries (fun e _ => hentry e) ∅
      refine (hentries.mono (Nat.sub_le bound 1)).of_post fun s l m' hs hm' => ?_
      rcases hm' with ⟨ys, hys, rfl⟩
      exact mapCorresponds_foldl (h.leftUnique s l hs.2.2.2) overwrites k v x hys
  | set k =>
      apply mirrors_putInt_bind _ (Writes.putAll (writes_storeKey h.writes k) x)
      rw [Int.toNat_natCast]
      have hitems := (mirrors_items (writes_storeKey h.writes k) (h.mono_key k)
        (mirrors_key h k) x).mono (Nat.sub_le bound 1)
      exact hitems.map _ fun s y hy => setCorresponds_sortAfterLoad k hy
  | sum a b iha ihb =>
      cases x with
      | inl x =>
          apply mirrors_putInt_bind _ (writes_storeValue h.writes a x)
          rw [if_pos rfl]
          exact ((iha x).mono (Nat.sub_le bound 1)).map _ fun _ _ hy => hy
      | inr x =>
          apply mirrors_putInt_bind _ (writes_storeValue h.writes b x)
          rw [if_neg (by decide)]
          exact ((ihb x).mono (Nat.sub_le bound 1)).map _ fun _ _ hy => hy

end Operations

end Serialization

end Qbs
