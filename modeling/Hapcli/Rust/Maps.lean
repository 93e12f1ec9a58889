/-
  Subject:   `HashMap` and `DashMap`: finite maps with one value a key.

  A map is an association list of Mathlib. The order of its entries stands for the order in which
  the map is iterated, about which Rust promises nothing: `reorder` brings the entries into any
  other order.

  * `lookup_insert_eq`, `lookup_erase_eq`, **`lookup_modify`**, **`lookup_mapValues`**,
    **`lookup_retain`**, `lookup_reorder`, **`lookup_insertAll_of_mem`** -- what each of them does
    to a lookup.
-/
import Mathlib.Algebra.GroupWithZero.Nat
import Mathlib.Data.Finset.Card
import Mathlib.Data.List.AList

namespace Hapcli.Rust

/-- `HashMap<K, V>`. -/
abbrev Map (κ ν : Type) := AList (fun _ : κ => ν)

/-- `HashSet<K>`: a map without values. -/
abbrev HashSet (κ : Type) := Map κ Unit

namespace Map

variable {κ ν : Type}

/-! ## 1. Operations -/

/-- `for value in map.values_mut()`: every value changed. -/
def mapValues (f : κ → ν → ν) (m : Map κ ν) : Map κ ν :=
  ⟨m.entries.map (Sigma.map id f), List.NodupKeys.map₂ f m.entries m.nodupKeys⟩

/-- `map.retain`. -/
def retain (p : κ → ν → Bool) (m : Map κ ν) : Map κ ν :=
  ⟨m.entries.filter fun e => p e.1 e.2, m.nodupKeys.sublist List.filter_sublist⟩

/-- The same entries, met in another order. -/
def reorder [DecidableEq κ] [DecidableEq ν] (m : Map κ ν) (order : List (Σ _ : κ, ν)) : Map κ ν :=
  if h : order.Perm m.entries then ⟨order, (List.perm_nodupKeys h).mpr m.nodupKeys⟩ else m

variable [DecidableEq κ]

/-- `if let Some(value) = map.get_mut(key)`. -/
def modify (m : Map κ ν) (k : κ) (f : ν → ν) : Map κ ν :=
  match m.lookup k with
  | none => m
  | some v => m.insert k (f v)

/-- The entries in a list, inserted one after the other. -/
def insertAll (m : Map κ ν) (l : List (κ × ν)) : Map κ ν :=
  l.foldl (fun m e => m.insert e.1 e.2) m

/-- The keys in a list, removed one after the other. -/
def eraseAll (m : Map κ ν) (l : List κ) : Map κ ν := l.foldl (fun m k => m.erase k) m

/-! ## 2. Lookups -/

theorem lookup_insert_eq (m : Map κ ν) (k k' : κ) (v : ν) :
    (m.insert k v).lookup k' = if k' = k then some v else m.lookup k' := by
  by_cases h : k' = k
  · subst h
    rw [if_pos rfl, AList.lookup_insert]
  · rw [if_neg h, AList.lookup_insert_ne h]

theorem lookup_erase_eq (m : Map κ ν) (k k' : κ) :
    (m.erase k).lookup k' = if k' = k then none else m.lookup k' := by
  by_cases h : k' = k
  · subst h
    rw [if_pos rfl, AList.lookup_erase]
  · rw [if_neg h, AList.lookup_erase_ne h]

variable {k : κ} {m : Map κ ν} {v : ν}

theorem lookup_insert_erase (h : m.lookup k = some v) (k' : κ) :
    ((m.erase k).insert k v).lookup k' = m.lookup k' := by
  rw [lookup_insert_eq, lookup_erase_eq]
  by_cases hk : k' = k
  · rw [if_pos hk, hk, h]
  · rw [if_neg hk, if_neg hk]

theorem lookup_eraseAll (m : Map κ ν) (l : List κ) (k : κ) :
    (m.eraseAll l).lookup k = if k ∈ l then none else m.lookup k := by
  induction l generalizing m with
  | nil => rfl
  | cons a l ih =>
    show (eraseAll (m.erase a) l).lookup k = _
    rw [ih, lookup_erase_eq]
    by_cases hk : k = a
    · simp [hk]
    · simp [hk]

theorem lookup_modify (m : Map κ ν) (k k' : κ) (f : ν → ν) :
    (m.modify k f).lookup k' = if k' = k then (m.lookup k).map f else m.lookup k' := by
  unfold modify
  cases hk : m.lookup k with
  | none =>
    by_cases h : k' = k
    · subst h
      simp [hk]
    · rw [if_neg h]
  | some v => rw [lookup_insert_eq, Option.map_some]

@[simp] theorem lookup_mapValues (f : κ → ν → ν) (m : Map κ ν) (k : κ) :
    (m.mapValues f).lookup k = (m.lookup k).map (f k) :=
  List.dlookup_map₂ k

theorem lookup_eq_some_iff : m.lookup k = some v ↔ (⟨k, v⟩ : Σ _ : κ, ν) ∈ m.entries :=
  AList.mem_lookup_iff

@[simp] theorem lookup_retain (p : κ → ν → Bool) (m : Map κ ν) (k : κ) :
    (m.retain p).lookup k = (m.lookup k).filter (p k) := by
  ext v
  have hmem : (⟨k, v⟩ : Σ _ : κ, ν) ∈ (m.retain p).entries ↔
      (⟨k, v⟩ : Σ _ : κ, ν) ∈ m.entries ∧ p k v = true := List.mem_filter
  rw [lookup_eq_some_iff, hmem, ← lookup_eq_some_iff, Option.filter_eq_some_iff]

theorem perm_reorder [DecidableEq ν] (m : Map κ ν) (order : List (Σ _ : κ, ν)) :
    (m.reorder order).entries.Perm m.entries := by
  unfold reorder
  split
  · assumption
  · exact .refl _

@[simp] theorem lookup_reorder [DecidableEq ν] (m : Map κ ν) (order : List (Σ _ : κ, ν)) (k : κ) :
    (m.reorder order).lookup k = m.lookup k :=
  AList.perm_lookup (m.perm_reorder order)

theorem erase_insert (h : k ∉ m.keys) (v : ν) : (m.insert k v).erase k = m := by
  refine AList.ext ?_
  show List.kerase k (m.insert k v).entries = m.entries
  rw [AList.entries_insert_of_notMem (fun hmem => h (AList.mem_keys.mp hmem))]
  exact List.kerase_cons_eq (s := (⟨k, v⟩ : Σ _ : κ, ν)) rfl

theorem mem_keys_iff : k ∈ m.keys ↔ ∃ v, m.lookup k = some v := by
  rw [← AList.mem_keys, ← AList.lookup_isSome, Option.isSome_iff_exists]

theorem mem_keys_insert {k' : κ} : k' ∈ (m.insert k v).keys ↔ k' = k ∨ k' ∈ m.keys :=
  AList.mem_insert m

theorem mem_keys_modify {k' : κ} {f : ν → ν} : k' ∈ (m.modify k f).keys ↔ k' ∈ m.keys := by
  rw [mem_keys_iff, mem_keys_iff, lookup_modify]
  by_cases h : k' = k
  · subst h
    simp
  · simp [h]

theorem length_keys_erase (h : k ∈ m.keys) : (m.erase k).keys.length + 1 = m.keys.length := by
  rw [AList.keys_erase, List.length_erase_of_mem h]
  have := List.length_pos_of_mem h
  omega

theorem notMem_keys_iff : k ∉ m.keys ↔ m.lookup k = none := by
  rw [← AList.mem_keys, AList.lookup_eq_none]

theorem map_lookup_insert {β : Type} (m : Map κ ν) (f : ν → β) (k : κ) (v : ν) :
    (fun k' => ((m.insert k v).lookup k').map f) =
      Function.update (fun k' => (m.lookup k').map f) k (some (f v)) := by
  funext k'
  rw [Function.update_apply, lookup_insert_eq]
  by_cases h : k' = k <;> simp [h]

theorem map_lookup_erase {β : Type} (m : Map κ ν) (f : ν → β) (k : κ) :
    (fun k' => ((m.erase k).lookup k').map f) =
      Function.update (fun k' => (m.lookup k').map f) k none := by
  funext k'
  rw [Function.update_apply, lookup_erase_eq]
  by_cases h : k' = k <;> simp [h]

theorem map_lookup_modify {β : Type} (m : Map κ ν) (f : ν → β) (k : κ) (g : ν → ν) :
    (fun k' => ((m.modify k g).lookup k').map f) =
      Function.update (fun k' => (m.lookup k').map f) k ((m.lookup k).map fun v => f (g v)) := by
  funext k'
  rw [Function.update_apply, lookup_modify]
  by_cases h : k' = k <;> simp [h, Function.comp_def]

/-! ## 3. The set of keys -/

/-- The keys of a map. -/
def keySet (m : Map κ ν) : Finset κ := m.keys.toFinset

theorem mem_keySet : k ∈ m.keySet ↔ k ∈ m.keys := List.mem_toFinset

theorem card_keySet (m : Map κ ν) : m.keySet.card = m.keys.length :=
  List.toFinset_card_of_nodup (AList.keys_nodup m)

@[simp] theorem keySet_insert (m : Map κ ν) (k : κ) (v : ν) :
    keySet (m.insert k v) = insert k m.keySet := by
  ext k'
  rw [mem_keySet, mem_keys_insert, Finset.mem_insert, mem_keySet]

@[simp] theorem keySet_erase (m : Map κ ν) (k : κ) : keySet (m.erase k) = m.keySet.erase k := by
  ext k'
  rw [mem_keySet, mem_keys_iff, Finset.mem_erase, mem_keySet, mem_keys_iff]
  by_cases h : k' = k <;> simp [lookup_erase_eq, h]

theorem map_lookup_eraseAll {β μ : Type} (m : Map κ ν) (f : ν → β) (s : Map κ μ) (k : κ) :
    ((m.eraseAll s.keys).lookup k).map f =
      if k ∈ s.keySet then none else (m.lookup k).map f := by
  rw [lookup_eraseAll]
  by_cases h : k ∈ s.keys
  · rw [if_pos h, if_pos ((mem_keySet).mpr h), Option.map_none]
  · rw [if_neg h, if_neg fun hmem => h ((mem_keySet).mp hmem)]

/-! ## 4. Sums over the values -/

/-- The sum of a measure over the values. -/
def total (f : ν → Nat) (m : Map κ ν) : Nat := (m.entries.map fun e => f e.2).sum

theorem total_insert (h : k ∉ m.keys) (f : ν → Nat) (v : ν) :
    total f (m.insert k v) = f v + total f m := by
  unfold total
  rw [AList.entries_insert_of_notMem (fun hmem => h (AList.mem_keys.mp hmem)), List.map_cons,
    List.sum_cons]

theorem total_erase (h : m.lookup k = some v) (f : ν → Nat) :
    total f (m.erase k) + f v = total f m := by
  obtain ⟨w, front, back, hfront, hentries, herased⟩ :=
    List.exists_of_kerase (l := m.entries) ((mem_keys_iff).mpr ⟨v, h⟩)
  -- the entry that is taken out is the one that is found
  have hw : w = v := by
    have hmem : (⟨k, w⟩ : Σ _ : κ, ν) ∈ m.entries := by rw [hentries]; simp
    exact Option.some.inj (((lookup_eq_some_iff).mpr hmem).symm.trans h)
  show ((List.kerase k m.entries).map fun e => f e.2).sum + f v = (m.entries.map fun e => f e.2).sum
  rw [herased, hentries, ← hw]
  simp only [List.map_append, List.map_cons, List.sum_append, List.sum_cons]
  omega

theorem erase_of_notMem (h : k ∉ m.keys) : m.erase k = m :=
  AList.ext (List.kerase_of_notMem_keys h)

/-! ## 5. Lists of entries -/

theorem insertAll_cons (m : Map κ ν) (e : κ × ν) (l : List (κ × ν)) :
    m.insertAll (e :: l) = insertAll (m.insert e.1 e.2) l := rfl

theorem insertAll_append (m : Map κ ν) (l l' : List (κ × ν)) :
    m.insertAll (l ++ l') = (m.insertAll l).insertAll l' :=
  List.foldl_append

variable {l : List (κ × ν)}

theorem lookup_insertAll_of_notMem (h : k ∉ l.map Prod.fst) (m : Map κ ν) :
    (m.insertAll l).lookup k = m.lookup k := by
  induction l generalizing m with
  | nil => rfl
  | cons e l ih =>
    rw [List.map_cons, List.mem_cons, not_or] at h
    rw [insertAll_cons, ih h.2, lookup_insert_eq, if_neg h.1]

theorem lookup_insertAll_of_mem (hnodup : (l.map Prod.fst).Nodup) (h : (k, v) ∈ l) (m : Map κ ν) :
    (m.insertAll l).lookup k = some v := by
  induction l generalizing m with
  | nil => cases h
  | cons e l ih =>
    rw [List.map_cons, List.nodup_cons] at hnodup
    rw [insertAll_cons]
    rcases List.mem_cons.mp h with rfl | h
    · rw [lookup_insertAll_of_notMem hnodup.1, AList.lookup_insert]
    · exact ih hnodup.2 h _

theorem mem_of_lookup_insertAll (h : (m.insertAll l).lookup k = some v) :
    (k, v) ∈ l ∨ m.lookup k = some v := by
  induction l generalizing m with
  | nil => exact .inr h
  | cons e l ih =>
    rcases ih h with hmem | hlookup
    · exact .inl (List.mem_cons_of_mem _ hmem)
    · rw [lookup_insert_eq] at hlookup
      split at hlookup
      · next hk =>
          cases hlookup
          subst hk
          exact .inl List.mem_cons_self
      · exact .inr hlookup

theorem mem_keys_insertAll : k ∈ (m.insertAll l).keys ↔ k ∈ l.map Prod.fst ∨ k ∈ m.keys := by
  induction l generalizing m with
  | nil => simp [insertAll]
  | cons e l ih =>
    rw [insertAll_cons, ih, mem_keys_insert, List.map_cons, List.mem_cons]
    grind

theorem lookup_insertAll_of_unique (h : (k, v) ∈ l) (hone : ∀ v', (k, v') ∈ l → v' = v)
    (m : Map κ ν) : (m.insertAll l).lookup k = some v := by
  induction l generalizing m with
  | nil => cases h
  | cons e l ih =>
    rw [insertAll_cons]
    by_cases hrest : k ∈ l.map Prod.fst
    · obtain ⟨⟨k', v'⟩, hmem, rfl⟩ := List.mem_map.mp hrest
      obtain rfl := hone v' (List.mem_cons_of_mem _ hmem)
      exact ih hmem (fun w hw => hone w (List.mem_cons_of_mem _ hw)) _
    · rw [lookup_insertAll_of_notMem hrest]
      obtain rfl | h := List.mem_cons.mp h
      · exact AList.lookup_insert _
      · exact absurd (List.mem_map_of_mem h) hrest

theorem lookup_insertAll_iff (hone : ∀ {k v v'}, (k, v) ∈ l → (k, v') ∈ l → v' = v) :
    (m.insertAll l).lookup k = some v ↔
      (k, v) ∈ l ∨ k ∉ l.map Prod.fst ∧ m.lookup k = some v := by
  by_cases hmem : k ∈ l.map Prod.fst
  · obtain ⟨⟨k, w⟩, hw, rfl⟩ := List.mem_map.mp hmem
    rw [lookup_insertAll_of_unique hw (fun _ h => hone hw h), Option.some_inj]
    constructor
    · intro heq
      exact .inl (heq ▸ hw)
    · intro hor
      obtain h | ⟨hno, -⟩ := hor
      · exact (hone hw h).symm
      · exact absurd hmem hno
  · rw [lookup_insertAll_of_notMem hmem]
    exact ⟨fun h => .inr ⟨hmem, h⟩,
      fun hor => hor.elim (fun hl => absurd (List.mem_map_of_mem hl) hmem) And.right⟩

end Map

end Hapcli.Rust
