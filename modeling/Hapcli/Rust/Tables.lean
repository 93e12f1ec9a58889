/-
  Subject:   Tables with text keys that are iterated in the order of the keys, as a key-value
             database keeps them.

  * **`mem_range_prefix_iff`** -- from `p` followed by one character up to `p` followed by the next
    lies what starts with the former.
-/
import Hapcli.Rust.Maps
import Hapcli.Rust.Text

namespace Hapcli.Rust

namespace Map

variable {ν : Type}

/-! ## 1. Rows in order -/

variable (table : Map Str ν)

/-- `table.iter()`. -/
def inKeyOrder : List (Str × ν) :=
  (table.entries.map fun e => (e.1, e.2)).mergeSort fun a b => !decide (b.1 < a.1)

/-- `table.range(start..end)`. -/
def range (start stop : Str) : List (Str × ν) :=
  table.inKeyOrder.filter fun row => decide (¬ row.1 < start ∧ row.1 < stop)

theorem perm_inKeyOrder : table.inKeyOrder.Perm (table.entries.map fun e => (e.1, e.2)) :=
  List.mergeSort_perm _ _

theorem mem_inKeyOrder_iff {table : Map Str ν} {k : Str} {v : ν} :
    (k, v) ∈ table.inKeyOrder ↔ table.lookup k = some v := by
  rw [table.perm_inKeyOrder.mem_iff, lookup_eq_some_iff, List.mem_map]
  constructor
  · intro ⟨e, he, heq⟩
    obtain ⟨rfl, rfl⟩ := Prod.mk.inj heq
    exact he
  · intro h
    exact ⟨⟨k, v⟩, h, rfl⟩

theorem nodup_keys_inKeyOrder : (table.inKeyOrder.map Prod.fst).Nodup := by
  rw [(table.perm_inKeyOrder.map _).nodup_iff, List.map_map]
  exact table.nodupKeys

theorem nodup_inKeyOrder : table.inKeyOrder.Nodup :=
  .of_map _ table.nodup_keys_inKeyOrder

/-! ## 2. Ranges -/

theorem between_iff_prefix {c d : Char} (hcd : d.val.toNat = c.val.toNat + 1) (p k : Str) :
    ¬ k < p ++ [c] ∧ k < p ++ [d] ↔ p ++ [c] <+: k := by
  have hlt : ∀ {x y : Char}, x < y ↔ x.val.toNat < y.val.toNat := Iff.rfl
  induction p generalizing k with
  | nil =>
    cases k with
    | nil => simp
    | cons b k =>
      rw [List.nil_append, List.nil_append, List.cons_lt_cons_iff, List.cons_lt_cons_iff,
        List.cons_prefix_cons]
      constructor
      · intro ⟨hnot, hless⟩
        have hcb : ¬ b < c := fun h => hnot (.inl h)
        obtain hbd | ⟨-, hnil⟩ := hless
        · rw [hlt] at hcb hbd
          exact ⟨Char.ext (UInt32.toNat_inj.mp (by omega)), List.nil_prefix⟩
        · exact absurd hnil (List.not_lt_nil k)
      · rintro ⟨rfl, -⟩
        refine ⟨?_, .inl ?_⟩
        · rintro (hcc | ⟨-, hnil⟩)
          · exact absurd hcc (Char.lt_irrefl _)
          · exact absurd hnil (List.not_lt_nil k)
        · rw [hlt]
          omega
  | cons a p ih =>
    cases k with
    | nil => simp
    | cons b k =>
      rw [List.cons_append, List.cons_append, List.cons_lt_cons_iff, List.cons_lt_cons_iff,
        List.cons_prefix_cons]
      constructor
      · intro ⟨hnot, hless⟩
        have hab : ¬ b < a := fun h => hnot (.inl h)
        obtain hba | ⟨rfl, hless⟩ := hless
        · exact absurd hba hab
        · exact ⟨rfl, (ih k).mp ⟨fun h => hnot (.inr ⟨rfl, h⟩), hless⟩⟩
      · rintro ⟨rfl, hstarts⟩
        obtain ⟨hnot, hless⟩ := (ih k).mpr hstarts
        refine ⟨?_, .inr ⟨rfl, hless⟩⟩
        rintro (haa | ⟨-, h⟩)
        · exact absurd haa (Char.lt_irrefl _)
        · exact hnot h

theorem mem_range_prefix_iff {table : Map Str ν} {c d : Char} (hcd : d.val.toNat = c.val.toNat + 1)
    {p k : Str} {v : ν} :
    (k, v) ∈ table.range (p ++ [c]) (p ++ [d]) ↔ table.lookup k = some v ∧ p ++ [c] <+: k := by
  rw [range, List.mem_filter, decide_eq_true_iff, mem_inKeyOrder_iff]
  exact and_congr_right fun _ => between_iff_prefix hcd p k

end Map

end Hapcli.Rust
