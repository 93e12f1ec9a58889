/-
  Subject:   Longest common subsequences of two lists, by their length.

  * `IsLongestCommon.cons_same`, `IsLongestCommon.cons_ne` -- the two lists from the front, and from
    the back (**`concat_same`**, **`concat_ne`**), as a table of such lengths is filled;
  * **`IsLongestCommon.append_left`**, **`append_right`** -- a common beginning, and a common end, is
    part of a longest one.
-/
import Mathlib.Data.List.Basic

namespace Hapcli.Lib

variable {α : Type} {n m : Nat} {l r : List α} {a b : α}

/-- `n` is the length of a longest common subsequence. -/
structure IsLongestCommon (n : Nat) (l r : List α) : Prop where
  attained : ∃ s : List α, s.Sublist l ∧ s.Sublist r ∧ s.length = n
  longest : ∀ s : List α, s.Sublist l → s.Sublist r → s.length ≤ n

namespace IsLongestCommon

theorem unique (h : IsLongestCommon n l r) (h' : IsLongestCommon m l r) : n = m := by
  obtain ⟨s, hl, hr, rfl⟩ := h.attained
  obtain ⟨t, hl', hr', rfl⟩ := h'.attained
  exact Nat.le_antisymm (h'.longest s hl hr) (h.longest t hl' hr')

/-! ## 1. From the front -/

theorem nil_left (r : List α) : IsLongestCommon 0 [] r where
  attained := ⟨[], .slnil, List.nil_sublist r, rfl⟩
  longest := fun _ hl _ => hl.length_le

theorem nil_right (l : List α) : IsLongestCommon 0 l [] where
  attained := ⟨[], List.nil_sublist l, .slnil, rfl⟩
  longest := fun _ _ hr => hr.length_le

theorem cons_same (h : IsLongestCommon n l r) (a : α) : IsLongestCommon (n + 1) (a :: l)
    (a :: r) where
  attained := by
    obtain ⟨s, hl, hr, rfl⟩ := h.attained
    exact ⟨a :: s, hl.cons_cons a, hr.cons_cons a, rfl⟩
  longest := by
    intro s hl hr
    have htail := h.longest s.tail hl.tail hr.tail
    rw [List.length_tail] at htail
    omega

theorem cons_ne (hab : a ≠ b) (h : IsLongestCommon n l (b :: r))
    (h' : IsLongestCommon m (a :: l) r) :
    IsLongestCommon (max n m) (a :: l) (b :: r) where
  attained := by
    rcases Nat.le_total m n with hle | hle
    · obtain ⟨s, hl, hr, rfl⟩ := h.attained
      exact ⟨s, hl.cons a, hr, (Nat.max_eq_left hle).symm⟩
    · obtain ⟨s, hl, hr, rfl⟩ := h'.attained
      exact ⟨s, hl, hr.cons b, (Nat.max_eq_right hle).symm⟩
  longest := by
    intro s hl hr
    -- a common subsequence does not begin in both lists at once
    cases hl with
    | cons _ hl => exact Nat.le_trans (h.longest s hl hr) (Nat.le_max_left n m)
    | cons_cons _ hl =>
      cases hr with
      | cons _ hr =>
        exact Nat.le_trans (h'.longest _ (hl.cons_cons a) hr) (Nat.le_max_right n m)
      | cons_cons _ hr => exact absurd rfl hab

theorem append_left (h : IsLongestCommon n l r) (front : List α) :
    IsLongestCommon (front.length + n) (front ++ l) (front ++ r) := by
  induction front with
  | nil =>
    rw [List.length_nil, Nat.zero_add]
    exact h
  | cons a front ih =>
    rw [List.length_cons, Nat.add_right_comm]
    exact ih.cons_same a

/-! ## 2. From the back -/

theorem reverse (h : IsLongestCommon n l r) : IsLongestCommon n l.reverse r.reverse where
  attained := by
    obtain ⟨s, hl, hr, rfl⟩ := h.attained
    exact ⟨s.reverse, hl.reverse, hr.reverse, List.length_reverse⟩
  longest := by
    intro s hl hr
    have hle := h.longest s.reverse (List.reverse_reverse l ▸ hl.reverse)
      (List.reverse_reverse r ▸ hr.reverse)
    rwa [List.length_reverse] at hle

theorem of_reverse (h : IsLongestCommon n l.reverse r.reverse) : IsLongestCommon n l r := by
  have hback := h.reverse
  rwa [List.reverse_reverse, List.reverse_reverse] at hback

theorem concat_same (h : IsLongestCommon n l r) (a : α) :
    IsLongestCommon (n + 1) (l ++ [a]) (r ++ [a]) := by
  apply of_reverse
  rw [List.reverse_concat, List.reverse_concat]
  exact h.reverse.cons_same a

theorem concat_ne (hab : a ≠ b) (h : IsLongestCommon n l (r ++ [b]))
    (h' : IsLongestCommon m (l ++ [a]) r) : IsLongestCommon (max n m) (l ++ [a]) (r ++ [b]) := by
  apply of_reverse
  have hback := h.reverse
  have hback' := h'.reverse
  rw [List.reverse_concat] at hback hback' ⊢
  rw [List.reverse_concat]
  exact cons_ne hab hback hback'

theorem append_right (h : IsLongestCommon n l r) (back : List α) :
    IsLongestCommon (n + back.length) (l ++ back) (r ++ back) := by
  apply of_reverse
  rw [List.reverse_append, List.reverse_append, Nat.add_comm, ← List.length_reverse]
  exact h.reverse.append_left back.reverse

end IsLongestCommon

end Hapcli.Lib
