/-
  Subject:   A register of ids that only grows: each step keeps the ids, enters the id of what it
             was given if that is not in use, or enters a generated one.

  * **`prefix_foldl`**, **`mem_foldl`** -- no id leaves the register, and where the new ones are from;
  * **`nodup_foldl`** -- no id enters twice, as long as the generated ones are new.
-/
import Mathlib.Data.List.Nodup

namespace Hapcli.Lib.Register

variable {κ σ α : Type} (generate : Nat → κ)

/-- What a step given something with this id does to the ids in use and the number of ids generated
    so far. -/
inductive Step (own : κ) : List κ × Nat → List κ × Nat → Prop where
  | kept (ids : List κ) (k : Nat) : Step own (ids, k) (ids, k)
  | entered {ids : List κ} (h : own ∉ ids) (k : Nat) : Step own (ids, k) (ids ++ [own], k)
  | generated (ids : List κ) (k : Nat) : Step own (ids, k) (ids ++ [generate k], k + 1)

variable {generate} {next : σ → α → σ} {ids : σ → List κ} {count : σ → Nat} {own : α → κ}

theorem Step.begins {own : κ} {before after : List κ × Nat} (h : Step generate own before after) :
    before.1 <+: after.1 := by
  cases h with
  | kept => exact List.prefix_rfl
  | entered => exact List.prefix_append _ _
  | generated => exact List.prefix_append _ _

theorem Step.mem {own x : κ} {before after : List κ × Nat} (h : Step generate own before after)
    (hx : x ∈ after.1) : x ∈ before.1 ∨ x = own ∨ ∃ k, x = generate k := by
  cases h with
  | kept => exact .inl hx
  | entered hown k =>
    rcases List.mem_append.mp hx with hx | hx
    · exact .inl hx
    · exact .inr (.inl (List.mem_singleton.mp hx))
  | generated ids k =>
    rcases List.mem_append.mp hx with hx | hx
    · exact .inl hx
    · exact .inr (.inr ⟨k, List.mem_singleton.mp hx⟩)

/-- The ids are distinct, and none of those still to be generated is in use. -/
def Fresh (generate : Nat → κ) (register : List κ × Nat) : Prop :=
  register.1.Nodup ∧ ∀ k, register.2 ≤ k → generate k ∉ register.1

theorem Step.fresh (hinj : Function.Injective generate) {own : κ} {before after : List κ × Nat}
    (h : Step generate own before after) (hown : ∀ k, own ≠ generate k)
    (hfresh : Fresh generate before) : Fresh generate after := by
  obtain ⟨hnodup, hnew⟩ := hfresh
  cases h with
  | kept => exact ⟨hnodup, hnew⟩
  | entered hnot k =>
    refine ⟨List.concat_eq_append ▸ hnodup.concat hnot, fun j hj hmem => ?_⟩
    rcases List.mem_append.mp hmem with hmem | hmem
    · exact hnew j hj hmem
    · exact hown j (List.mem_singleton.mp hmem).symm
  | generated ids k =>
    refine ⟨List.concat_eq_append ▸ hnodup.concat (hnew k (Nat.le_refl k)), fun j hj hmem => ?_⟩
    rcases List.mem_append.mp hmem with hmem | hmem
    · exact hnew j (Nat.le_of_succ_le hj) hmem
    · exact absurd (hinj (List.mem_singleton.mp hmem)) (Nat.ne_of_gt hj)

section Run

variable (hstep : ∀ s a, Step generate (own a) (ids s, count s) (ids (next s a), count (next s a)))
include hstep

theorem prefix_foldl (s : σ) (l : List α) : ids s <+: ids (l.foldl next s) := by
  induction l generalizing s with
  | nil => exact List.prefix_rfl
  | cons a rest ih => exact (hstep s a).begins.trans (ih (next s a))

theorem mem_foldl {s : σ} {l : List α} {x : κ} (h : x ∈ ids (l.foldl next s)) :
    x ∈ ids s ∨ (∃ a ∈ l, x = own a) ∨ ∃ k, x = generate k := by
  induction l generalizing s with
  | nil => exact .inl h
  | cons a rest ih =>
    rcases ih h with h | ⟨b, hb, rfl⟩ | h
    · rcases (hstep s a).mem h with h | rfl | h
      · exact .inl h
      · exact .inr (.inl ⟨a, List.mem_cons_self, rfl⟩)
      · exact .inr (.inr h)
    · exact .inr (.inl ⟨b, List.mem_cons_of_mem _ hb, rfl⟩)
    · exact .inr (.inr h)

theorem nodup_foldl (hinj : Function.Injective generate) {s : σ} {l : List α}
    (hfresh : Fresh generate (ids s, count s)) (hgiven : ∀ a ∈ l, ∀ k, own a ≠ generate k) :
    (ids (l.foldl next s)).Nodup := by
  induction l generalizing s with
  | nil => exact hfresh.1
  | cons a rest ih =>
    have hnext := (hstep s a).fresh hinj (hgiven a List.mem_cons_self) hfresh
    exact ih hnext fun b hb => hgiven b (List.mem_cons_of_mem a hb)

end Run

end Hapcli.Lib.Register
