/-
  Subject:   Things under keys, and an index from the keys back to the things.

  * **`Inverse.enter`**, **`Inverse.leave`**, **`Inverse.move`** -- the changes that keep it so;
  * **`inverse_moved_iff`** -- the order in which this works: no new key is a later thing's old key
    or new key.
-/
import Mathlib.Data.List.Nodup
import Mathlib.Data.List.Pairwise
import Mathlib.Logic.Function.Basic

namespace Hapcli.Lib.InverseIndex

open Function

variable {κ τ : Type}

/-- The index finds a thing under a key exactly where the thing has that key. -/
def Inverse (index : κ → Option τ) (keyOf : τ → Option κ) : Prop :=
  ∀ k t, index k = some t ↔ keyOf t = some k

/-- A thing that gets a new key. -/
structure Move (κ τ : Type) where
  thing : τ
  old : κ
  new : κ

variable {index : κ → Option τ} {keyOf : τ → Option κ} {t : τ} {k : κ}

theorem Inverse.inj (h : Inverse index keyOf) {t' : τ} (ht : keyOf t = some k)
    (ht' : keyOf t' = some k) : t = t' :=
  Option.some.inj (((h k t).mpr ht).symm.trans ((h k t').mpr ht'))

variable [DecidableEq κ] [DecidableEq τ]

/-! ## 1. One thing -/

theorem Inverse.enter (h : Inverse index keyOf) (hnew : keyOf t = none) (hfree : index k = none) :
    Inverse (update index k (some t)) (update keyOf t (some k)) := by
  intro k' t'
  by_cases hk : k' = k <;> by_cases ht : t' = t
  · subst hk ht
    simp
  · subst hk
    rw [update_self, update_of_ne ht, ← h k' t', hfree]
    simp [Ne.symm ht]
  · subst ht
    rw [update_of_ne hk, update_self, h k' t', hnew]
    simp [Ne.symm hk]
  · rw [update_of_ne hk, update_of_ne ht]
    exact h k' t'

theorem Inverse.leave (h : Inverse index keyOf) (hkey : keyOf t = some k) :
    Inverse (update index k none) (update keyOf t none) := by
  intro k' t'
  by_cases hk : k' = k <;> by_cases ht : t' = t
  · subst hk ht
    simp
  · subst hk
    rw [update_self, update_of_ne ht]
    simpa using fun hkey' => ht (h.inj hkey' hkey)
  · subst ht
    rw [update_of_ne hk, update_self, h k' t', hkey]
    simp [Ne.symm hk]
  · rw [update_of_ne hk, update_of_ne ht]
    exact h k' t'

/-- The index after a move: the old entry goes, then the new one is set. -/
def moveIn (index : κ → Option τ) (m : Move κ τ) : κ → Option τ :=
  update (update index m.old none) m.new (some m.thing)

/-- The keys after a move. -/
def rekey (keyOf : τ → Option κ) (m : Move κ τ) : τ → Option κ := update keyOf m.thing (some m.new)

variable {m : Move κ τ} {moves : List (Move κ τ)}

theorem Inverse.move (h : Inverse index keyOf) (hold : keyOf m.thing = some m.old)
    (hfree : ∀ t, t ≠ m.thing → keyOf t ≠ some m.new) :
    Inverse (moveIn index m) (rekey keyOf m) := by
  have hgone := h.leave hold
  have hempty : update index m.old none m.new = none := by
    by_cases hsame : m.new = m.old
    · rw [hsame, update_self]
    · rw [update_of_ne hsame, Option.eq_none_iff_forall_ne_some]
      intro t ht
      have hkey := (h _ _).mp ht
      by_cases hthing : t = m.thing
      · rw [hthing, hold] at hkey
        exact hsame (Option.some.inj hkey).symm
      · exact hfree t hthing hkey
  have henter := hgone.enter (update_self m.thing none keyOf) hempty
  rwa [update_idem] at henter

/-! ## 2. One after the other -/

/-- The index when all of them are moved. -/
def moved (index : κ → Option τ) (moves : List (Move κ τ)) : κ → Option τ :=
  moves.foldl moveIn index

/-- The keys when all of them are moved. -/
def rekeyed (keyOf : τ → Option κ) (moves : List (Move κ τ)) : τ → Option κ :=
  moves.foldl rekey keyOf

/-- The new key is none that a later move starts from or leads to. -/
def Clear (a b : Move κ τ) : Prop := a.new ≠ b.new ∧ a.new ≠ b.old

instance (a b : Move κ τ) : Decidable (Clear a b) := inferInstanceAs (Decidable (_ ∧ _))

omit [DecidableEq κ] in
theorem rekeyed_of_notMem (h : t ∉ moves.map (·.thing)) : rekeyed keyOf moves t = keyOf t := by
  induction moves generalizing keyOf with
  | nil => rfl
  | cons m rest ih =>
    rw [List.map_cons, List.mem_cons, not_or] at h
    exact (ih h.2).trans (update_of_ne h.1 _ _)

omit [DecidableEq κ] in
theorem rekeyed_of_mem (hm : m ∈ moves) (hnodup : (moves.map (·.thing)).Nodup) :
    rekeyed keyOf moves m.thing = some m.new := by
  induction moves generalizing keyOf with
  | nil => cases hm
  | cons a rest ih =>
    rw [List.map_cons, List.nodup_cons] at hnodup
    rcases List.mem_cons.mp hm with rfl | hm
    · exact (rekeyed_of_notMem hnodup.1).trans (update_self _ _ _)
    · exact ih hm hnodup.2

omit [DecidableEq τ] in
theorem moved_none (hfree : index k = none) (hother : ∀ m ∈ moves, m.new ≠ k) :
    moved index moves k = none := by
  induction moves generalizing index with
  | nil => exact hfree
  | cons m rest ih =>
    refine ih ?_ fun m' hm' => hother m' (List.mem_cons_of_mem _ hm')
    rw [moveIn, update_of_ne (hother m List.mem_cons_self).symm]
    by_cases hold : k = m.old
    · rw [hold, update_self]
    · rwa [update_of_ne hold]

/-- Moves that keep clear of the later ones keep the index the inverse of the keys. -/
theorem Inverse.moved (h : Inverse index keyOf) (hnodup : (moves.map (·.thing)).Nodup)
    (hold : ∀ m ∈ moves, keyOf m.thing = some m.old)
    (hfree : ∀ m ∈ moves, ∀ t ∉ moves.map (·.thing), keyOf t ≠ some m.new)
    (hclear : moves.Pairwise Clear) :
    Inverse (InverseIndex.moved index moves) (rekeyed keyOf moves) := by
  induction moves generalizing index keyOf with
  | nil => exact h
  | cons m rest ih =>
    rw [List.map_cons, List.nodup_cons] at hnodup
    obtain ⟨hlater, hclear⟩ := List.pairwise_cons.mp hclear
    have hne : ∀ m' ∈ rest, m'.thing ≠ m.thing := fun m' hm' heq =>
      hnodup.1 (heq ▸ List.mem_map_of_mem hm')
    have hmove : Inverse (moveIn index m) (rekey keyOf m) := by
      refine h.move (hold m List.mem_cons_self) fun t ht => ?_
      by_cases hmem : t ∈ rest.map (·.thing)
      · obtain ⟨m', hm', rfl⟩ := List.mem_map.mp hmem
        rw [hold m' (List.mem_cons_of_mem _ hm')]
        exact fun heq => (hlater m' hm').2 (Option.some.inj heq).symm
      · exact hfree m List.mem_cons_self t (by simp [ht, hmem])
    refine ih hmove hnodup.2 (fun m' hm' => ?_) (fun m' hm' t ht => ?_) hclear
    · rw [rekey, update_of_ne (hne m' hm')]
      exact hold m' (List.mem_cons_of_mem _ hm')
    · by_cases hthing : t = m.thing
      · rw [rekey, hthing, update_self]
        exact fun heq => (hlater m' hm').1 (Option.some.inj heq)
      · rw [rekey, update_of_ne hthing]
        exact hfree m' (List.mem_cons_of_mem _ hm') t (by simp [hthing, ht])

theorem clear_of_inverse (hnodup : (moves.map (·.thing)).Nodup)
    (h : Inverse (moved index moves) (rekeyed keyOf moves)) : moves.Pairwise Clear := by
  have hapart : ∀ {a b}, [a, b].Sublist moves → a.thing ≠ b.thing := fun {a b} hsub =>
    (List.pairwise_cons.mp (hnodup.sublist (hsub.map (·.thing)))).1 _ List.mem_cons_self
  have hkey : ∀ {m}, m ∈ moves → rekeyed keyOf moves m.thing = some m.new :=
    fun hm => rekeyed_of_mem hm hnodup
  have hnew : ∀ {a b}, a ∈ moves → b ∈ moves → a.thing ≠ b.thing → a.new ≠ b.new :=
    fun ha hb hne heq => hne (h.inj (hkey ha) (heq ▸ hkey hb))
  rw [List.pairwise_iff_forall_sublist]
  intro a b hsub
  have ha : a ∈ moves := hsub.subset List.mem_cons_self
  have hb : b ∈ moves := hsub.subset (List.mem_cons_of_mem _ List.mem_cons_self)
  refine ⟨hnew ha hb (hapart hsub), fun hold => ?_⟩
  -- the later move takes the entry of the earlier one away, and none brings it back
  obtain ⟨front, back, rfl, hfront, hback⟩ := List.cons_sublist_iff.mp hsub
  obtain ⟨between, rest, rfl⟩ := List.append_of_mem (List.singleton_sublist.mp hback)
  have hlost : moved index (front ++ (between ++ b :: rest)) a.new = none := by
    have hsplit : moved index (front ++ (between ++ b :: rest)) =
        moved (moveIn (moved index (front ++ between)) b) rest := by
      simp only [moved, List.foldl_append, List.foldl_cons]
    rw [hsplit]
    refine moved_none ?_ fun m hm heq => ?_
    · rw [moveIn, update_of_ne (hnew ha hb (hapart hsub)), hold, update_self]
    · have hmem : m ∈ front ++ (between ++ b :: rest) := by simp [hm]
      have hpair : [a, m].Sublist (front ++ (between ++ b :: rest)) :=
        List.cons_sublist_iff.mpr ⟨front, _, rfl, hfront, List.singleton_sublist.mpr (by simp [hm])⟩
      exact hnew ha hmem (hapart hpair) heq.symm
  have hfound := (h a.new a.thing).mpr (hkey ha)
  rw [hlost] at hfound
  cases hfound

theorem inverse_moved_iff (h : Inverse index keyOf) (hnodup : (moves.map (·.thing)).Nodup)
    (hold : ∀ m ∈ moves, keyOf m.thing = some m.old)
    (hfree : ∀ m ∈ moves, ∀ t ∉ moves.map (·.thing), keyOf t ≠ some m.new) :
    Inverse (moved index moves) (rekeyed keyOf moves) ↔ moves.Pairwise Clear :=
  ⟨clear_of_inverse hnodup, h.moved hnodup hold hfree⟩

end Hapcli.Lib.InverseIndex
