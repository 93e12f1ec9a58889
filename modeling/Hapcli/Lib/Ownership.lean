/-
  Subject:   Things that are owned, and owners that know what they own: two tables that index each
             other, under a quota.

  * **`Owned.enter`**, **`Owned.acquire`**, **`Owned.release`**, **`Owned.leave`** -- the changes
    that keep it: an owner comes, a thing is taken or given up, an owner goes with all it holds.
-/
import Mathlib.Data.Finset.Card
import Mathlib.Logic.Function.Basic

namespace Hapcli.Lib

open Function

variable {ω η : Type}

/-- What an owner holds is exactly what names it as its owner, the quota is kept, and nothing names
    an owner that is not there. -/
structure Owned (limit : Nat) (held : ω → Option (Finset η)) (ownerOf : η → Option ω) : Prop where
  exact_iff : ∀ {o s}, held o = some s → ∀ h, h ∈ s ↔ ownerOf h = some o
  known : ∀ {h o}, ownerOf h = some o → ∃ s, held o = some s
  bounded : ∀ {o s}, held o = some s → s.card ≤ limit

theorem update_eq_some_iff {α β : Type} [DecidableEq α] {f : α → Option β} {a b : α}
    {v : Option β} {c : β} :
    update f a v b = some c ↔ b = a ∧ v = some c ∨ b ≠ a ∧ f b = some c := by
  by_cases h : b = a
  · subst h
    simp
  · simp [h]

namespace Owned

variable {limit : Nat} {held : ω → Option (Finset η)} {ownerOf : η → Option ω} {o : ω} {h : η}
  {s : Finset η}

theorem empty : Owned limit (fun _ : ω => none) (fun _ : η => none) where
  exact_iff := nofun
  known := nofun
  bounded := nofun

theorem mem_of_owner (hown : Owned limit held ownerOf) (howner : ownerOf h = some o) :
    ∃ s, held o = some s ∧ h ∈ s := by
  obtain ⟨s, hs⟩ := hown.known howner
  exact ⟨s, hs, (hown.exact_iff hs h).mpr howner⟩

theorem quota [DecidableEq η] (hown : Owned limit held ownerOf) {things : List η}
    (hnodup : things.Nodup) (hthings : ∀ h ∈ things, ownerOf h = some o) :
    things.length ≤ limit := by
  cases things with
  | nil => exact Nat.zero_le _
  | cons h rest =>
    obtain ⟨s, hs, -⟩ := hown.mem_of_owner (hthings h List.mem_cons_self)
    have hsub : (h :: rest).toFinset ⊆ s := by
      intro x hx
      exact (hown.exact_iff hs x).mpr (hthings x (List.mem_toFinset.mp hx))
    have hcard := Finset.card_le_card hsub
    rw [List.toFinset_card_of_nodup hnodup] at hcard
    exact hcard.trans (hown.bounded hs)

variable [DecidableEq ω]

theorem enter (hown : Owned limit held ownerOf) (hnew : held o = none) :
    Owned limit (update held o (some ∅)) ownerOf := by
  have hnone : ∀ {h o'}, ownerOf h = some o' → o' ≠ o := by
    rintro h o' howner rfl
    obtain ⟨s, hs⟩ := hown.known howner
    exact nomatch hnew.symm.trans hs
  constructor
  · intro o' s' hlook h
    rcases (update_eq_some_iff).mp hlook with ⟨rfl, hs'⟩ | ⟨-, hs'⟩
    · cases hs'
      exact ⟨nofun, fun howner => absurd rfl (hnone howner)⟩
    · exact hown.exact_iff hs' h
  · intro h o' howner
    rw [update_of_ne (hnone howner)]
    exact hown.known howner
  · intro o' s' hlook
    rcases (update_eq_some_iff).mp hlook with ⟨-, hs'⟩ | ⟨-, hs'⟩
    · cases hs'
      exact Nat.zero_le _
    · exact hown.bounded hs'

theorem leave [DecidableEq η] (hown : Owned limit held ownerOf) (hs : held o = some s) :
    Owned limit (update held o none) (fun h => if h ∈ s then none else ownerOf h) := by
  have hother : ∀ {h o'}, (if h ∈ s then none else ownerOf h) = some o' →
      ownerOf h = some o' ∧ o' ≠ o := by
    intro h o' howner
    by_cases hmem : h ∈ s
    · rw [if_pos hmem] at howner
      cases howner
    · rw [if_neg hmem] at howner
      refine ⟨howner, ?_⟩
      rintro rfl
      exact hmem ((hown.exact_iff hs h).mpr howner)
  have hheld : ∀ {o' s'}, update held o none o' = some s' → o' ≠ o ∧ held o' = some s' := by
    intro o' s' hs'
    rcases (update_eq_some_iff).mp hs' with ⟨-, hs'⟩ | hs'
    · cases hs'
    · exact hs'
  constructor
  · intro o' s' hs' h
    obtain ⟨ho, hs'⟩ := hheld hs'
    refine ⟨fun hmem => ?_, fun howner => (hown.exact_iff hs' h).mpr (hother howner).1⟩
    have howner := (hown.exact_iff hs' h).mp hmem
    have hkept : h ∉ s := by
      intro hmem'
      exact ho (Option.some.inj (howner.symm.trans ((hown.exact_iff hs h).mp hmem')))
    rw [if_neg hkept, howner]
  · intro h o' howner
    obtain ⟨howner, ho⟩ := hother howner
    rw [update_of_ne ho]
    exact hown.known howner
  · intro o' s' hs'
    exact hown.bounded (hheld hs').2

variable [DecidableEq η]

theorem acquire (hown : Owned limit held ownerOf) (hs : held o = some s) (hroom : s.card < limit)
    (hnew : ownerOf h = none) :
    Owned limit (update held o (some (insert h s))) (update ownerOf h (some o)) := by
  constructor
  · intro o' s' hlook x
    rw [update_eq_some_iff]
    rcases (update_eq_some_iff).mp hlook with ⟨rfl, hs'⟩ | ⟨ho, hs'⟩
    · cases hs'
      rw [Finset.mem_insert, hown.exact_iff hs]
      by_cases hx : x = h <;> simp [hx]
    · rw [hown.exact_iff hs']
      by_cases hx : x = h
      · simp [hx, hnew, Ne.symm ho]
      · simp [hx]
  · intro x o' howner
    by_cases ho : o' = o
    · exact ⟨insert h s, by rw [ho, update_self]⟩
    · rw [update_of_ne ho]
      rcases (update_eq_some_iff).mp howner with ⟨-, howner⟩ | ⟨-, howner⟩
      · exact absurd (Option.some.inj howner).symm ho
      · exact hown.known howner
  · intro o' s' hlook
    rcases (update_eq_some_iff).mp hlook with ⟨-, hs'⟩ | ⟨-, hs'⟩
    · cases hs'
      exact (Finset.card_insert_le h s).trans hroom
    · exact hown.bounded hs'

theorem release (hown : Owned limit held ownerOf) (howner : ∀ o', ownerOf h = some o' → o' = o) :
    Owned limit (update held o ((held o).map (·.erase h))) (update ownerOf h none) := by
  constructor
  · intro o' s' hlook x
    rw [update_eq_some_iff]
    rcases (update_eq_some_iff).mp hlook with ⟨rfl, hs'⟩ | ⟨ho, hs'⟩
    · obtain ⟨s, hs, rfl⟩ := Option.map_eq_some_iff.mp hs'
      rw [Finset.mem_erase, hown.exact_iff hs]
      by_cases hx : x = h <;> simp [hx]
    · rw [hown.exact_iff hs']
      by_cases hx : x = h
      · subst hx
        have hother : ownerOf x ≠ some o' := fun h => ho (howner o' h)
        simp [hother]
      · simp [hx]
  · intro x o' hx
    rcases (update_eq_some_iff).mp hx with ⟨-, hx⟩ | ⟨-, hx⟩
    · cases hx
    · obtain ⟨s, hs⟩ := hown.known hx
      by_cases ho : o' = o
      · subst ho
        exact ⟨s.erase h, by rw [update_self, hs, Option.map_some]⟩
      · exact ⟨s, by rw [update_of_ne ho, hs]⟩
  · intro o' s' hlook
    rcases (update_eq_some_iff).mp hlook with ⟨rfl, hs'⟩ | ⟨-, hs'⟩
    · obtain ⟨s, hs, rfl⟩ := Option.map_eq_some_iff.mp hs'
      exact (Finset.card_le_card (Finset.erase_subset h s)).trans (hown.bounded hs)
    · exact hown.bounded hs'

end Owned

end Hapcli.Lib
