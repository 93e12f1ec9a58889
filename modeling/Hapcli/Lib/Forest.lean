/-
  Subject:   Forests stored as parent links, child lists and depths: the ancestor order, the walks
             up and down, and two changes that leave a forest a forest.

  A walk has fuel and is `none` when it runs out: then the recursion does not return.

  * **`Above.unique`** -- of one depth there is one ancestor;
  * **`Forest.postorder_eq`**, **`Forest.preorder_eq`** -- the walks down return with enough fuel and
    visit every descendant once;
  * **`Forest.pathUp_eq`** -- so does the walk up, with every ancestor;
  * **`stackWalk_none`**, **`Walking.returns`** -- a walk that keeps a stack, but not what it has met;
  * **`Forest.attach`**, **`Forest.restrict`**, **`Forest.prune`** -- a leaf put under a parent, a
    part closed under parents, a subtree taken out.
-/
import Mathlib.Data.List.Nodup
import Mathlib.Data.List.Perm.Subperm
import Mathlib.Logic.Function.Basic

namespace Hapcli.Lib

variable {α : Type}

/-! ## 1. Ancestors -/

/-- `a` is `b` or an ancestor of it. -/
inductive Above (parent : α → Option α) (a : α) : α → Prop where
  | refl : Above parent a a
  | step {b p : α} (hparent : parent b = some p) (habove : Above parent a p) : Above parent a b

/-- Depths grow by one from parent to child. -/
def Ranked (parent : α → Option α) (depth : α → Nat) : Prop :=
  ∀ b p, parent b = some p → depth b = depth p + 1

variable {parent : α → Option α} {depth : α → Nat} {a : α}

section Above

variable {b c : α}

theorem Above.trans (hab : Above parent a b) (hbc : Above parent b c) : Above parent a c := by
  induction hbc with
  | refl => exact hab
  | step hparent _ ih => exact .step hparent ih

theorem Above.depth_le (hrank : Ranked parent depth) (h : Above parent a b) :
    depth a ≤ depth b := by
  induction h with
  | refl => exact Nat.le_refl _
  | step hparent _ ih =>
    rw [hrank _ _ hparent]
    omega

theorem Above.unique (hrank : Ranked parent depth) (ha : Above parent a c) (hb : Above parent b c)
    (hdepth : depth a = depth b) : a = b := by
  induction ha with
  | refl =>
    cases hb with
    | refl => rfl
    | step hparent habove =>
      have := habove.depth_le hrank
      have := hrank _ _ hparent
      omega
  | step hparent habove ih =>
    cases hb with
    | refl =>
      have := habove.depth_le hrank
      have := hrank _ _ hparent
      omega
    | step hparent' habove' =>
      rw [hparent] at hparent'
      cases hparent'
      exact ih habove'

theorem Above.total (ha : Above parent a c) (hb : Above parent b c) :
    Above parent a b ∨ Above parent b a := by
  induction ha with
  | refl => exact .inr hb
  | step hparent habove ih =>
    cases hb with
    | refl => exact .inl (.step hparent habove)
    | step hparent' habove' =>
      rw [hparent] at hparent'
      cases hparent'
      exact ih habove'

theorem Above.eq_of_root (h : Above parent a b) (hroot : parent b = none) : b = a := by
  cases h with
  | refl => rfl
  | step hparent =>
    rw [hroot] at hparent
    cases hparent

/-- What is closed under parents holds, with an element, those above it. -/
theorem Above.closed {kept : α → Prop} (hup : ∀ b p, kept b → parent b = some p → kept p)
    (h : Above parent a b) (hb : kept b) : kept a := by
  induction h with
  | refl => exact hb
  | step hparent _ ih => exact ih (hup _ _ hb hparent)

theorem not_above_parent (hrank : Ranked parent depth) (hparent : parent b = some a) :
    ¬Above parent b a := by
  intro h
  have := h.depth_le hrank
  have := hrank _ _ hparent
  omega

theorem above_iff_child :
    Above parent a b ↔ b = a ∨ ∃ child, parent child = some a ∧ Above parent child b := by
  constructor
  · intro h
    induction h with
    | refl => exact .inl rfl
    | @step b p hparent _ ih =>
      rcases ih with rfl | ⟨child, hchild, habove⟩
      · exact .inr ⟨b, hparent, .refl⟩
      · exact .inr ⟨child, hchild, .step hparent habove⟩
  · rintro (rfl | ⟨child, hchild, habove⟩)
    · exact .refl
    · exact Above.trans (.step hchild .refl) habove

end Above

/-! ## 2. Walks -/

/-- The elements below one, children first. -/
def postorder (children : α → List α) : Nat → α → Option (List α)
  | 0, _ => none
  | fuel + 1, a => do
      let parts ← (children a).mapM (postorder children fuel)
      return parts.flatten ++ [a]

/-- What `visit` gives of the elements below one, children last; an element it gives nothing of is
    left out. -/
def preorder {β : Type} (visit : α → Option (β × List α)) : Nat → α → Option (List β)
  | 0, _ => none
  | fuel + 1, a =>
    match visit a with
    | none => some []
    | some (out, below) => do
        let parts ← below.mapM (preorder visit fuel)
        return out :: parts.flatten

/-- The elements above one, from it on; `look` finds the parent or fails. -/
def pathUp {ε : Type} (look : α → Except ε (Option α)) : Nat → α → Option (Except ε (List α))
  | 0, _ => none
  | fuel + 1, a =>
    match look a with
    | .error error => some (.error error)
    | .ok none => some (.ok [a])
    | .ok (some p) => (pathUp look fuel p).map (·.map (a :: ·))

theorem mapM_eq_some {β : Type} {f : α → Option β} {g : α → β} {l : List α}
    (h : ∀ a ∈ l, f a = some (g a)) : l.mapM f = some (l.map g) := by
  induction l with
  | nil => rfl
  | cons a l ih =>
    rw [List.forall_mem_cons] at h
    rw [List.mapM_cons, h.1, ih h.2]
    rfl

/-! ## 3. Forests -/

/-- Parent links, child lists and depths of one forest, whose parents are all in `members`. -/
structure Forest (members : List α) (parent : α → Option α) (children : α → List α)
    (depth : α → Nat) : Prop where
  ranked : Ranked parent depth
  root : ∀ a, parent a = none → depth a = 0
  mem : ∀ a p, parent a = some p → p ∈ members
  child : ∀ a c, c ∈ children a ↔ parent c = some a
  nodup : ∀ a, (children a).Nodup

variable {children : α → List α}

namespace Forest

variable {members : List α}

variable {fuel : Nat} {members' : List α}

section

variable (h : Forest members parent children depth)

include h

theorem mono (hsub : ∀ m ∈ members, m ∈ members') : Forest members' parent children depth :=
  { h with mem := fun a p hp => hsub p (h.mem a p hp) }

/-- The proper ancestors, one for each smaller depth. -/
theorem exists_ancestors {n : Nat} (hn : depth a = n) :
    ∃ above : List α, above.Nodup ∧ above.length = n ∧ ∀ b ∈ above, b ∈ members ∧ depth b < n := by
  induction n generalizing a with
  | zero => exact ⟨[], .nil, rfl, by simp⟩
  | succ n ih =>
    cases hparent : parent a with
    | none =>
      rw [h.root a hparent] at hn
      cases hn
    | some p =>
      have hp : depth p = n := by
        have := h.ranked a p hparent
        omega
      obtain ⟨above, hnodup, hlen, hall⟩ := ih hp
      refine ⟨p :: above, List.nodup_cons.mpr ⟨fun hmem => ?_, hnodup⟩, by simp [hlen], ?_⟩
      · have := (hall p hmem).2
        omega
      · refine List.forall_mem_cons.mpr ⟨⟨h.mem a p hparent, by omega⟩, fun b hb => ?_⟩
        exact ⟨(hall b hb).1, Nat.lt_succ_of_lt (hall b hb).2⟩

theorem depth_le (a : α) : depth a ≤ members.length := by
  obtain ⟨above, hnodup, hlen, hall⟩ := h.exists_ancestors rfl
  rw [← hlen]
  exact (hnodup.subperm fun b hb => (hall b hb).1).length_le

theorem exists_root (a : α) : ∃ r, parent r = none ∧ Above parent r a := by
  induction hn : depth a generalizing a with
  | zero =>
    cases hparent : parent a with
    | none => exact ⟨a, hparent, .refl⟩
    | some p =>
      have := h.ranked a p hparent
      omega
  | succ n ih =>
    cases hparent : parent a with
    | none => exact ⟨a, hparent, .refl⟩
    | some p =>
      have := h.ranked a p hparent
      obtain ⟨r, hroot, habove⟩ := ih p (by omega)
      exact ⟨r, hroot, .step hparent habove⟩

theorem flatten_walks {starts : List α} (hnodup : starts.Nodup)
    (hdepth : ∀ c ∈ starts, ∀ c' ∈ starts, depth c = depth c') {walk : α → List α}
    (hwalk : ∀ c ∈ starts, (walk c).Nodup ∧ ∀ m, m ∈ walk c ↔ Above parent c m) :
    (starts.map walk).flatten.Nodup ∧
      ∀ m, m ∈ (starts.map walk).flatten ↔ ∃ c ∈ starts, Above parent c m := by
  refine ⟨?_, fun m => ?_⟩
  · rw [List.nodup_flatten]
    refine ⟨fun l hl => ?_, ?_⟩
    · obtain ⟨c, hc, rfl⟩ := List.mem_map.mp hl
      exact (hwalk c hc).1
    · rw [List.pairwise_map]
      refine hnodup.imp_of_mem fun hc hc' hne m hm hm' => hne ?_
      exact (((hwalk _ hc).2 m).mp hm).unique h.ranked (((hwalk _ hc').2 m).mp hm')
        (hdepth _ hc _ hc')
  · simp only [List.mem_flatten, List.mem_map, exists_exists_and_eq_and]
    constructor
    · rintro ⟨c, hc, hm⟩
      exact ⟨c, hc, ((hwalk c hc).2 m).mp hm⟩
    · rintro ⟨c, hc, hm⟩
      exact ⟨c, hc, ((hwalk c hc).2 m).mpr hm⟩

theorem flatten_children (a : α) {walk : α → List α}
    (hwalk : ∀ c ∈ children a, (walk c).Nodup ∧ ∀ m, m ∈ walk c ↔ Above parent c m) :
    ((children a).map walk).flatten.Nodup ∧
      (∀ m, m ∈ ((children a).map walk).flatten ↔ ∃ c, parent c = some a ∧ Above parent c m) ∧
      a ∉ ((children a).map walk).flatten := by
  have hdepth : ∀ c ∈ children a, depth c = depth a + 1 := fun c hc =>
    h.ranked c a ((h.child a c).mp hc)
  obtain ⟨hnodup, hmem⟩ := h.flatten_walks (h.nodup a)
    (fun c hc c' hc' => (hdepth c hc).trans (hdepth c' hc').symm) hwalk
  have hmem' : ∀ m, m ∈ ((children a).map walk).flatten ↔
      ∃ c, parent c = some a ∧ Above parent c m := by
    intro m
    simp only [hmem, h.child]
  refine ⟨hnodup, hmem', fun hself => ?_⟩
  obtain ⟨c, hc, habove⟩ := (hmem' a).mp hself
  exact not_above_parent h.ranked hc habove

end

/-! ## 4. The walks of a forest -/

section

variable (h : Forest members parent children depth)

include h

/-- The walk that ends with its start returns, and visits what is below it once. -/
theorem postorder_eq (hfuel : members.length < fuel + depth a) :
    ∃ out, postorder children fuel a = some out ∧ out.Nodup ∧ ∀ m, m ∈ out ↔ Above parent a m := by
  induction fuel generalizing a with
  | zero =>
    have := h.depth_le a
    omega
  | succ fuel ih =>
    have hchild : ∀ c ∈ children a, ∃ out, postorder children fuel c = some out ∧ out.Nodup ∧
        ∀ m, m ∈ out ↔ Above parent c m := by
      intro c hc
      refine ih ?_
      rw [h.ranked c a ((h.child a c).mp hc)]
      omega
    choose! walk hwalk using hchild
    obtain ⟨hnodup, hmem, hself⟩ := h.flatten_children a fun c hc => (hwalk c hc).2
    refine ⟨((children a).map walk).flatten ++ [a], ?_, ?_, fun m => ?_⟩
    · simp [postorder, mapM_eq_some fun c hc => (hwalk c hc).1]
    · exact hnodup.append (List.nodup_singleton a) (List.disjoint_singleton.mpr hself)
    · rw [List.mem_append, List.mem_singleton, hmem m, above_iff_child, or_comm]

/-- The walk that begins with its start returns, and visits what is below it once. -/
theorem preorder_eq {β : Type} {visit : α → Option (β × List α)} {out : α → β}
    (hvisit : ∀ a ∈ members, visit a = some (out a, children a))
    (hmembers : ∀ a p, parent a = some p → a ∈ members) (ha : a ∈ members)
    (hfuel : members.length < fuel + depth a) :
    ∃ below : List α, preorder visit fuel a = some (below.map out) ∧ below.Nodup ∧
      ∀ m, m ∈ below ↔ Above parent a m := by
  induction fuel generalizing a with
  | zero =>
    have := h.depth_le a
    omega
  | succ fuel ih =>
    have hchild : ∀ c ∈ children a, ∃ below : List α,
        preorder visit fuel c = some (below.map out) ∧ below.Nodup ∧
          ∀ m, m ∈ below ↔ Above parent c m := by
      intro c hc
      have hparent := (h.child a c).mp hc
      refine ih (hmembers c a hparent) ?_
      rw [h.ranked c a hparent]
      omega
    choose! walk hwalk using hchild
    obtain ⟨hnodup, hmem, hself⟩ := h.flatten_children a fun c hc => (hwalk c hc).2
    refine ⟨a :: ((children a).map walk).flatten, ?_, List.nodup_cons.mpr ⟨hself, hnodup⟩,
      fun m => ?_⟩
    · simp [preorder, hvisit a ha, mapM_eq_some fun c hc => (hwalk c hc).1, List.map_flatten]
      rfl
    · rw [List.mem_cons, hmem m, above_iff_child]

theorem preorder_roots {β : Type} {visit : α → Option (β × List α)} {out : α → β}
    (hvisit : ∀ a ∈ members, visit a = some (out a, children a))
    (hmembers : ∀ a p, parent a = some p → a ∈ members) {roots : List α} (hnodup : roots.Nodup)
    (hroots : ∀ a, a ∈ roots ↔ a ∈ members ∧ parent a = none) (hfuel : members.length < fuel) :
    ∃ parts : List (List β), ∃ all : List α, roots.mapM (preorder visit fuel) = some parts ∧
      parts.flatten = all.map out ∧ all.Nodup ∧ ∀ a, a ∈ all ↔ a ∈ members := by
  have hroot : ∀ r ∈ roots, ∃ below : List α, preorder visit fuel r = some (below.map out) ∧
      below.Nodup ∧ ∀ m, m ∈ below ↔ Above parent r m := fun r hr =>
    h.preorder_eq hvisit hmembers ((hroots r).mp hr).1 (by omega)
  choose! walk hwalk using hroot
  have hdepth : ∀ r ∈ roots, depth r = 0 := fun r hr => h.root r ((hroots r).mp hr).2
  obtain ⟨hall, hmem⟩ := h.flatten_walks hnodup
    (fun r hr r' hr' => (hdepth r hr).trans (hdepth r' hr').symm) fun r hr => (hwalk r hr).2
  refine ⟨_, (roots.map walk).flatten, mapM_eq_some fun r hr => (hwalk r hr).1, ?_, hall,
    fun a => ?_⟩
  · rw [List.map_flatten, List.map_map]
    rfl
  · rw [hmem]
    constructor
    · rintro ⟨r, hr, habove⟩
      cases habove with
      | refl => exact ((hroots _).mp hr).1
      | step hparent => exact hmembers _ _ hparent
    · intro ha
      obtain ⟨r, hnone, habove⟩ := h.exists_root a
      refine ⟨r, (hroots r).mpr ⟨?_, hnone⟩, habove⟩
      -- the root is the element itself, or a parent
      clear hroots hdepth hwalk hall hmem
      induction habove with
      | refl => exact ha
      | step hparent _ ih => exact ih (h.mem _ _ hparent)

/-- The walk up returns, and visits what is above its start once, each after its child. -/
theorem pathUp_eq {ε : Type} {look : α → Except ε (Option α)}
    (hlook : ∀ a ∈ members, look a = .ok (parent a)) (ha : a ∈ members) (hfuel : depth a < fuel) :
    ∃ path, pathUp look fuel a = some (.ok path) ∧ path.Nodup ∧
      (∀ m, m ∈ path ↔ Above parent m a) ∧ path.head? = some a ∧
      path.IsChain fun b p => parent b = some p := by
  induction fuel generalizing a with
  | zero => omega
  | succ fuel ih =>
    cases hparent : parent a with
    | none =>
      refine ⟨[a], by simp [pathUp, hlook a ha, hparent], List.nodup_singleton a, fun m => ?_,
        rfl, .singleton a⟩
      rw [List.mem_singleton]
      constructor
      · rintro rfl
        exact .refl
      · intro habove
        exact (habove.eq_of_root hparent).symm
    | some p =>
      have hdepth := h.ranked a p hparent
      obtain ⟨path, hpath, hnodup, hmem, hhead, hchain⟩ :=
        ih (h.mem a p hparent) (by omega)
      refine ⟨a :: path, by simp [pathUp, hlook a ha, hparent, hpath, Except.map],
        List.nodup_cons.mpr ⟨fun hself => ?_, hnodup⟩, fun m => ?_, rfl, ?_⟩
      · exact not_above_parent h.ranked hparent ((hmem a).mp hself)
      · rw [List.mem_cons, hmem m]
        constructor
        · rintro (rfl | habove)
          · exact .refl
          · exact .step hparent habove
        · intro habove
          cases habove with
          | refl => exact .inl rfl
          | step hstep habove =>
            rw [hparent] at hstep
            cases hstep
            exact .inr habove
      · cases path with
        | nil => cases hhead
        | cons b path =>
          cases hhead
          exact hchain.cons_cons hparent

end

/-! ## 5. Changes -/

section

variable (h : Forest members parent children depth)

include h

theorem attach [DecidableEq α] {p : α} (hsub : ∀ m ∈ members, m ∈ members') (hp : p ∈ members)
    (hne : a ≠ p) (hroot : parent a = none) (hleaf : children a = []) :
    Forest members' (Function.update parent a (some p))
      (Function.update children p (children p ++ [a])) (Function.update depth a (depth p + 1)) := by
  have hchildless : ∀ b, parent b ≠ some a := by
    intro b hb
    have := (h.child a b).mpr hb
    rw [hleaf] at this
    cases this
  constructor
  · intro b q hb
    by_cases hba : b = a
    · subst hba
      rw [Function.update_self] at hb
      cases hb
      rw [Function.update_self, Function.update_of_ne hne.symm]
    · rw [Function.update_of_ne hba] at hb
      have hqa : q ≠ a := by
        rintro rfl
        exact hchildless b hb
      rw [Function.update_of_ne hba, Function.update_of_ne hqa, h.ranked b q hb]
  · intro b hb
    by_cases hba : b = a
    · subst hba
      rw [Function.update_self] at hb
      cases hb
    · rw [Function.update_of_ne hba] at hb ⊢
      exact h.root b hb
  · intro b q hb
    by_cases hba : b = a
    · subst hba
      rw [Function.update_self] at hb
      cases hb
      exact hsub _ hp
    · rw [Function.update_of_ne hba] at hb
      exact hsub _ (h.mem b q hb)
  · intro q c
    by_cases hqp : q = p
    · subst hqp
      rw [Function.update_self, List.mem_append, List.mem_singleton, h.child]
      by_cases hca : c = a
      · simp [hca]
      · simp [hca]
    · rw [Function.update_of_ne hqp, h.child]
      by_cases hca : c = a
      · subst hca
        rw [Function.update_self, hroot]
        simp [Ne.symm hqp]
      · rw [Function.update_of_ne hca]
  · intro q
    by_cases hqp : q = p
    · subst hqp
      rw [Function.update_self]
      refine (h.nodup q).append (List.nodup_singleton a) (List.disjoint_singleton.mpr fun hmem => ?_)
      rw [h.child, hroot] at hmem
      cases hmem
    · rw [Function.update_of_ne hqp]
      exact h.nodup q

theorem restrict {kept : α → Prop} [DecidablePred kept]
    (hup : ∀ a p, kept a → parent a = some p → kept p)
    (hsub : ∀ m ∈ members, kept m → m ∈ members') :
    Forest members' (fun b => if kept b then parent b else none)
      (fun b => if kept b then (children b).filter (kept ·) else [])
      (fun b => if kept b then depth b else 0) := by
  have hparent : ∀ {b p}, (if kept b then parent b else none) = some p ↔
      kept b ∧ parent b = some p := by
    intro b p
    by_cases hb : kept b <;> simp [hb]
  constructor
  · intro b p hbp
    obtain ⟨hb, hbp⟩ := hparent.mp hbp
    beta_reduce
    rw [if_pos hb, if_pos (hup b p hb hbp), h.ranked b p hbp]
  · intro b hroot
    by_cases hb : kept b
    · rw [if_pos hb] at hroot ⊢
      exact h.root b hroot
    · rw [if_neg hb]
  · intro b p hbp
    obtain ⟨hb, hbp⟩ := hparent.mp hbp
    exact hsub p (h.mem b p hbp) (hup b p hb hbp)
  · intro q c
    rw [hparent]
    by_cases hq : kept q
    · rw [if_pos hq, List.mem_filter, h.child, decide_eq_true_eq, and_comm]
    · rw [if_neg hq]
      exact ⟨fun hc => (nomatch hc), fun ⟨hc, hcq⟩ => absurd (hup c q hc hcq) hq⟩
  · intro q
    by_cases hq : kept q
    · rw [if_pos hq]
      exact (h.nodup q).filter _
    · rw [if_neg hq]
      exact List.nodup_nil

theorem prune [DecidableEq α] {gone : List α}
    (hgone : ∀ m, m ∈ gone ↔ Above parent a m) (hsub : ∀ m ∈ members, m ∉ gone → m ∈ members') :
    Forest members' (fun b => if b ∈ gone then none else parent b)
      (fun b => if b ∈ gone then [] else (children b).filter (· ≠ a))
      (fun b => if b ∈ gone then 0 else depth b) := by
  -- what hangs below a removed element is removed too
  have hup : ∀ b p, b ∉ gone → parent b = some p → p ∉ gone := fun b p hb hp hpg =>
    hb ((hgone b).mpr (.step hp ((hgone p).mp hpg)))
  have hpruned := h.restrict hup hsub
  simp only [ite_not] at hpruned
  convert hpruned using 2 with b
  by_cases hb : b ∈ gone
  · rw [if_pos hb, if_pos hb]
  rw [if_neg hb, if_neg hb]
  refine List.filter_congr fun c hc => decide_eq_decide.mpr ⟨fun hca hcg => ?_, fun hcg hca => ?_⟩
  · cases (hgone c).mp hcg with
    | refl => exact hca rfl
    | step hstep habove =>
      rw [(h.child b c).mp hc] at hstep
      cases hstep
      exact hb ((hgone b).mpr habove)
  · exact hcg (hca ▸ (hgone a).mpr .refl)

end

end Forest

/-! ## 6. A walk with a stack -/

/-- The elements below those on the stack, which does not keep what it has met; `none` when it takes
    more rounds than the fuel. -/
def stackWalk (children : α → List α) : Nat → List α → List α → Option (List α)
  | _, [], met => some met
  | 0, _ :: _, _ => none
  | fuel + 1, a :: stack, met =>
    stackWalk children fuel ((children a).reverse ++ stack) (met ++ children a)

section StackWalk

variable {start : α} (hchild : ∀ a c, c ∈ children a ↔ parent c = some a)

include hchild

/-- From an element that is below itself the walk does not return. -/
theorem stackWalk_none {p : α} (hp : parent start = some p) (hcycle : Above parent start p)
    {fuel : Nat} {stack met : List α} (hstack : ∃ a ∈ stack, Above parent a start) :
    stackWalk children fuel stack met = none := by
  induction fuel generalizing stack met with
  | zero =>
    obtain ⟨a, ha, -⟩ := hstack
    cases stack with
    | nil => cases ha
    | cons b stack => rfl
  | succ fuel ih =>
    obtain ⟨a, ha, habove⟩ := hstack
    cases stack with
    | nil => cases ha
    | cons b stack =>
      refine ih ?_
      rcases List.mem_cons.mp ha with rfl | ha
      · -- the next element of the cycle is pushed
        have hnext : ∃ child, parent child = some a ∧ Above parent child start := by
          rcases above_iff_child.mp habove with rfl | hchild
          · rcases above_iff_child.mp hcycle with rfl | ⟨child, hup, hbelow⟩
            · exact ⟨p, hp, .refl⟩
            · exact ⟨child, hup, .step hp hbelow⟩
          · exact hchild
        obtain ⟨child, hup, hbelow⟩ := hnext
        exact ⟨child, List.mem_append_left _ (List.mem_reverse.mpr ((hchild a child).mpr hup)),
          hbelow⟩
      · exact ⟨a, List.mem_append_right _ ha, habove⟩

/-- What the walk has expanded, what it has still to expand, and what it has met. -/
structure Walking (parent : α → Option α) (start : α) (seen stack met : List α) : Prop where
  nodup : (seen ++ stack).Nodup
  perm : (start :: met).Perm (seen ++ stack)
  below : ∀ a ∈ seen ++ stack, Above parent start a
  closed : ∀ a ∈ seen, ∀ c, parent c = some a → c ∈ seen ++ stack
  parents : ∀ c ∈ met, ∃ a ∈ seen, parent c = some a

theorem Walking.step {seen stack met : List α} (h : Walking parent start seen (a :: stack) met)
    (hnodup : (children a).Nodup) (hacyclic : ∀ p, parent start = some p → ¬Above parent start p) :
    Walking parent start (seen ++ [a]) ((children a).reverse ++ stack) (met ++ children a) := by
  have ha : a ∉ seen ++ stack := (List.nodup_middle.mp h.nodup).notMem
  have hperm : ((seen ++ [a]) ++ ((children a).reverse ++ stack)).Perm
      (seen ++ a :: stack ++ children a) := by
    have hpushed : ((children a).reverse ++ stack).Perm (stack ++ children a) :=
      ((List.reverse_perm _).append_right stack).trans List.perm_append_comm
    simpa using (hpushed.cons a).append_left seen
  -- a child that was met before has another parent
  have hnew : ∀ c ∈ children a, c ∉ seen ++ a :: stack := by
    intro c hc hmem
    have hup := (hchild a c).mp hc
    rcases List.mem_cons.mp (h.perm.mem_iff.mpr hmem) with rfl | hmet
    · exact hacyclic a hup (h.below a (by simp))
    · obtain ⟨b, hb, hup'⟩ := h.parents c hmet
      rw [hup] at hup'
      cases hup'
      exact ha (List.mem_append_left _ hb)
  refine ⟨?_, ?_, fun c hc => ?_, fun b hb c hup => ?_, fun c hc => ?_⟩
  · rw [hperm.nodup_iff]
    exact h.nodup.append hnodup fun c hmem hc => hnew c hc hmem
  · exact (h.perm.append_right _).trans hperm.symm
  · rcases List.mem_append.mp (hperm.mem_iff.mp hc) with hmem | hc
    · exact h.below c hmem
    · exact .step ((hchild a c).mp hc) (h.below a (by simp))
  · rw [hperm.mem_iff, List.mem_append]
    rcases List.mem_append.mp hb with hb | hb
    · exact .inl (h.closed b hb c hup)
    · rw [List.mem_singleton] at hb
      exact .inr ((hchild a c).mpr (hb ▸ hup))
  · rcases List.mem_append.mp hc with hmet | hc
    · obtain ⟨b, hb, hup⟩ := h.parents c hmet
      exact ⟨b, List.mem_append_left _ hb, hup⟩
    · exact ⟨a, by simp, (hchild a c).mp hc⟩

omit hchild in
theorem Walking.done {seen met : List α} (h : Walking parent start seen [] met) :
    (start :: met).Nodup ∧ ∀ m, m ∈ start :: met ↔ Above parent start m := by
  have hperm := h.perm
  have hnodup := h.nodup
  have hclosed := h.closed
  rw [List.append_nil] at hperm hnodup
  refine ⟨hperm.nodup_iff.mpr hnodup, fun m => ?_⟩
  rw [hperm.mem_iff]
  refine ⟨fun hm => h.below m (List.mem_append_left _ hm), fun habove => ?_⟩
  induction habove with
  | refl => exact hperm.mem_iff.mp List.mem_cons_self
  | step hup _ ih => simpa using hclosed _ ih _ hup

theorem Walking.returns (hnodup : ∀ a, (children a).Nodup)
    (hacyclic : ∀ p, parent start = some p → ¬Above parent start p) {members : List α}
    (hmembers : ∀ a, Above parent start a → a ∈ members) {fuel : Nat} {seen stack met : List α}
    (h : Walking parent start seen stack met) (hfuel : members.length ≤ fuel + seen.length) :
    ∃ out, stackWalk children fuel stack met = some out ∧ (start :: out).Nodup ∧
      ∀ m, m ∈ start :: out ↔ Above parent start m := by
  induction fuel generalizing seen stack met with
  | zero =>
    have hlength := (h.nodup.subperm fun a ha => hmembers a (h.below a ha)).length_le
    rw [List.length_append] at hlength
    have hempty : stack = [] := List.length_eq_zero_iff.mp (by omega)
    subst hempty
    exact ⟨met, rfl, h.done⟩
  | succ fuel ih =>
    cases stack with
    | nil => exact ⟨met, rfl, h.done⟩
    | cons a stack =>
      refine ih (h.step hchild (hnodup a) hacyclic) ?_
      rw [List.length_append, List.length_singleton]
      omega

end StackWalk

end Hapcli.Lib
