/-
  Subject:   Code that changes a state in place and may stop early: `&mut self` and `Result`.

  A call that fails keeps the changes made before the failure; that is the difference to a
  transaction, and what the rules of this file are about.

  * `Action.Ensures` -- a precondition, and one postcondition each for a result and for a failure;
    **`Ensures.bind`**, `Ensures.weaken`, `Ensures.each` -- its rules.
-/
import Mathlib.Order.Basic
import Mathlib.Tactic.Common

namespace Hapcli.Lib

/-- Code that changes a state in place and returns a `Result`. -/
def Action (σ ε α : Type) : Type := σ → Except ε α × σ

namespace Action

variable {σ ε α β : Type}

/-! ## 1. Results, failures, loops -/

instance : Monad (Action σ ε) where
  pure a := fun s => (.ok a, s)
  bind act f := fun s =>
    match act s with
    | (.ok a, s') => f a s'
    | (.error e, s') => (.error e, s')

instance : MonadStateOf σ (Action σ ε) where
  get := fun s => (.ok s, s)
  set s' := fun _ => (.ok (), s')
  modifyGet f := fun s => (.ok (f s).1, (f s).2)

instance : MonadExceptOf ε (Action σ ε) where
  throw e := fun s => (.error e, s)
  tryCatch act handler := fun s =>
    match act s with
    | (.ok a, s') => (.ok a, s')
    | (.error e, s') => handler e s'

/-- `?` on a result that is there already. -/
def lift (r : Except ε α) : Action σ ε α := fun s => (r, s)

/-- `let _ = ..`: the result is dropped, the changes stay. -/
def attempt (act : Action σ ε α) : Action σ ε Bool := fun s =>
  match act s with
  | (.ok _, s') => (.ok true, s')
  | (.error _, s') => (.ok false, s')

/-- `for x in xs`, with what every round gives. -/
def each (xs : List α) (body : α → Action σ ε β) : Action σ ε (List β) :=
  match xs with
  | [] => pure []
  | x :: xs => do
      let y ← body x
      let ys ← each xs body
      pure (y :: ys)

/-- Code over one of two things that are at hand. -/
def onFst {τ : Type} (act : Action σ ε α) : Action (σ × τ) ε α := fun s =>
  ((act s.1).1, (act s.1).2, s.2)

theorem lift_ok_bind (a : α) (f : α → Action σ ε β) : (lift (.ok a : Except ε α) >>= f) = f a := rfl

variable {a : α} {act : Action σ ε α} {e : ε} {s s' : σ}

variable {f : α → Action σ ε β}

theorem bind_ok (h : act s = (.ok a, s')) : (act >>= f) s = f a s' := by
  show (match act s with
    | (.ok a, s') => f a s'
    | (.error e, s') => (.error e, s')) = _
  rw [h]

theorem bind_error (h : act s = (.error e, s')) :
    (act >>= f) s = (.error e, s') := by
  show (match act s with
    | (.ok a, s') => f a s'
    | (.error e, s') => (.error e, s')) = _
  rw [h]

theorem attempt_ok (h : act s = (.ok a, s')) : attempt act s = (.ok true, s') := by
  show (match act s with
    | (.ok _, s') => ((.ok true, s') : Except ε Bool × σ)
    | (.error _, s') => (.ok false, s')) = _
  rw [h]

theorem attempt_error (h : act s = (.error e, s')) : attempt act s = (.ok false, s') := by
  show (match act s with
    | (.ok _, s') => ((.ok true, s') : Except ε Bool × σ)
    | (.error _, s') => (.ok false, s')) = _
  rw [h]

/-! ## 2. Pre- and postconditions -/

/-- From a state with `P` a result comes with `Q`, a failure with `E`. -/
def Ensures (P : σ → Prop) (act : Action σ ε α) (Q : α → σ → Prop) (E : σ → Prop) : Prop :=
  ∀ s, P s → match act s with
    | (.ok a, s') => Q a s'
    | (.error _, s') => E s'

namespace Ensures

variable {P P' : σ → Prop} {Q Q' : α → σ → Prop} {E E' : σ → Prop}

theorem ok (h : Ensures P act Q E) (hs : P s) (hrun : act s = (.ok a, s')) : Q a s' := by
  have hpost := h s hs
  rw [hrun] at hpost
  exact hpost

theorem error (h : Ensures P act Q E) (hs : P s) (hrun : act s = (.error e, s')) : E s' := by
  have hpost := h s hs
  rw [hrun] at hpost
  exact hpost

/-- What holds whatever comes of a call holds of the state it leaves. -/
theorem state {R : σ → Prop} (h : Ensures P act (fun _ => R) R) (hs : P s) : R (act s).2 := by
  have hpost := h s hs
  rcases hrun : act s with ⟨e | a, s'⟩ <;> (rw [hrun] at hpost; exact hpost)

theorem weaken (h : Ensures P act Q E) (hP : ∀ s, P' s → P s) (hQ : ∀ a s, Q a s → Q' a s)
    (hE : ∀ s, E s → E' s) : Ensures P' act Q' E' := by
  intro s hs
  have hpost := h s (hP s hs)
  rcases hrun : act s with ⟨e | a, s'⟩
  · rw [hrun] at hpost
    exact hE s' hpost
  · rw [hrun] at hpost
    exact hQ a s' hpost

theorem pure (h : ∀ s, P s → Q a s) : Ensures P (Pure.pure a : Action σ ε α) Q E :=
  fun s hs => h s hs

theorem throw (h : ∀ s, P s → E s) : Ensures P (MonadExcept.throw e : Action σ ε α) Q E :=
  fun s hs => h s hs

theorem modify {Q : PUnit → σ → Prop} {f : σ → σ} (h : ∀ s, P s → Q ⟨⟩ (f s)) :
    Ensures P (modify f : Action σ ε PUnit) Q E :=
  fun s hs => h s hs

theorem bind {Q : β → σ → Prop} {M : α → σ → Prop}
    (hact : Ensures P act M E) (hf : ∀ a, Ensures (M a) (f a) Q E) : Ensures P (act >>= f) Q E := by
  intro s hs
  rcases hrun : act s with ⟨e | a, s'⟩
  · rw [bind_error hrun]
    exact hact.error hs hrun
  · rw [bind_ok hrun]
    exact hf a s' (hact.ok hs hrun)

theorem lift_bind {r : Except ε α} {Q : β → σ → Prop}
    (herror : ∀ s, P s → E s) (hf : ∀ a, r = .ok a → Ensures P (f a) Q E) :
    Ensures P (Action.lift r >>= f) Q E := by
  intro s hs
  cases r with
  | error e => exact herror s hs
  | ok a => exact hf a rfl s hs

theorem getThe_bind {f : σ → Action σ ε β} {Q : β → σ → Prop}
    (hf : ∀ s, P s → Ensures (fun s' => s' = s) (f s) Q E) :
    Ensures P (MonadStateOf.get >>= f) Q E :=
  fun s hs => hf s hs s rfl

theorem getThe_keeps {f : σ → Action σ ε β} {Q : β → σ → Prop}
    (hf : ∀ s, P s → Ensures P (f s) Q E) : Ensures P (MonadStateOf.get >>= f) Q E :=
  fun s hs => hf s hs s hs

theorem assuming {p : Prop} (h : p → Ensures P act Q E) : Ensures (fun s => P s ∧ p) act Q E :=
  fun s hs => h hs.2 s hs.1

theorem attempt {R : σ → Prop} (h : Ensures P act (fun _ => R) R) :
    Ensures P act.attempt (fun _ => R) E := by
  intro s hs
  have hpost := h s hs
  unfold Action.attempt
  rcases hrun : act s with ⟨e | a, s'⟩ <;> (rw [hrun] at hpost; exact hpost)

theorem onFst {τ : Type} {P : σ × τ → Prop} {Q : α → σ × τ → Prop} {E : σ × τ → Prop}
    (h : ∀ t, Ensures (fun s => P (s, t)) act (fun a s => Q a (s, t)) fun s => E (s, t)) :
    Ensures P act.onFst Q E := by
  rintro ⟨s, t⟩ hs
  have hpost := h t s hs
  have happly : act.onFst (s, t) = ((act s).1, (act s).2, t) := rfl
  rcases hrun : act s with ⟨e | a, s'⟩ <;>
    (rw [hrun] at hpost happly; rw [happly]; exact hpost)

variable {body : α → Action σ ε β} {xs : List α}

theorem each {I : σ → Prop} (h : ∀ x ∈ xs, Ensures I (body x) (fun _ => I) E) :
    Ensures I (Action.each xs body) (fun _ => I) E := by
  induction xs with
  | nil => exact Ensures.pure fun _ hs => hs
  | cons x xs ih =>
    refine bind (h x List.mem_cons_self) fun _ => ?_
    refine bind (ih fun y hy => h y (List.mem_cons_of_mem _ hy)) fun _ => ?_
    exact Ensures.pure fun _ hs => hs

theorem each_results {I : List β → σ → Prop}
    (h : ∀ x ∈ xs, ∀ ys, Ensures (I ys) (body x) (fun y => I (ys ++ [y])) E) (ys : List β) :
    Ensures (I ys) (Action.each xs body) (fun ys' => I (ys ++ ys')) E := by
  induction xs generalizing ys with
  | nil => exact Ensures.pure fun s hs => by rwa [List.append_nil]
  | cons x xs ih =>
    refine bind (h x List.mem_cons_self ys) fun y => ?_
    refine bind (ih (fun y hy => h y (List.mem_cons_of_mem _ hy)) (ys ++ [y])) fun ys' => ?_
    exact Ensures.pure fun s hs => by rwa [List.append_assoc] at hs

theorem each_done {I : List α → σ → Prop}
    (h : ∀ ys x zs, xs = ys ++ x :: zs → Ensures (I ys) (body x) (fun _ => I (ys ++ [x])) E) :
    Ensures (I []) (Action.each xs body) (fun _ => I xs) E := by
  suffices hrest : ∀ zs ys, xs = ys ++ zs →
      Ensures (I ys) (Action.each zs body) (fun _ => I xs) E from hrest xs [] rfl
  intro zs
  induction zs with
  | nil =>
    intro ys hxs
    exact Ensures.pure fun s hs => by rwa [hxs, List.append_nil]
  | cons x zs ih =>
    intro ys hxs
    refine bind (h ys x zs hxs) fun _ => ?_
    refine bind (ih (ys ++ [x]) (by rw [hxs, List.append_assoc]; rfl)) fun _ => ?_
    exact Ensures.pure fun _ hs => hs

end Ensures

/-! ## 3. What a call leaves alone -/

/-- Whatever comes of the call, the state it leaves is related to the one it was given. -/
def Keeps (R : σ → σ → Prop) (act : Action σ ε α) : Prop := ∀ s, R s (act s).2

namespace Keeps

variable {R : σ → σ → Prop}

theorem ensures {P : σ → Prop} (h : Keeps R act) (hP : ∀ {s s'}, R s s' → P s → P s') :
    Ensures P act (fun _ => P) P := by
  intro s hs
  have hkept := h s
  rcases hrun : act s with ⟨e | a, s'⟩ <;> (rw [hrun] at hkept; exact hP hkept hs)

theorem weaken {R' : σ → σ → Prop} (h : Keeps R act) (hR : ∀ {s s'}, R s s' → R' s s') :
    Keeps R' act :=
  fun s => hR (h s)

theorem bind (htrans : ∀ {a b c}, R a b → R b c → R a c)
    (hact : Keeps R act) (hf : ∀ a, Keeps R (f a)) : Keeps R (act >>= f) := by
  intro s
  have hkept := hact s
  rcases hrun : act s with ⟨e | a, s'⟩
  · rw [bind_error hrun]
    rw [hrun] at hkept
    exact hkept
  · rw [bind_ok hrun]
    rw [hrun] at hkept
    exact htrans hkept (hf a s')

section

variable (hrefl : ∀ s, R s s)

include hrefl

theorem pure (a : α) : Keeps R (Pure.pure a : Action σ ε α) := hrefl

theorem lift (r : Except ε α) : Keeps R (Action.lift r : Action σ ε α) := hrefl

theorem throw (e : ε) : Keeps R (MonadExcept.throw e : Action σ ε α) := hrefl

theorem getThe : Keeps R (getThe σ : Action σ ε σ) := hrefl

end

theorem attempt (h : Keeps R act) : Keeps R act.attempt := by
  intro s
  have hkept := h s
  unfold Action.attempt
  rcases hrun : act s with ⟨e | a, s'⟩ <;> (rw [hrun] at hkept; exact hkept)

theorem each (hrefl : ∀ s, R s s) (htrans : ∀ {a b c}, R a b → R b c → R a c)
    {xs : List α} {body : α → Action σ ε β} (h : ∀ x ∈ xs, Keeps R (body x)) :
    Keeps R (Action.each xs body) := by
  induction xs with
  | nil => exact Keeps.pure hrefl []
  | cons x xs ih =>
    refine bind htrans (h x List.mem_cons_self) fun _ => ?_
    refine bind htrans (ih fun y hy => h y (List.mem_cons_of_mem _ hy)) fun _ => ?_
    exact Keeps.pure hrefl _

end Keeps

end Action

end Hapcli.Lib
