/-
  Subject:   TRYING A PROGRAM OUT, and programs that keep to some of the operations.

  * **`safe_of_uses`** -- a program keeps whatever the operations it uses keep.
-/
import Hapcli.Process.Safety

namespace Hapcli.Process

namespace Proc

variable {Op : Type} {Ans : Op → Type} {ε α β σ : Type}

/-! ## 1. Trials -/

/-- How an environment answers, from what has happened. -/
abbrev Env (Op : Type) (Ans : Op → Type) := Hist Op Ans → (op : Op) → Ans op

/-- Run up to the next turn of a loop, then hand over to `turn`. -/
def trialWith (env : Env Op Ans)
    (turn : Proc Op Ans ε α → Hist Op Ans → Option (Except ε α × Hist Op Ans)) :
    Proc Op Ans ε α → Hist Op Ans → Option (Except ε α × Hist Op Ans)
  | ret a, h => some (.ok a, h)
  | fail e, h => some (.error e, h)
  | act op k, h => trialWith env turn (k (env h op)) (h ++ [⟨op, env h op⟩])
  | iter body s k, h => turn (unfold body s k) h

/-- **Run `p` after a history** with at most `fuel` turns of loops. -/
def trial (env : Env Op Ans) :
    Nat → Proc Op Ans ε α → Hist Op Ans → Option (Except ε α × Hist Op Ans)
  | 0 => trialWith env fun _ _ => none
  | fuel + 1 => trialWith env (trial env fuel)

variable {env : Env Op Ans}

variable {p : Proc Op Ans ε α}

theorem run_trialWith {turn : Proc Op Ans ε α → Hist Op Ans → Option (Except ε α × Hist Op Ans)}
    (hturn : ∀ p h r h', turn p h = some (r, h') → ∃ n t, Run n p t (ofExcept r) ∧ h' = h ++ t)
    {h h' : Hist Op Ans} {r : Except ε α} (htrial : trialWith env turn p h = some (r, h')) :
    ∃ n t, Run n p t (ofExcept r) ∧ h' = h ++ t := by
  induction p generalizing h with
  | ret a =>
    cases htrial
    exact ⟨0, [], .here _, (List.append_nil _).symm⟩
  | fail e =>
    cases htrial
    exact ⟨0, [], .here _, (List.append_nil _).symm⟩
  | act op k ih =>
    obtain ⟨n, t, hrun, rfl⟩ := ih _ hturn htrial
    exact ⟨n + 1, ⟨op, env h op⟩ :: t, .act _ hrun, by rw [List.append_assoc, List.singleton_append]⟩
  | iter body s k _ _ =>
    obtain ⟨n, t, hrun, rfl⟩ := hturn _ _ _ _ htrial
    exact ⟨n + 1, t, .turn hrun, rfl⟩

theorem run_trial {fuel : Nat} {h h' : Hist Op Ans} {r : Except ε α}
    (htrial : trial env fuel p h = some (r, h')) : ∃ n t, Run n p t (ofExcept r) ∧ h' = h ++ t := by
  induction fuel generalizing p h h' r with
  | zero => exact run_trialWith (fun _ _ _ _ hnone => by cases hnone) htrial
  | succ fuel ih => exact run_trialWith (fun _ _ _ _ hturn => ih hturn) htrial

theorem run_of_trial_any (env : Env Op Ans) (fuel : Nat) (p : Proc Op Ans ε α)
    (check : Except ε α × Hist Op Ans → Bool) (htrial : (trial env fuel p []).any check = true) :
    ∃ n h r, Run n p h (ofExcept r) ∧ check (r, h) = true := by
  obtain ⟨⟨r, h⟩, houtcome, hcheck⟩ := (Option.any_eq_true _ _).mp htrial
  obtain ⟨n, t, hrun, ht⟩ := run_trial houtcome
  rw [List.nil_append] at ht
  exact ⟨n, h, r, ht ▸ hrun, hcheck⟩

/-! ## 2. Programs that keep to some of the operations -/

/-- Every operation of every run is in `S`. -/
def Uses (S : Op → Prop) (p : Proc Op Ans ε α) : Prop :=
  ∀ n h q, Run n p h q → ∀ e ∈ h, S e.1

variable {S : Op → Prop}

theorem uses_ret (a : α) : Uses S (ret a : Proc Op Ans ε α) := by
  intro n h q hrun
  cases hrun
  exact nofun

theorem uses_fail (e : ε) : Uses S (fail e : Proc Op Ans ε α) := by
  intro n h q hrun
  cases hrun
  exact nofun

theorem uses_ofExcept (r : Except ε α) : Uses S (ofExcept r : Proc Op Ans ε α) := by
  cases r with
  | ok a => exact uses_ret a
  | error e => exact uses_fail e

theorem uses_act {op : Op} {k : Ans op → Proc Op Ans ε α} (hop : S op) (hk : ∀ a, Uses S (k a)) :
    Uses S (act op k) := by
  intro n h q hrun
  cases hrun with
  | here => exact nofun
  | act a hrun => exact List.forall_mem_cons.mpr ⟨hop, hk a _ _ _ hrun⟩

theorem uses_bind {f : α → Proc Op Ans ε β} (hp : Uses S p) (hf : ∀ a, Uses S (f a)) :
    Uses S (p.bind f) := by
  intro n h q hrun
  obtain ⟨p', hp', -, -⟩ | ⟨a, n₁, n₂, h₁, h₂, rfl, rfl, hp', hf'⟩ := run_bind_inv hrun
  · exact hp _ _ _ hp'
  · intro e he
    obtain he | he := List.mem_append.mp he
    · exact hp _ _ _ hp' e he
    · exact hf a _ _ _ hf' e he

theorem uses_iter {body : σ → Proc Op Ans ε (Turn σ β)} {k : β → Proc Op Ans ε α}
    (hbody : ∀ s, Uses S (body s)) (hk : ∀ b, Uses S (k b)) (s : σ) : Uses S (iter body s k) := by
  intro n
  -- on the number of steps: a further turn is a strictly shorter run of the same loop
  induction n using Nat.strongRecOn generalizing s with
  | ind n ih =>
    intro h q hrun
    cases hrun with
    | here => exact nofun
    | turn hrun =>
      obtain ⟨p', hp', -, -⟩ | ⟨r, n₁, n₂, h₁, h₂, rfl, rfl, hp', hf'⟩ := run_bind_inv hrun
      · exact hbody s _ _ _ hp'
      · intro e he
        obtain he | he := List.mem_append.mp he
        · exact hbody s _ _ _ hp' e he
        · cases r with
          | again s' => exact ih n₂ (by omega) s' _ _ hf' e he
          | done b => exact hk b _ _ _ hf' e he

theorem uses_loop {body : σ → Proc Op Ans ε (Turn σ β)} (hbody : ∀ s, Uses S (body s)) (s : σ) :
    Uses S (loop body s) :=
  uses_iter hbody (fun b => uses_ret b) s

theorem Uses.mono {S' : Op → Prop} (h : Uses S p) (hS : ∀ op, S op → S' op) : Uses S' p :=
  fun n t q hrun e he => hS _ (h n t q hrun e he)

theorem safe_of_uses {I J : Hist Op Ans → Prop} {h₀ : Hist Op Ans} (hp : Uses S p)
    (hkeep : ∀ h e, S e.1 → J h → J (h ++ [e])) (hI : ∀ h, J h → I h) (h : J h₀) :
    Safe I (fun _ => J) h₀ p := by
  intro n t q hrun
  have hJ : J (h₀ ++ t) := by
    have hops := hp n t q hrun
    clear hrun
    induction t generalizing h₀ with
    | nil => rwa [List.append_nil]
    | cons e t ih =>
      rw [List.forall_mem_cons] at hops
      have hnext := ih (hkeep h₀ e hops.1 h) hops.2
      rwa [List.append_assoc, List.singleton_append] at hnext
  exact ⟨hI _ hJ, fun _ _ => hJ, fun _ _ => hJ⟩

end Proc

end Hapcli.Process
