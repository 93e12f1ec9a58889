/-
  Subject:   INVARIANTS OVER WHOLE RUNS, whatever the environment answers.

  `Safe I Q h₀ p`: along every run of `p` started after the history `h₀`, the history satisfies
  `I` at every step, and where the run ends its result and the history satisfy `Q`. One rule for
  each constructor of `Proc`, one for `bind`, one for `attempt`; the loop rule is the usual
  invariant rule, so a proof about a program follows the program text.
-/
import Hapcli.Process.Program

namespace Hapcli.Process

namespace Proc

variable {Op : Type} {Ans : Op → Type} {ε α β σ : Type}

/-- The history of a run: every operation with its answer, oldest first. -/
abbrev Hist (Op : Type) (Ans : Op → Type) := List (Event Op Ans)

/-- **Safety of `p` after `h₀`**: `I` at every step, `Q` on the result. -/
def Safe (I : Hist Op Ans → Prop) (Q : Except ε α → Hist Op Ans → Prop) (h₀ : Hist Op Ans)
    (p : Proc Op Ans ε α) : Prop :=
  ∀ n h q, Run n p h q → I (h₀ ++ h) ∧ (∀ a, q = ret a → Q (.ok a) (h₀ ++ h)) ∧
    ∀ e, q = fail e → Q (.error e) (h₀ ++ h)

variable {I : Hist Op Ans → Prop} {h₀ : Hist Op Ans}

variable {Q : Except ε α → Hist Op Ans → Prop} {body : σ → Proc Op Ans ε (Turn σ β)}
  {p : Proc Op Ans ε α} {s : σ}

theorem Safe.now (h : Safe I Q h₀ p) : I h₀ := by
  simpa using (h 0 [] p (.here p)).1

theorem safe_ret {a : α} (hI : I h₀) (hQ : Q (.ok a) h₀) : Safe I Q h₀ (ret a) := by
  intro n h q hr
  cases hr
  refine ⟨by simpa using hI, fun b hb => ?_, nofun⟩
  cases hb
  simpa using hQ

theorem safe_fail {e : ε} (hI : I h₀) (hQ : Q (.error e) h₀) : Safe I Q h₀ (fail e) := by
  intro n h q hr
  cases hr
  refine ⟨by simpa using hI, nofun, fun b hb => ?_⟩
  cases hb
  simpa using hQ

theorem safe_act {op : Op} {k : Ans op → Proc Op Ans ε α} (hI : I h₀)
    (hk : ∀ a, Safe I Q (h₀ ++ [⟨op, a⟩]) (k a)) : Safe I Q h₀ (act op k) := by
  intro n h q hr
  cases hr with
  | here => exact ⟨by simpa using hI, nofun, nofun⟩
  | act a hr' => simpa using hk a _ _ _ hr'

theorem Safe.mono {Q' : Except ε α → Hist Op Ans → Prop} (h : Safe I Q h₀ p)
    (hQ : ∀ r h, I h → Q r h → Q' r h) : Safe I Q' h₀ p := by
  intro n h' q hr
  obtain ⟨h1, h2, h3⟩ := h n h' q hr
  exact ⟨h1, fun a e => hQ _ _ h1 (h2 a e), fun a e => hQ _ _ h1 (h3 a e)⟩

theorem Safe.imp {I' : Hist Op Ans → Prop} (h : Safe I Q h₀ p) (hI : ∀ h, I h → I' h) :
    Safe I' Q h₀ p :=
  fun n h' q hr => ⟨hI _ (h n h' q hr).1, (h n h' q hr).2⟩

theorem safe_bind {R : Except ε α → Hist Op Ans → Prop} {Q : Except ε β → Hist Op Ans → Prop}
    {f : α → Proc Op Ans ε β} (hp : Safe I R h₀ p)
    (hf : ∀ a h, I h → R (.ok a) h → Safe I Q h (f a))
    (he : ∀ e h, I h → R (.error e) h → Q (.error e) h) : Safe I Q h₀ (p.bind f) := by
  intro n h q hr
  rcases run_bind_inv hr with ⟨p', hp', hne, rfl⟩ | ⟨a, n₁, n₂, h₁, h₂, rfl, rfl, hp', hf'⟩
  · obtain ⟨h1, -, h3⟩ := hp n h p' hp'
    cases p' with
    | ret a => exact absurd rfl (hne a)
    | fail e =>
      refine ⟨h1, nofun, fun e' he' => ?_⟩
      cases he'
      exact he e _ h1 (h3 e rfl)
    | act op k => exact ⟨h1, nofun, nofun⟩
    | iter body s k => exact ⟨h1, nofun, nofun⟩
  · obtain ⟨h1, h2, -⟩ := hp n₁ h₁ _ hp'
    rw [← List.append_assoc]
    exact hf a _ h1 (h2 a rfl) n₂ h₂ q hf'

/-- What one turn of a loop owes: the invariant `J` for another turn, `K` on leaving, the loop's
    own postcondition on a failure. -/
def afterTurn (J : σ → Hist Op Ans → Prop) (K : β → Hist Op Ans → Prop)
    (Q : Except ε α → Hist Op Ans → Prop) : Except ε (Turn σ β) → Hist Op Ans → Prop
  | .ok (.again s), h => J s h
  | .ok (.done b), h => K b h
  | .error e, h => Q (.error e) h

variable (J : σ → Hist Op Ans → Prop)

theorem safe_iter (K : β → Hist Op Ans → Prop) {k : β → Proc Op Ans ε α} (hJ : J s h₀)
    (hbody : ∀ s h, J s h → Safe I (afterTurn J K Q) h (body s))
    (hk : ∀ b h, I h → K b h → Safe I Q h (k b)) : Safe I Q h₀ (iter body s k) := by
  intro n
  -- on the number of steps: a further turn is a strictly shorter run of the same loop
  induction n using Nat.strongRecOn generalizing s h₀ with
  | ind n ih =>
    intro h q hr
    cases hr with
    | here => exact ⟨by simpa using (hbody s h₀ hJ).now, nofun, nofun⟩
    | turn hr' =>
      rcases run_bind_inv hr' with
        ⟨p', hp', hne, rfl⟩ | ⟨r, n₁, n₂, h₁, h₂, rfl, rfl, hp', hf'⟩
      · obtain ⟨h1, -, h3⟩ := hbody s h₀ hJ _ _ _ hp'
        cases p' with
        | ret a => exact absurd rfl (hne a)
        | fail e =>
          refine ⟨h1, nofun, fun e' he' => ?_⟩
          cases he'
          exact h3 e rfl
        | act op k => exact ⟨h1, nofun, nofun⟩
        | iter body s k => exact ⟨h1, nofun, nofun⟩
      · obtain ⟨h1, h2, -⟩ := hbody s h₀ hJ _ _ _ hp'
        have hr2 := h2 r rfl
        rw [← List.append_assoc]
        cases r with
        | again s' => exact ih n₂ (by omega) hr2 h₂ q hf'
        | done b => exact hk b _ h1 hr2 n₂ h₂ q hf'

theorem safe_loop {Q : Except ε β → Hist Op Ans → Prop} (hJ : J s h₀)
    (hbody : ∀ s h, J s h → Safe I (afterTurn J (fun b => Q (.ok b)) Q) h (body s)) :
    Safe I Q h₀ (loop body s) :=
  safe_iter J (fun b => Q (.ok b)) hJ hbody fun _ _ hI hK => safe_ret hI hK

/-- The result of an `attempt` is `p`'s own; the attempt itself never fails. -/
def attempted (Q : Except ε α → Hist Op Ans → Prop) :
    Except ε (Except ε α) → Hist Op Ans → Prop
  | .ok r, h => Q r h
  | .error _, _ => False

theorem run_attempt_inv {n : Nat} {h : Hist Op Ans} {q : Proc Op Ans ε (Except ε α)}
    (hr : Run n p.attempt h q) : ∃ p', Run n p h p' ∧ q = p'.attempt := by
  induction n generalizing p h with
  | zero =>
    cases hr
    exact ⟨p, .here p, rfl⟩
  | succ n ih =>
    cases p with
    | ret a => cases hr
    | fail e => cases hr
    | act op k =>
      cases hr with
      | act a hr' =>
        obtain ⟨p', hp, rfl⟩ := ih hr'
        exact ⟨p', .act a hp, rfl⟩
    | iter body s k =>
      cases hr with
      | turn hr' =>
        rw [← attempt_unfold] at hr'
        obtain ⟨p', hp, rfl⟩ := ih hr'
        exact ⟨p', .turn hp, rfl⟩

theorem safe_attempt (hp : Safe I Q h₀ p) : Safe I (attempted Q) h₀ p.attempt := by
  intro n h q hr
  obtain ⟨p', hp', rfl⟩ := run_attempt_inv hr
  obtain ⟨h1, h2, h3⟩ := hp n h p' hp'
  cases p' with
  | ret a =>
    refine ⟨h1, fun r hr => ?_, nofun⟩
    cases hr
    exact h2 a rfl
  | fail e =>
    refine ⟨h1, fun r hr => ?_, nofun⟩
    cases hr
    exact h3 e rfl
  | act op k => exact ⟨h1, nofun, nofun⟩
  | iter body s k => exact ⟨h1, nofun, nofun⟩

/-! ### Programs whose failures owe nothing more than the invariant -/

/-- The postcondition `P` on a return; a failure owes nothing but `I`. -/
def onReturn (P : α → Hist Op Ans → Prop) : Except ε α → Hist Op Ans → Prop
  | .ok a, h => P a h
  | .error _, _ => True

/-- The postcondition of a loop's body: `J` before another turn, `K` on leaving. -/
def onFlow (J : σ → Hist Op Ans → Prop) (K : β → Hist Op Ans → Prop) :
    Turn σ β → Hist Op Ans → Prop
  | .again s, h => J s h
  | .done b, h => K b h

variable {P : α → Hist Op Ans → Prop}

theorem safe_failure {e : ε} (hI : I h₀) : Safe I (onReturn P) h₀ (fail e) := safe_fail hI trivial

theorem safe_check {r : Except ε α} (hI : I h₀) (hP : ∀ a, r = .ok a → P a h₀) :
    Safe I (onReturn P) h₀ (ofExcept r) := by
  cases r with
  | ok a => exact safe_ret hI (hP a rfl)
  | error e => exact safe_failure hI

theorem safe_then {P' : β → Hist Op Ans → Prop} {f : α → Proc Op Ans ε β}
    (hp : Safe I (onReturn P) h₀ p) (hf : ∀ a h, P a h → Safe I (onReturn P') h (f a)) :
    Safe I (onReturn P') h₀ (p.bind f) :=
  safe_bind hp (fun a h _ hP => hf a h hP) fun _ _ _ _ => trivial

theorem safe_repeat {P : β → Hist Op Ans → Prop} (hJ : J s h₀)
    (hbody : ∀ s h, J s h → Safe I (onReturn (onFlow J P)) h (body s)) :
    Safe I (onReturn P) h₀ (loop body s) := by
  refine safe_loop J hJ fun s h hs => (hbody s h hs).mono fun r h _ hr => ?_
  rcases r with e | (s' | b)
  · trivial
  · exact hr
  · exact hr

end Proc

end Hapcli.Process
