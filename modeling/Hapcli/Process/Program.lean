/-
  Subject:   PROGRAMS THAT TALK TO AN ENVIRONMENT: the language the transfer protocols are
             embedded in. Nothing here knows a protocol.

  A program returns a value, fails with an error, performs an operation and goes on with its
  answer, or runs an unbounded loop. The loop is a constructor (`iter`), not a recursion of the
  host language: `loop { … }` of the source is one `iter` node, so no fuel appears in any program
  and a program that loops for ever is still a term.

  * `Proc`, `Proc.bind`, the `Monad` instance, `Proc.attempt` (a failure as a value);
  * `Proc.unfold` -- one turn of a loop;
  * `Proc.Run n p h q` -- `p` reaches `q` in `n` steps while the environment gives the answers
    recorded in the history `h`; nothing restricts the answers;
  * `Proc.run_bind_inv` -- every run of `p.bind f` stays in `p` or splits at `p`'s result.
-/
import Mathlib.Init
import Mathlib.Tactic.Common

namespace Hapcli.Process

/-- What the body of a loop decides: another turn from a new state, or the loop's result. -/
inductive Turn (σ β : Type) where
  | again (s : σ)
  | done (b : β)
  deriving DecidableEq

/-- A program over the operations `Op`, answered in `Ans`, failing with `ε`. -/
inductive Proc (Op : Type) (Ans : Op → Type) (ε : Type) : Type → Type 1 where
  | ret {α : Type} (a : α) : Proc Op Ans ε α
  | fail {α : Type} (e : ε) : Proc Op Ans ε α
  | act {α : Type} (op : Op) (k : Ans op → Proc Op Ans ε α) : Proc Op Ans ε α
  | iter {α σ β : Type} (body : σ → Proc Op Ans ε (Turn σ β)) (s : σ)
      (k : β → Proc Op Ans ε α) : Proc Op Ans ε α

namespace Proc

variable {Op : Type} {Ans : Op → Type} {ε α β γ σ : Type}

/-! ## 1. Sequencing -/

/-- `p`, then `f` on its result; a failure of `p` is the failure of the whole. -/
def bind : Proc Op Ans ε α → (α → Proc Op Ans ε β) → Proc Op Ans ε β
  | ret a, f => f a
  | fail e, _ => fail e
  | act op k, f => act op fun a => (k a).bind f
  | iter body s k, f => iter body s fun b => (k b).bind f

instance : Monad (Proc Op Ans ε) where
  pure := ret
  bind := bind

variable (body : σ → Proc Op Ans ε (Turn σ β))

/-- `loop { … }` with its state passed explicitly. -/
def loop (s : σ) : Proc Op Ans ε β :=
  iter body s ret

/-- The program of a pure fallible computation (the `?` of the source). -/
def ofExcept : Except ε α → Proc Op Ans ε α
  | .ok a => ret a
  | .error e => fail e

/-- Perform one operation. -/
def perform (op : Op) : Proc Op Ans ε (Ans op) := act op ret

/-- The body of `attempt` on a loop: a failure of the body leaves the loop with the error. -/
def attemptFlow : Except ε (Turn σ β) → Proc Op Ans ε (Turn σ (Except ε β))
  | .ok (.again s) => ret (.again s)
  | .ok (.done b) => ret (.done (.ok b))
  | .error e => ret (.done (.error e))

/-- `f` on a result, an error passed on. -/
def onOk (f : α → Proc Op Ans ε (Except ε β)) : Except ε α → Proc Op Ans ε (Except ε β)
  | .ok a => f a
  | .error e => ret (.error e)

/-- A failure as a value: `match p { Ok(..) => .., Err(..) => .. }`. -/
def attempt : {α : Type} → Proc Op Ans ε α → Proc Op Ans ε (Except ε α)
  | _, ret a => ret (.ok a)
  | _, fail e => ret (.error e)
  | _, act op k => act op fun a => (k a).attempt
  | _, iter body s k =>
    iter (fun s => (body s).attempt.bind attemptFlow) s (onOk fun b => (k b).attempt)

variable (a : α) (p : Proc Op Ans ε α)

@[simp] theorem pure_eq : (pure a : Proc Op Ans ε α) = ret a := rfl

variable (f : α → Proc Op Ans ε β)

@[simp] theorem bind_eq : p >>= f = p.bind f := rfl

@[simp] theorem map_eq (f : α → β) (p : Proc Op Ans ε α) :
    f <$> p = p.bind fun a => ret (f a) := rfl

@[simp] theorem ret_bind : (ret a).bind f = f a := rfl

@[simp] theorem fail_bind (e : ε) (f : α → Proc Op Ans ε β) :
    (fail e : Proc Op Ans ε α).bind f = fail e := rfl

@[simp] theorem act_bind (op : Op) (k : Ans op → Proc Op Ans ε α) (f : α → Proc Op Ans ε β) :
    (act op k).bind f = act op fun a => (k a).bind f := rfl

@[simp] theorem iter_bind {τ : Type} (body : σ → Proc Op Ans ε (Turn σ τ)) (s : σ)
    (k : τ → Proc Op Ans ε α) (f : α → Proc Op Ans ε β) :
    (iter body s k).bind f = iter body s fun b => (k b).bind f := rfl

@[simp] theorem ofExcept_ok : (ofExcept (.ok a) : Proc Op Ans ε α) = ret a := rfl

@[simp] theorem ofExcept_error (e : ε) : (ofExcept (.error e) : Proc Op Ans ε α) = fail e := rfl

theorem bind_assoc (g : β → Proc Op Ans ε γ) :
    (p.bind f).bind g = p.bind fun a => (f a).bind g := by
  induction p with
  | ret a => rfl
  | fail e => rfl
  | act op k ih => simp only [act_bind, ih]
  | iter body s k _ ih => simp only [iter_bind, ih]

theorem bind_ret : p.bind ret = p := by
  induction p with
  | ret a => rfl
  | fail e => rfl
  | act op k ih => simp only [act_bind, ih]
  | iter body s k _ ih => simp only [iter_bind, ih]

/-- What follows a turn of a loop: another turn, or what follows the loop. -/
def goOn (k : β → Proc Op Ans ε α) :
    Turn σ β → Proc Op Ans ε α
  | .again s => iter body s k
  | .done b => k b

/-- One turn of a loop: run the body, then loop again or leave. -/
def unfold (s : σ) (k : β → Proc Op Ans ε α) : Proc Op Ans ε α :=
  (body s).bind (goOn body k)

theorem unfold_bind (s : σ) (k : β → Proc Op Ans ε α) (f : α → Proc Op Ans ε γ) :
    (unfold body s k).bind f = unfold body s fun b => (k b).bind f := by
  unfold Proc.unfold
  rw [bind_assoc]
  congr 1
  funext r
  cases r <;> rfl

theorem attempt_bind : (p.bind f).attempt = p.attempt.bind (onOk fun a => (f a).attempt) := by
  induction p with
  | ret a => rfl
  | fail e => rfl
  | act op k ih => simp only [act_bind, attempt, ih]
  | iter body s k _ ih =>
    simp only [iter_bind, attempt]
    congr 1
    funext r
    cases r with
    | ok b => exact ih b f
    | error e => rfl

theorem attempt_unfold (s : σ) (k : β → Proc Op Ans ε α) :
    (unfold body s k).attempt =
      unfold (fun s => (body s).attempt.bind attemptFlow) s (onOk fun b => (k b).attempt) := by
  unfold Proc.unfold
  rw [attempt_bind, bind_assoc]
  congr 1
  funext r
  rcases r with e | (s' | b) <;> rfl

/-! ## 2. Runs under arbitrary answers -/

/-- One exchange with the environment: an operation and the answer it got. -/
abbrev Event (Op : Type) (Ans : Op → Type) := (op : Op) × Ans op

/-- `p` reaches `q` in `n` steps; `h` records the operations performed and their answers, oldest
    first. The answers are arbitrary: a run is a run against some environment. -/
inductive Run : Nat → Proc Op Ans ε α → List (Event Op Ans) → Proc Op Ans ε α → Prop where
  | here (p : Proc Op Ans ε α) : Run 0 p [] p
  | act {n : Nat} {op : Op} {k : Ans op → Proc Op Ans ε α} (a : Ans op)
      {h : List (Event Op Ans)} {q : Proc Op Ans ε α} (hr : Run n (k a) h q) :
      Run (n + 1) (.act op k) (⟨op, a⟩ :: h) q
  | turn {n : Nat} {σ β : Type} {body : σ → Proc Op Ans ε (Turn σ β)} {s : σ}
      {k : β → Proc Op Ans ε α} {h : List (Event Op Ans)} {q : Proc Op Ans ε α}
      (hr : Run n (unfold body s k) h q) : Run (n + 1) (.iter body s k) h q

/-- A run of `p.bind f` stays inside `p`, or `p` returns and the rest is a run of `f`. -/
theorem run_bind_inv {f : α → Proc Op Ans ε β} {n : Nat} {p : Proc Op Ans ε α}
    {h : List (Event Op Ans)} {q : Proc Op Ans ε β} (hr : Run n (p.bind f) h q) :
    (∃ p', Run n p h p' ∧ (∀ a, p' ≠ ret a) ∧ q = p'.bind f) ∨
      ∃ a n₁ n₂ h₁ h₂, n = n₁ + n₂ ∧ h = h₁ ++ h₂ ∧ Run n₁ p h₁ (ret a) ∧ Run n₂ (f a) h₂ q := by
  induction n generalizing p h with
  | zero =>
    cases hr
    cases p with
    | ret a => exact .inr ⟨a, 0, 0, [], [], rfl, rfl, .here _, .here _⟩
    | fail e => exact .inl ⟨_, .here _, nofun, rfl⟩
    | act op k => exact .inl ⟨_, .here _, nofun, rfl⟩
    | iter body s k => exact .inl ⟨_, .here _, nofun, rfl⟩
  | succ n ih =>
    cases p with
    | ret a => exact .inr ⟨a, 0, n + 1, [], h, by omega, rfl, .here _, hr⟩
    | fail e => cases hr
    | act op k =>
      cases hr with
      | act a hr' =>
        rcases ih hr' with ⟨p', hp, hne, rfl⟩ | ⟨b, n₁, n₂, h₁, h₂, rfl, rfl, hp, hf⟩
        · exact .inl ⟨p', .act a hp, hne, rfl⟩
        · exact .inr ⟨b, n₁ + 1, n₂, ⟨op, a⟩ :: h₁, h₂, by omega, rfl, .act a hp, hf⟩
    | iter body s k =>
      cases hr with
      | turn hr' =>
        rw [← unfold_bind] at hr'
        rcases ih hr' with ⟨p', hp, hne, rfl⟩ | ⟨b, n₁, n₂, h₁, h₂, rfl, rfl, hp, hf⟩
        · exact .inl ⟨p', .turn hp, hne, rfl⟩
        · exact .inr ⟨b, n₁ + 1, n₂, h₁, h₂, by omega, rfl, .turn hp, hf⟩

end Proc

end Hapcli.Process
