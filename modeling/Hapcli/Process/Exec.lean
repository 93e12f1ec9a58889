/-
  Subject:   RUNNING A PROGRAM ON A TAPE: a finite input, read symbol by symbol, and an output.

  * `exec fuel p tape` -- computable; the fuel counts turns of loops, `none` is "out of fuel";
  * `exec_mono`, `exec_det` -- more fuel changes no result, so there is at most one;
  * `Grazes c p c'` -- a bound on the fuel: `p` started with `c` more turns than symbols on the
    tape ends, and has `c' a` more turns than symbols left when it returns `a`. A read earns a
    turn, a turn of a loop costs one (`grazes_loop`).
-/
import Hapcli.Process.Session

namespace Hapcli.Process

variable {B E : Type} {R : E → Type} {ε α β : Type}

/-! ## 1. The interpreter -/

/-- What a program reads from and writes to. -/
structure Tape (B : Type) where
  input : List B
  output : List B := []
  deriving DecidableEq

/-- How the tape's owner answers what the tape itself cannot: a read at the end, a call. -/
structure Host (E : Type) (R : E → Type) (ε : Type) where
  onEof : ε
  onCall : (e : E) → R e

/-- What a run leaves: the result and the tape. -/
abbrev Outcome (B ε α : Type) := Except ε α × Tape B

/-- Run up to the next turn of a loop, then hand over to `turn`. -/
def execWith (host : Host E R ε) (turn : IoProc B E R ε α → Tape B → Option (Outcome B ε α)) :
    IoProc B E R ε α → Tape B → Option (Outcome B ε α)
  | .ret a, t => some (.ok a, t)
  | .fail e, t => some (.error e, t)
  | .act .readByte k, ⟨b :: inp, out⟩ => execWith host turn (k (.ok b)) ⟨inp, out⟩
  | .act .readByte k, ⟨[], out⟩ => execWith host turn (k (.error host.onEof)) ⟨[], out⟩
  | .act (.writeAll bs) k, ⟨inp, out⟩ => execWith host turn (k (.ok ())) ⟨inp, out ++ bs⟩
  | .act (.nextBuffer _) k, ⟨[], out⟩ => execWith host turn (k (.error host.onEof)) ⟨[], out⟩
  | .act (.nextBuffer take) k, ⟨b :: inp, out⟩ =>
    execWith host turn (k (.ok (b :: inp))) ⟨(b :: inp).drop (take (b :: inp)), out⟩
  | .act (.call e) k, t => execWith host turn (k (host.onCall e)) t
  | .iter body s k, t => turn (Proc.unfold body s k) t

/-- **Run `p` on a tape** with at most `fuel` turns of loops. -/
def exec (host : Host E R ε) : Nat → IoProc B E R ε α → Tape B → Option (Outcome B ε α)
  | 0 => execWith host fun _ _ => none
  | fuel + 1 => execWith host (exec host fuel)

variable {host : Host E R ε}

/-! ## 2. Fuel -/

variable {c n : Nat} {c' : α → Nat} {p : IoProc B E R ε α} {r : Outcome B ε α} {t : Tape B}

theorem execWith_mono {t₁ t₂ : IoProc B E R ε α → Tape B → Option (Outcome B ε α)}
    (ht : ∀ p t r, t₁ p t = some r → t₂ p t = some r) (h : execWith host t₁ p t = some r) :
    execWith host t₂ p t = some r := by
  induction p generalizing t with
  | ret a => exact h
  | fail e => exact h
  | act op k ih =>
    obtain ⟨inp, out⟩ := t
    cases op with
    | readByte => cases inp <;> exact ih _ ht h
    | writeAll bs => exact ih _ ht h
    | nextBuffer take => cases inp <;> exact ih _ ht h
    | call e => exact ih _ ht h
  | iter body s k _ _ => exact ht _ _ _ h

theorem exec_succ (h : exec host n p t = some r) : exec host (n + 1) p t = some r := by
  induction n generalizing p t r with
  | zero => exact execWith_mono (fun _ _ _ h => by cases h) h
  | succ n ih => exact execWith_mono (fun _ _ _ h => ih h) h

theorem exec_mono {m : Nat} (hnm : n ≤ m) (h : exec host n p t = some r) :
    exec host m p t = some r := by
  induction hnm with
  | refl => exact h
  | step _ ih => exact exec_succ ih

theorem exec_det {m : Nat} {r' : Outcome B ε α} (h : exec host n p t = some r)
    (h' : exec host m p t = some r') : r = r' := by
  have h1 := exec_mono (Nat.le_max_left n m) h
  have h2 := exec_mono (Nat.le_max_right n m) h'
  exact Option.some.inj (h1.symm.trans h2)

theorem execWith_run {turn : IoProc B E R ε α → Tape B → Option (Outcome B ε α)}
    (ht : ∀ p t r t', turn p t = some (r, t') → ∃ m hist, Proc.Run m p hist (Proc.ofExcept r))
    {t' : Tape B} {r : Except ε α} (h : execWith host turn p t = some (r, t')) :
    ∃ m hist, Proc.Run m p hist (Proc.ofExcept r) := by
  induction p generalizing t with
  | ret a =>
    cases h
    exact ⟨0, [], .here _⟩
  | fail e =>
    cases h
    exact ⟨0, [], .here _⟩
  | act op k ih =>
    obtain ⟨a, s, hs⟩ : ∃ a s, execWith host turn (k a) s = some (r, t') := by
      obtain ⟨inp, out⟩ := t
      cases op with
      | readByte => cases inp <;> exact ⟨_, _, h⟩
      | writeAll bs => exact ⟨_, _, h⟩
      | nextBuffer take => cases inp <;> exact ⟨_, _, h⟩
      | call e => exact ⟨_, _, h⟩
    obtain ⟨m, hist, hr⟩ := ih a ht hs
    exact ⟨m + 1, ⟨op, a⟩ :: hist, .act a hr⟩
  | iter body s k _ _ =>
    obtain ⟨m, hist, hr⟩ := ht _ _ _ _ h
    exact ⟨m + 1, hist, .turn hr⟩

/-- What a run on a tape shows is a run: its reads are answered by the tape, its calls by the
    host. -/
theorem exec_run {t' : Tape B} {r : Except ε α} (h : exec host n p t = some (r, t')) :
    ∃ m hist, Proc.Run m p hist (Proc.ofExcept r) := by
  induction n generalizing p t t' r with
  | zero => exact execWith_run (fun _ _ _ _ h => by cases h) h
  | succ n ih => exact execWith_run (fun _ _ _ _ h => ih h) h

/-! ## 3. How much fuel is enough -/

/-- **Fuel accounting**: with `c` more turns than symbols `p` ends, and what follows it has `c' a`
    more turns than symbols. -/
def Grazes (host : Host E R ε) (c : Nat) (p : IoProc B E R ε α) (c' : α → Nat) : Prop :=
  ∀ (β : Type) (f : α → IoProc B E R ε β) (n : Nat),
    (∀ a m inp out, m ≤ n → inp.length + c' a ≤ m → (exec host m (f a) ⟨inp, out⟩).isSome) →
    ∀ inp out, inp.length + c ≤ n → (exec host n (p.bind f) ⟨inp, out⟩).isSome

theorem Grazes.mono {d : Nat} (h : Grazes host c p c') (hcd : c ≤ d) : Grazes host d p c' := by
  intro β f n hf inp out hn
  exact h β f n hf inp out (by omega)

theorem grazes_ret {a : α} (h : c' a ≤ c) : Grazes (B := B) host c (.ret a) c' := by
  intro β f n hf inp out hn
  exact hf a n inp out (Nat.le_refl n) (by omega)

theorem grazes_fail {e : ε} : Grazes (B := B) host c (.fail e) c' := by
  intro β f n hf inp out hn
  cases n <;> rfl

theorem grazes_bind {c₁ : α → Nat} {f : α → IoProc B E R ε β} {c₂ : β → Nat}
    (hp : Grazes host c p c₁) (hf : ∀ a, Grazes host (c₁ a) (f a) c₂) :
    Grazes host c (p.bind f) c₂ := by
  intro γ g n hg inp out hn
  rw [Proc.bind_assoc]
  refine hp γ _ n (fun a m inp out hm hl => ?_) inp out hn
  exact hf a γ g m (fun b m' inp' out' hm' => hg b m' inp' out' (by omega)) inp out hl

theorem grazes_readByte {k : B → IoProc B E R ε α} (hk : ∀ b, Grazes host (c + 1) (k b) c') :
    Grazes host c (IoProc.readByte.bind k) c' := by
  intro β f n hf inp out hn
  cases inp with
  | nil => cases n <;> rfl
  | cons b inp =>
    have := hk b β f n hf inp out (by simp only [List.length_cons] at hn; omega)
    cases n <;> exact this

/-- The turns a loop's body must leave: one to go round again. -/
def turnsLeft {σ : Type} (c : Nat) (c' : β → Nat) : Turn σ β → Nat
  | .again _ => c + 1
  | .done b => c' b

/-- A loop whose every turn reads ends. -/
theorem grazes_loop {σ : Type} {body : σ → IoProc B E R ε (Turn σ β)} {c' : β → Nat}
    (hb : ∀ s, Grazes host c (body s) (turnsLeft c c')) (s : σ) :
    Grazes host (c + 1) (Proc.loop body s) c' := by
  intro γ f n
  induction n using Nat.strongRecOn generalizing s with
  | ind n ih =>
    intro hf inp out hn
    cases n with
    | zero => omega
    | succ n =>
      refine hb s γ _ n (fun r m inp out hm hr => ?_) inp out (by omega)
      cases r with
      | again s' =>
        exact ih m (by omega) s' (fun b m' inp' out' h => hf b m' inp' out' (by omega)) inp out hr
      | done b => exact hf b m inp out (by omega) hr

theorem Grazes.exec_isSome (h : Grazes host c p c') (inp out : List B) :
    (exec host (inp.length + c) p ⟨inp, out⟩).isSome := by
  have := h α .ret (inp.length + c) (fun a m inp out _ _ => by cases m <;> rfl) inp out
    (Nat.le_refl _)
  rwa [Proc.bind_ret] at this

end Hapcli.Process
