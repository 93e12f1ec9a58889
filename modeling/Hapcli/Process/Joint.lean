/-
  Subject:   ONE SCHEDULE IS ENOUGH: running two programs against each other, rule by rule.

  `Joint p q c d r₁ r₂ l m`: from channels holding `c` (left to right) and `d` (right to left) the
  two programs have scripts that fit, with results `r₁`, `r₂` and calls `l`, `m`. The rules run the
  pair symbolically in whatever order is convenient -- the left party writes, the right one reads,
  … -- and `Joint.completes` carries the outcome over to every interleaving.
-/
import Hapcli.Process.Reading

namespace Hapcli.Process

variable {B E₁ E₂ ε₁ ε₂ α₁ α₂ β₁ β₂ : Type} {R₁ : E₁ → Type} {R₂ : E₂ → Type}

/-- The two programs have scripts that fit over the channels as they are. -/
def Joint (ok₁ : (e : E₁) → R₁ e → Prop) (ok₂ : (e : E₂) → R₂ e → Prop)
    (p : IoProc B E₁ R₁ ε₁ α₁) (q : IoProc B E₂ R₂ ε₂ α₂) (c d : List B)
    (r₁ : Except ε₁ α₁) (r₂ : Except ε₂ α₂) (l : List E₁) (m : List E₂) : Prop :=
  ∃ σ τ, Follows ok₁ p σ r₁ ∧ Follows ok₂ q τ r₂ ∧ Sched σ τ c d ∧ calls σ = l ∧ calls τ = m

section Rules

variable {ok₁ : (e : E₁) → R₁ e → Prop} {ok₂ : (e : E₂) → R₂ e → Prop} {p : IoProc B E₁ R₁ ε₁ α₁}
  {q : IoProc B E₂ R₂ ε₂ α₂} {c d : List B} {p' : IoProc B E₁ R₁ ε₁ β₁} {q' : IoProc B E₂ R₂ ε₂ β₂}
  {r₁ : Except ε₁ β₁} {r₂ : Except ε₂ β₂} {l : List E₁} {m : List E₂}
  {f : α₁ → IoProc B E₁ R₁ ε₁ β₁} {g : α₂ → IoProc B E₂ R₂ ε₂ β₂}

theorem Joint.symm (h : Joint ok₁ ok₂ p' q' c d r₁ r₂ l m) : Joint ok₂ ok₁ q' p' d c r₂ r₁ m l := by
  obtain ⟨σ, τ, h1, h2, h3, h4, h5⟩ := h
  exact ⟨τ, σ, h2, h1, h3.symm, h5, h4⟩

/-- Both parties are through; what is still in a channel stays there. -/
theorem joint_ret (a : β₁) (b : β₂) :
    Joint (B := B) ok₁ ok₂ (.ret a : IoProc B E₁ R₁ ε₁ β₁) (.ret b : IoProc B E₂ R₂ ε₂ β₂) c d
      (.ok a) (.ok b) [] [] :=
  ⟨[], [], .ret a, .ret b, .nil c d, rfl, rfl⟩

variable {a : α₁} {b : α₂} {bs : List B}

theorem Joint.writeL {f : Unit → IoProc B E₁ R₁ ε₁ β₁}
    (h : Joint ok₁ ok₂ (f ()) q' (c ++ bs) d r₁ r₂ l m) :
    Joint ok₁ ok₂ ((IoProc.writeAll bs).bind f) q' c d r₁ r₂ l m := by
  obtain ⟨σ, τ, h1, h2, h3, h4, h5⟩ := h
  exact ⟨sends bs ++ σ, τ, Follows.bind (follows_writeAll bs) h1, h2, h3.sendsL, by simpa using h4, h5⟩

theorem Joint.receiveL (hp : Follows ok₁ p (receives bs) (.ok a))
    (h : Joint ok₁ ok₂ (f a) q' c d r₁ r₂ l m) :
    Joint ok₁ ok₂ (p.bind f) q' c (bs ++ d) r₁ r₂ l m := by
  obtain ⟨σ, τ, h1, h2, h3, h4, h5⟩ := h
  exact ⟨receives bs ++ σ, τ, Follows.bind hp h1, h2, h3.receivesL, by simpa using h4, h5⟩

theorem Joint.readL (hp : Reads p bs (.ok a)) (h : Joint ok₁ ok₂ (f a) q' c d r₁ r₂ l m) :
    Joint ok₁ ok₂ (p.bind f) q' c (bs ++ d) r₁ r₂ l m :=
  .receiveL hp.follows h

theorem Joint.callL {e : E₁} {k : R₁ e → IoProc B E₁ R₁ ε₁ β₁}
    {a : R₁ e} (hok : ∀ b, ok₁ e b ↔ b = a) (h : Joint ok₁ ok₂ (k a) q' c d r₁ r₂ l m) :
    Joint ok₁ ok₂ (.act (.call e) k) q' c d r₁ r₂ (e :: l) m := by
  obtain ⟨σ, τ, h1, h2, h3, h4, h5⟩ := h
  refine ⟨.call e :: σ, τ, .call ⟨a, (hok a).mpr rfl⟩ fun b hb => ?_, h2, .callL h3, ?_, h5⟩
  · rw [(hok b).mp hb]
    exact h1
  · rw [calls, h4]

theorem Joint.turnL {σ β : Type} {body : σ → IoProc B E₁ R₁ ε₁ (Turn σ β)} {s : σ}
    {k : β → IoProc B E₁ R₁ ε₁ β₁} (h : Joint ok₁ ok₂ (Proc.unfold body s k) q' c d r₁ r₂ l m) :
    Joint ok₁ ok₂ (.iter body s k) q' c d r₁ r₂ l m := by
  obtain ⟨σ, τ, h1, h⟩ := h
  exact ⟨σ, τ, .turn h1, h⟩

theorem Joint.assocL {γ : Type} {h : α₁ → IoProc B E₁ R₁ ε₁ γ} {k : γ → IoProc B E₁ R₁ ε₁ β₁}
    (hj : Joint ok₁ ok₂ (p.bind fun a => (h a).bind k) q' c d r₁ r₂ l m) :
    Joint ok₁ ok₂ ((p.bind h).bind k) q' c d r₁ r₂ l m := by
  rwa [Proc.bind_assoc]

theorem Joint.assocR {γ : Type} {h : α₂ → IoProc B E₂ R₂ ε₂ γ} {k : γ → IoProc B E₂ R₂ ε₂ β₂}
    (hj : Joint ok₁ ok₂ p' (q.bind fun a => (h a).bind k) c d r₁ r₂ l m) :
    Joint ok₁ ok₂ p' ((q.bind h).bind k) c d r₁ r₂ l m := by
  rwa [Proc.bind_assoc]

theorem Joint.writeR {g : Unit → IoProc B E₂ R₂ ε₂ β₂}
    (h : Joint ok₁ ok₂ p' (g ()) c (d ++ bs) r₁ r₂ l m) :
    Joint ok₁ ok₂ p' ((IoProc.writeAll bs).bind g) c d r₁ r₂ l m :=
  h.symm.writeL.symm

theorem Joint.receiveR (hq : Follows ok₂ q (receives bs) (.ok b))
    (h : Joint ok₁ ok₂ p' (g b) c d r₁ r₂ l m) : Joint ok₁ ok₂ p' (q.bind g) (bs ++ c) d r₁ r₂ l m :=
  (h.symm.receiveL hq).symm

theorem Joint.readR (hq : Reads q bs (.ok b)) (h : Joint ok₁ ok₂ p' (g b) c d r₁ r₂ l m) :
    Joint ok₁ ok₂ p' (q.bind g) (bs ++ c) d r₁ r₂ l m :=
  .receiveR hq.follows h

theorem Joint.sendR (hq : Follows ok₂ q (sends bs) (.ok b))
    (h : Joint ok₁ ok₂ p' (g b) c (d ++ bs) r₁ r₂ l m) :
    Joint ok₁ ok₂ p' (q.bind g) c d r₁ r₂ l m := by
  obtain ⟨σ, τ, h1, h2, h3, h4, h5⟩ := h
  exact ⟨σ, sends bs ++ τ, h1, Follows.bind hq h2, h3.sendsR, h4, by simpa using h5⟩

/-- The right party guards a sequence: its first part is done, then the rest is guarded. -/
theorem Joint.attemptR {γ : Type} {f : α₂ → IoProc B E₂ R₂ ε₂ γ}
    {k : Except ε₂ γ → IoProc B E₂ R₂ ε₂ β₂}
    (h : Joint ok₁ ok₂ p' (q.attempt.bind fun r => (Proc.onOk (fun a => (f a).attempt) r).bind k)
      c d r₁ r₂ l m) : Joint ok₁ ok₂ p' ((q.bind f).attempt.bind k) c d r₁ r₂ l m := by
  rwa [Proc.attempt_bind, Proc.bind_assoc]

theorem Joint.callR {e : E₂} {k : R₂ e → IoProc B E₂ R₂ ε₂ β₂}
    {a : R₂ e} (hok : ∀ b, ok₂ e b ↔ b = a) (h : Joint ok₁ ok₂ p' (k a) c d r₁ r₂ l m) :
    Joint ok₁ ok₂ p' (.act (.call e) k) c d r₁ r₂ l (e :: m) :=
  (h.symm.callL hok).symm

theorem Joint.turnR {σ β : Type} {body : σ → IoProc B E₂ R₂ ε₂ (Turn σ β)} {s : σ}
    {k : β → IoProc B E₂ R₂ ε₂ β₂} (h : Joint ok₁ ok₂ p' (Proc.unfold body s k) c d r₁ r₂ l m) :
    Joint ok₁ ok₂ p' (.iter body s k) c d r₁ r₂ l m :=
  h.symm.turnL.symm

/-! ### Channels that carry one message -/

theorem Joint.putL {f : Unit → IoProc B E₁ R₁ ε₁ β₁} (h : Joint ok₁ ok₂ (f ()) q' bs d r₁ r₂ l m) :
    Joint ok₁ ok₂ ((IoProc.writeAll bs).bind f) q' [] d r₁ r₂ l m := .writeL h

theorem Joint.putR {g : Unit → IoProc B E₂ R₂ ε₂ β₂} (h : Joint ok₁ ok₂ p' (g ()) c bs r₁ r₂ l m) :
    Joint ok₁ ok₂ p' ((IoProc.writeAll bs).bind g) c [] r₁ r₂ l m := .writeR h

theorem Joint.takeL (hp : Follows ok₁ p (receives bs) (.ok a))
    (h : Joint ok₁ ok₂ (f a) q' c [] r₁ r₂ l m) : Joint ok₁ ok₂ (p.bind f) q' c bs r₁ r₂ l m := by
  have hj := Joint.receiveL hp h
  rwa [List.append_nil] at hj

theorem Joint.takeR (hq : Follows ok₂ q (receives bs) (.ok b))
    (h : Joint ok₁ ok₂ p' (g b) [] d r₁ r₂ l m) : Joint ok₁ ok₂ p' (q.bind g) bs d r₁ r₂ l m :=
  (h.symm.takeL hq).symm

theorem Joint.completes (h : Joint ok₁ ok₂ p' q' [] [] r₁ r₂ l m) :
    Completes (Net.Step ok₁ ok₂) (Final r₁ r₂ l m) { left := p', right := q' } := by
  obtain ⟨σ, τ, h1, h2, h3, rfl, rfl⟩ := h
  exact session_completes h1 h2 h3

end Rules

end Hapcli.Process
