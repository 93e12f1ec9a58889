/-
  Subject:   TWO PROGRAMS OVER TWO RELIABLE FIFO CHANNELS, under every interleaving.

  * `IoOp` -- the operations of a program with one incoming and one outgoing channel: read one
    symbol, write a block, look at a non-empty piece of what has arrived and consume a part of it
    (`nextBuffer`), call the local environment;
  * `Move` -- one move of one party: a read waits until its channel holds something, a write
    appends, a call is answered as the environment `ok` permits and is recorded in the log;
  * `Net`, `Net.Step` -- the pair; every step is a move of either party, so a run of `Net.Step` is
    an interleaving and every interleaving is a run;
  * `Completes` -- no run goes on for ever, and a run that can go no further has ended in `P`.
-/
import Hapcli.Process.Program
import Mathlib.Logic.Relation

namespace Hapcli.Process

/-! ## 1. Operations on channels -/

/-- The operations of a program with an incoming and an outgoing channel of symbols `B` and an
    environment that offers the calls `E`. -/
inductive IoOp (B E : Type) where
  | readByte
  | writeAll (bs : List B)
  | nextBuffer (take : List B → Nat)
  | call (e : E)

/-- What each operation answers. -/
def IoOp.Ans (ε : Type) {B E : Type} (R : E → Type) : IoOp B E → Type
  | .readByte => Except ε B
  | .writeAll _ => Except ε Unit
  | .nextBuffer _ => Except ε (List B)
  | .call e => R e

/-- A program over channels. -/
abbrev IoProc (B E : Type) (R : E → Type) (ε α : Type) : Type 1 :=
  Proc (IoOp B E) (IoOp.Ans ε R) ε α

variable {B E ε : Type} {R : E → Type}

namespace IoProc

open Proc

/-- Read one symbol; an error of the channel is the program's failure. -/
def readByte : IoProc B E R ε B := act .readByte fun r => ofExcept r

/-- Write a block. -/
def writeAll (bs : List B) : IoProc B E R ε Unit := act (.writeAll bs) fun r => ofExcept r

/-- A non-empty piece of what has arrived; its first `take piece` symbols are consumed. -/
def nextBuffer (take : List B → Nat) : IoProc B E R ε (List B) :=
  act (.nextBuffer take) fun r => ofExcept r

/-- Call the environment. -/
def call (e : E) : IoProc B E R ε (R e) := act (.call e) fun r => ret r

end IoProc

/-! ## 2. One party -/

section Move

variable {α : Type}

/-- One move of a party: its channel before it, the program after it, what is left in the channel,
    the symbols sent, the calls made. -/
inductive Move (ok : (e : E) → R e → Prop) :
    IoProc B E R ε α → List B → IoProc B E R ε α → List B → List B → List E → Prop where
  | readByte (k : Except ε B → IoProc B E R ε α) (b : B) (rest : List B) :
      Move ok (.act .readByte k) (b :: rest) (k (.ok b)) rest [] []
  | writeAll (bs : List B) (k : Except ε Unit → IoProc B E R ε α) (inp : List B) :
      Move ok (.act (.writeAll bs) k) inp (k (.ok ())) inp bs []
  | nextBuffer (take : List B → Nat) (k : Except ε (List B) → IoProc B E R ε α)
      (piece rest : List B) (h : piece ≠ []) :
      Move ok (.act (.nextBuffer take) k) (piece ++ rest) (k (.ok piece))
        (piece.drop (take piece) ++ rest) [] []
  | call (e : E) (k : R e → IoProc B E R ε α) (r : R e) (inp : List B) (h : ok e r) :
      Move ok (.act (.call e) k) inp (k r) inp [] [e]
  | turn {σ β : Type} (body : σ → IoProc B E R ε (Turn σ β)) (s : σ) (k : β → IoProc B E R ε α)
      (inp : List B) : Move ok (.iter body s k) inp (Proc.unfold body s k) inp [] []

end Move

/-! ## 3. The pair -/

/-- Two parties, the channels between them and the calls each has made. -/
structure Net (B E₁ : Type) (R₁ : E₁ → Type) (ε₁ α₁ E₂ : Type) (R₂ : E₂ → Type) (ε₂ α₂ : Type) where
  left : IoProc B E₁ R₁ ε₁ α₁
  right : IoProc B E₂ R₂ ε₂ α₂
  toRight : List B := []
  toLeft : List B := []
  leftLog : List E₁ := []
  rightLog : List E₂ := []

section Net

variable {E₁ ε₁ α₁ E₂ ε₂ α₂ : Type} {R₁ : E₁ → Type} {R₂ : E₂ → Type}

/-- **One step of the pair**: either party moves. -/
inductive Net.Step (ok₁ : (e : E₁) → R₁ e → Prop) (ok₂ : (e : E₂) → R₂ e → Prop) :
    Net B E₁ R₁ ε₁ α₁ E₂ R₂ ε₂ α₂ → Net B E₁ R₁ ε₁ α₁ E₂ R₂ ε₂ α₂ → Prop where
  | left (p : IoProc B E₁ R₁ ε₁ α₁) (q : IoProc B E₂ R₂ ε₂ α₂) (c d : List B) (l : List E₁)
      (m : List E₂) {p' : IoProc B E₁ R₁ ε₁ α₁} {d' out : List B} {calls : List E₁}
      (h : Move ok₁ p d p' d' out calls) :
      Net.Step ok₁ ok₂ ⟨p, q, c, d, l, m⟩ ⟨p', q, c ++ out, d', l ++ calls, m⟩
  | right (p : IoProc B E₁ R₁ ε₁ α₁) (q : IoProc B E₂ R₂ ε₂ α₂) (c d : List B) (l : List E₁)
      (m : List E₂) {q' : IoProc B E₂ R₂ ε₂ α₂} {c' out : List B} {calls : List E₂}
      (h : Move ok₂ q c q' c' out calls) :
      Net.Step ok₁ ok₂ ⟨p, q, c, d, l, m⟩ ⟨p, q', c', d ++ out, l, m ++ calls⟩

/-- Where the left party has failed and the right one waits on an empty channel, nothing moves. -/
theorem Net.stuck_waiting {ok₁ : (e : E₁) → R₁ e → Prop} {ok₂ : (e : E₂) → R₂ e → Prop} (e : ε₁)
    (k : Except ε₂ B → IoProc B E₂ R₂ ε₂ α₂) (d : List B) (l : List E₁) (m : List E₂) :
    ¬ ∃ s', Net.Step ok₁ ok₂ ⟨(.fail e : IoProc B E₁ R₁ ε₁ α₁), .act .readByte k, [], d, l, m⟩ s' := by
  rintro ⟨s', hs⟩
  cases hs with
  | left _ _ _ _ _ _ h => cases h
  | right _ _ _ _ _ _ h => cases h

end Net

/-! ## 4. Every run ends, and ends well -/

/-- **Every run from `s₀` is finite, and one that can go no further has reached `P`.** -/
structure Completes {S : Type 1} (step : S → S → Prop) (P : S → Prop) (s₀ : S) : Prop where
  finite : ¬ ∃ run : Nat → S, run 0 = s₀ ∧ ∀ i, step (run i) (run (i + 1))
  ends : ∀ s, Relation.ReflTransGen step s₀ s → (∃ s', step s s') ∨ P s

theorem Completes.mono {S : Type 1} {step : S → S → Prop} {P Q : S → Prop} {s₀ : S}
    (h : Completes step P s₀) (hPQ : ∀ s, P s → Q s) : Completes step Q s₀ :=
  ⟨h.finite, fun s hs => (h.ends s hs).imp_right (hPQ s)⟩

/-- A state that can go no further and is not in `P` shows that a run may end badly. -/
theorem not_completes {S : Type 1} {step : S → S → Prop} {P : S → Prop} {s₀ s : S}
    (hs : Relation.ReflTransGen step s₀ s) (hstuck : ¬ ∃ s', step s s') (hP : ¬ P s) :
    ¬ Completes step P s₀ :=
  fun h => (h.ends s hs).elim hstuck hP

/-- The inductive form of `Completes`: on every branch of the tree of runs, `P` at the leaf. -/
inductive Ends {S : Type 1} (step : S → S → Prop) (P : S → Prop) : S → Prop where
  | intro (s : S) (next : ∀ s', step s s' → Ends step P s') (here : (∃ s', step s s') ∨ P s) :
      Ends step P s

section Ends

variable {S : Type 1} {step : S → S → Prop} {P : S → Prop}

theorem Ends.reach {s s' : S} (h : Ends step P s) (hr : Relation.ReflTransGen step s s') :
    Ends step P s' := by
  induction hr with
  | refl => exact h
  | tail _ hs ih =>
    cases ih with
    | intro _ next _ => exact next _ hs

theorem Ends.no_infinite_run {s : S} (h : Ends step P s) :
    ∀ run : Nat → S, run 0 = s → ¬ ∀ i, step (run i) (run (i + 1)) := by
  induction h with
  | intro s next here ih =>
    intro run h0 hrun
    exact ih (run 1) (h0 ▸ hrun 0) (fun i => run (i + 1)) rfl fun i => hrun (i + 1)

theorem Ends.completes {s₀ : S} (h : Ends step P s₀) : Completes step P s₀ where
  finite := fun ⟨run, h0, hrun⟩ => h.no_infinite_run run h0 hrun
  ends _ hr := by
    cases h.reach hr with
    | intro _ _ here => exact here

end Ends

end Hapcli.Process
