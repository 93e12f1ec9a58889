/-
  Subject:   SESSION SCRIPTS: what each party does, event by event, and when two scripts fit.

  An interleaving of two programs is hard to speak about; a script is a plain list. `Follows p σ r`
  says that `p`, whatever piece sizes its channel shows it, performs exactly the events of `σ` in
  order and ends with the result `r`. `Sched σ τ c d` says that two scripts fit together over
  channels holding `c` and `d`: SOME order of their events empties both scripts; what a channel
  still holds then is never read.
  Because a channel has one writer and one reader, one order is enough: `Sched` survives a move of
  either party (`Sched.sndL`, `Sched.rcvL`, …), so **every** interleaving ends
  (`session_completes`), both programs with the results their scripts promise.
-/
import Hapcli.Process.Network

namespace Hapcli.Process

/-! ## 1. Scripts -/

/-- One event of a party: a symbol sent, a symbol received, a call made. -/
inductive Evt (B E : Type) where
  | snd (b : B)
  | rcv (b : B)
  | call (e : E)
  deriving DecidableEq

variable {B E E₁ E₂ : Type}

/-- The events of sending a block. -/
abbrev sends (bs : List B) : List (Evt B E) := bs.map .snd

/-- The events of receiving a block. -/
abbrev receives (bs : List B) : List (Evt B E) := bs.map .rcv

/-- The symbols a script receives. -/
@[grind] def incoming : List (Evt B E) → List B
  | [] => []
  | .rcv b :: σ => b :: incoming σ
  | _ :: σ => incoming σ

/-- The symbols a script sends. -/
@[grind] def outgoing : List (Evt B E) → List B
  | [] => []
  | .snd b :: σ => b :: outgoing σ
  | _ :: σ => outgoing σ

/-- The calls a script makes. -/
@[grind] def calls : List (Evt B E) → List E
  | [] => []
  | .call e :: σ => e :: calls σ
  | _ :: σ => calls σ

@[simp] theorem incoming_receives (bs : List B) (σ : List (Evt B E)) :
    incoming (receives bs ++ σ) = bs ++ incoming σ := by
  induction bs with
  | nil => rfl
  | cons b bs ih => simpa [incoming] using ih

@[simp] theorem calls_append (σ τ : List (Evt B E)) : calls (σ ++ τ) = calls σ ++ calls τ := by
  induction σ with
  | nil => rfl
  | cons a σ ih => cases a <;> simp [calls, ih]

@[simp] theorem calls_sends (bs : List B) : calls (sends bs : List (Evt B E)) = [] := by
  induction bs with
  | nil => rfl
  | cons b bs ih => simpa [calls] using ih

@[simp] theorem calls_receives (bs : List B) : calls (receives bs : List (Evt B E)) = [] := by
  induction bs with
  | nil => rfl
  | cons b bs ih => simpa [calls] using ih

/-! ## 2. A program follows a script -/

variable {ε α : Type} {R : E → Type} {ok : (e : E) → R e → Prop}

section Follows

variable {β : Type}

/-- **`p` performs the events of `σ` and ends with `r`**, for every answer that `ok` permits and
    whatever non-empty piece `nextBuffer` shows -- also past the script (`ext`), as the peer may be
    ahead. -/
inductive Follows (ok : (e : E) → R e → Prop) :
    IoProc B E R ε α → List (Evt B E) → Except ε α → Prop where
  | ret (a : α) : Follows ok (.ret a) [] (.ok a)
  | fail (e : ε) : Follows ok (.fail e) [] (.error e)
  | readByte {k : Except ε B → IoProc B E R ε α} {b : B} {σ : List (Evt B E)} {r : Except ε α}
      (h : Follows ok (k (.ok b)) σ r) : Follows ok (.act .readByte k) (.rcv b :: σ) r
  | writeAll {bs : List B} {k : Except ε Unit → IoProc B E R ε α} {σ : List (Evt B E)}
      {r : Except ε α} (h : Follows ok (k (.ok ())) σ r) :
      Follows ok (.act (.writeAll bs) k) (sends bs ++ σ) r
  | nextBuffer {take : List B → Nat} {k : Except ε (List B) → IoProc B E R ε α} {bs : List B}
      {σ : List (Evt B E)} {r : Except ε α} (hbs : bs ≠ [])
      (htake : ∀ piece rest ext, piece ≠ [] → piece ++ rest = bs ++ ext →
        take piece ≤ bs.length ∧ take piece ≤ piece.length)
      (h : ∀ piece rest ext, piece ≠ [] → piece ++ rest = bs ++ ext →
        Follows ok (k (.ok piece)) (receives (bs.drop (take piece)) ++ σ) r) :
      Follows ok (.act (.nextBuffer take) k) (receives bs ++ σ) r
  | call {e : E} {k : R e → IoProc B E R ε α} {σ : List (Evt B E)} {r : Except ε α}
      (hok : ∃ a, ok e a) (h : ∀ a, ok e a → Follows ok (k a) σ r) :
      Follows ok (.act (.call e) k) (.call e :: σ) r
  | turn {τ β : Type} {body : τ → IoProc B E R ε (Turn τ β)} {s : τ}
      {k : β → IoProc B E R ε α} {σ : List (Evt B E)} {r : Except ε α}
      (h : Follows ok (Proc.unfold body s k) σ r) : Follows ok (.iter body s k) σ r

variable {p : IoProc B E R ε α}

theorem Follows.bind {f : α → IoProc B E R ε β} {σ τ : List (Evt B E)} {a : α} {r : Except ε β}
    (hp : Follows ok p σ (.ok a)) (hf : Follows ok (f a) τ r) :
    Follows ok (p.bind f) (σ ++ τ) r := by
  generalize hq : Except.ok a = q at hp
  induction hp with
  | ret b =>
    cases hq
    exact hf
  | fail e => cases hq
  | readByte _ ih => exact .readByte (ih hq)
  | writeAll _ ih =>
    rw [List.append_assoc]
    exact .writeAll (ih hq)
  | nextBuffer hbs htake _ ih =>
    rw [List.append_assoc]
    refine .nextBuffer hbs htake fun piece rest ext hne hpre => ?_
    rw [← List.append_assoc]
    exact ih piece rest ext hne hpre hq
  | call hok _ ih => exact .call hok fun a ha => ih a ha hq
  | turn _ ih =>
    refine .turn ?_
    rw [← Proc.unfold_bind]
    exact ih hq

theorem Follows.cast {σ τ : List (Evt B E)} {r : Except ε α} (h : Follows ok p σ r) (e : σ = τ) :
    Follows ok p τ r := e ▸ h

theorem Follows.attempt {σ : List (Evt B E)} {r : Except ε α} (h : Follows ok p σ r) :
    Follows ok p.attempt σ (.ok r) := by
  induction h with
  | ret a => exact .ret _
  | fail e => exact .ret _
  | readByte _ ih => exact .readByte ih
  | writeAll _ ih => exact .writeAll ih
  | nextBuffer hbs htake _ ih => exact .nextBuffer hbs htake ih
  | call hok _ ih => exact .call hok ih
  | turn _ ih =>
    refine .turn ?_
    rw [← Proc.attempt_unfold]
    exact ih

theorem follows_ofExcept (r : Except ε α) :
    Follows ok (Proc.ofExcept r : IoProc B E R ε α) [] r := by
  cases r with
  | ok a => exact .ret a
  | error e => exact .fail e

theorem follows_readByte (b : B) :
    Follows ok (IoProc.readByte : IoProc B E R ε B) [.rcv b] (.ok b) := .readByte (.ret b)

theorem follows_writeAll (bs : List B) :
    Follows ok (IoProc.writeAll bs : IoProc B E R ε Unit) (sends bs) (.ok ()) :=
  (Follows.writeAll (.ret ())).cast (List.append_nil _)

end Follows

/-! ## 3. Two scripts fit -/

/-- **Some order of the events empties both scripts** (`c` carries what the left party sent, `d`
    what the right one sent). -/
inductive Sched : List (Evt B E₁) → List (Evt B E₂) → List B → List B → Prop where
  | nil (c d : List B) : Sched [] [] c d
  | sndL {b : B} {σ : List (Evt B E₁)} {τ : List (Evt B E₂)} {c d : List B}
      (h : Sched σ τ (c ++ [b]) d) : Sched (.snd b :: σ) τ c d
  | rcvL {b : B} {σ : List (Evt B E₁)} {τ : List (Evt B E₂)} {c d : List B}
      (h : Sched σ τ c d) : Sched (.rcv b :: σ) τ c (b :: d)
  | callL {e : E₁} {σ : List (Evt B E₁)} {τ : List (Evt B E₂)} {c d : List B}
      (h : Sched σ τ c d) : Sched (.call e :: σ) τ c d
  | sndR {b : B} {σ : List (Evt B E₁)} {τ : List (Evt B E₂)} {c d : List B}
      (h : Sched σ τ c (d ++ [b])) : Sched σ (.snd b :: τ) c d
  | rcvR {b : B} {σ : List (Evt B E₁)} {τ : List (Evt B E₂)} {c d : List B}
      (h : Sched σ τ c d) : Sched σ (.rcv b :: τ) (b :: c) d
  | callR {e : E₂} {σ : List (Evt B E₁)} {τ : List (Evt B E₂)} {c d : List B}
      (h : Sched σ τ c d) : Sched σ (.call e :: τ) c d

namespace Sched

variable {σ : List (Evt B E₁)} {τ : List (Evt B E₂)} {c d : List B}

theorem symm (h : Sched σ τ c d) : Sched τ σ d c := by
  induction h with
  | nil c d => exact .nil d c
  | sndL _ ih => exact .sndR ih
  | rcvL _ ih => exact .rcvR ih
  | callL _ ih => exact .callR ih
  | sndR _ ih => exact .sndL ih
  | rcvR _ ih => exact .rcvL ih
  | callR _ ih => exact .callL ih

/-- What a party will receive comes first in what its channel holds and what the other will
    send. -/
theorem incoming_eq (h : Sched σ τ c d) : ∃ unread, incoming σ ++ unread = d ++ outgoing τ := by
  induction h with
  | nil c d => exact ⟨d, by simp [incoming, outgoing]⟩
  | sndL _ ih => exact ih
  | @rcvL b _ _ _ _ _ ih =>
    obtain ⟨unread, h⟩ := ih
    exact ⟨unread, congrArg (b :: ·) h⟩
  | callL _ ih => exact ih
  | sndR _ ih =>
    obtain ⟨unread, h⟩ := ih
    exact ⟨unread, by simpa [outgoing] using h⟩
  | rcvR _ ih => exact ih
  | callR _ ih => exact ih

theorem after_sndL {b : B} (h : Sched (.snd b :: σ) τ c d) : Sched σ τ (c ++ [b]) d := by
  generalize hs : Evt.snd b :: σ = s at h
  induction h with
  | nil => cases hs
  | sndL h _ =>
    cases hs
    exact h
  | rcvL _ _ => cases hs
  | callL _ _ => cases hs
  | sndR _ ih => exact .sndR (ih hs)
  | rcvR _ ih => exact .rcvR (ih hs)
  | callR _ ih => exact .callR (ih hs)

theorem after_rcvL {b x : B} (h : Sched (.rcv b :: σ) τ c (x :: d)) : x = b ∧ Sched σ τ c d := by
  generalize hs : Evt.rcv b :: σ = s at h
  generalize hd : x :: d = d' at h
  induction h generalizing d with
  | nil => cases hs
  | sndL _ _ => cases hs
  | rcvL h _ =>
    cases hs
    cases hd
    exact ⟨rfl, h⟩
  | callL _ _ => cases hs
  | @sndR y _ _ _ d'' _ ih =>
    obtain ⟨e, h'⟩ := ih (d := d ++ [y]) hs (by rw [← hd]; rfl)
    exact ⟨e, .sndR h'⟩
  | rcvR _ ih =>
    obtain ⟨e, h'⟩ := ih hs hd
    exact ⟨e, .rcvR h'⟩
  | callR _ ih =>
    obtain ⟨e, h'⟩ := ih hs hd
    exact ⟨e, .callR h'⟩

theorem after_callL {e : E₁} (h : Sched (.call e :: σ) τ c d) : Sched σ τ c d := by
  generalize hs : Evt.call e :: σ = s at h
  induction h with
  | nil => cases hs
  | sndL _ _ => cases hs
  | rcvL _ _ => cases hs
  | callL h _ =>
    cases hs
    exact h
  | sndR _ ih => exact .sndR (ih hs)
  | rcvR _ ih => exact .rcvR (ih hs)
  | callR _ ih => exact .callR (ih hs)

variable {bs : List B}

theorem after_sendsL (h : Sched (sends bs ++ σ) τ c d) : Sched σ τ (c ++ bs) d := by
  induction bs generalizing c with
  | nil => simpa using h
  | cons b bs ih => simpa using ih (after_sndL h)

theorem after_receivesL (h : Sched (receives bs ++ σ) τ c (bs ++ d)) : Sched σ τ c d := by
  induction bs with
  | nil => exact h
  | cons b bs ih => exact ih (after_rcvL h).2

theorem after_callsL {es : List E₁} (h : Sched (es.map .call ++ σ) τ c d) : Sched σ τ c d := by
  induction es with
  | nil => exact h
  | cons e es ih => exact ih (after_callL h)

/-! ### The order in which a protocol is scheduled -/

theorem sendsL (h : Sched σ τ (c ++ bs) d) : Sched (sends bs ++ σ) τ c d := by
  induction bs generalizing c with
  | nil => simpa using h
  | cons b bs ih => exact .sndL (ih (by simpa using h))

theorem receivesL (h : Sched σ τ c d) : Sched (receives bs ++ σ) τ c (bs ++ d) := by
  induction bs with
  | nil => exact h
  | cons b bs ih => exact .rcvL ih

theorem sendsR (h : Sched σ τ c (d ++ bs)) : Sched σ (sends bs ++ τ) c d :=
  (sendsL h.symm).symm

end Sched

/-! ## 4. Every interleaving of two fitting programs ends -/

section Completes

variable {ε₁ α₁ ε₂ α₂ : Type} {R₁ : E₁ → Type} {R₂ : E₂ → Type}
  {ok₁ : (e : E₁) → R₁ e → Prop} {ok₂ : (e : E₂) → R₂ e → Prop}

/-- The state in which both parties have ended, with the calls of their scripts made. -/
structure Final (r₁ : Except ε₁ α₁) (r₂ : Except ε₂ α₂) (l : List E₁) (m : List E₂)
    (n : Net B E₁ R₁ ε₁ α₁ E₂ R₂ ε₂ α₂) : Prop where
  left : n.left = Proc.ofExcept r₁
  right : n.right = Proc.ofExcept r₂
  leftLog : n.leftLog = l
  rightLog : n.rightLog = m

section Recursion

variable {r : Except ε α}

/-- A program that follows `σ` can move, or stands before a receive with nothing to read. -/
def Ready (ok : (e : E) → R e → Prop) (p : IoProc B E R ε α) (σ : List (Evt B E)) : Prop :=
  ∀ d, (∃ p' d' out cl, Move ok p d p' d' out cl) ∨ (d = [] ∧ ∃ b σ', σ = .rcv b :: σ')

/-- Every move of `p` takes the events it performs off the front of `σ` and leaves `X`. -/
def MovesInto (ok : (e : E) → R e → Prop) (X : IoProc B E R ε α → List (Evt B E) → Prop)
    (p : IoProc B E R ε α) (σ : List (Evt B E)) : Prop :=
  ∀ d unread rest p' d' out cl, incoming σ ++ unread = d ++ rest → Move ok p d p' d' out cl →
    ∃ bs σ', d = bs ++ d' ∧ σ = receives bs ++ (sends out ++ (cl.map .call ++ σ')) ∧ X p' σ'

/-- Recursion over the moves of a program that follows a script. -/
theorem Follows.moves_rec {X : IoProc B E R ε α → List (Evt B E) → Prop}
    (hdone : X (Proc.ofExcept r) [])
    (hstep : ∀ p σ, Follows ok p σ r → Ready ok p σ → MovesInto ok X p σ → X p σ)
    {p : IoProc B E R ε α} {σ : List (Evt B E)} (h : Follows ok p σ r) : X p σ := by
  induction h with
  | ret a => exact hdone
  | fail e => exact hdone
  | @readByte k b σ r h ih =>
    refine hstep _ _ (.readByte h) (fun d => ?_) fun d unread rest p' d' out cl hd hm => ?_
    · cases d with
      | nil => exact .inr ⟨rfl, b, σ, rfl⟩
      | cons x d => exact .inl ⟨_, _, _, _, .readByte k x d⟩
    · cases hm with
      | readByte _ x _ =>
        have hx : b = x := (List.cons.inj hd).1
        subst hx
        exact ⟨[b], σ, rfl, rfl, ih hdone hstep⟩
  | writeAll h ih =>
    refine hstep _ _ (.writeAll h) (fun d => .inl ⟨_, _, _, _, .writeAll _ _ d⟩)
      fun d unread rest p' d' out cl _ hm => ?_
    cases hm with
    | writeAll => exact ⟨[], _, rfl, rfl, ih hdone hstep⟩
  | @nextBuffer take k bs σ r hbs htake h ih =>
    refine hstep _ _ (.nextBuffer hbs htake h) (fun d => ?_) fun d unread rest p' d' out cl hd hm => ?_
    · cases d with
      | nil =>
        cases bs with
        | nil => exact absurd rfl hbs
        | cons b bs => exact .inr ⟨rfl, b, _, rfl⟩
      | cons x d =>
        refine .inl ⟨k (.ok (x :: d)), (x :: d).drop (take (x :: d)) ++ [], [], [], ?_⟩
        have hm : Move ok _ _ _ _ _ _ := Move.nextBuffer take k (x :: d) [] nofun
        simpa only [List.append_nil] using hm
    · cases hm with
      | nextBuffer _ _ piece rest' hne =>
        rw [incoming_receives, List.append_assoc] at hd
        rw [List.append_assoc] at hd
        obtain ⟨h1, h2⟩ := htake piece (rest' ++ rest) (incoming σ ++ unread) hne hd.symm
        refine ⟨piece.take (take piece), _, ?_, ?_, ih piece (rest' ++ rest) _ hne hd.symm hdone hstep⟩
        · rw [← List.append_assoc, List.take_append_drop]
        · have htk : piece.take (take piece) = bs.take (take piece) := by
            have := congrArg (List.take (take piece)) hd.symm
            rwa [List.take_append_of_le_length h2, List.take_append_of_le_length h1] at this
          rw [htk]
          simp only [sends, receives, List.map_nil, List.nil_append, ← List.append_assoc,
            ← List.map_append, List.take_append_drop]
  | call hok h ih =>
    obtain ⟨a, ha⟩ := hok
    refine hstep _ _ (.call ⟨a, ha⟩ h) (fun d => .inl ⟨_, _, _, _, .call _ _ a d ha⟩)
      fun d unread rest p' d' out cl _ hm => ?_
    cases hm with
    | call _ _ a' _ ha' => exact ⟨[], _, rfl, rfl, ih a' ha' hdone hstep⟩
  | turn h ih =>
    refine hstep _ _ (.turn h) (fun d => .inl ⟨_, _, _, _, .turn _ _ _ d⟩)
      fun d unread rest p' d' out cl _ hm => ?_
    cases hm with
    | turn => exact ⟨[], _, rfl, rfl, ih hdone hstep⟩

end Recursion

theorem Sched.after_moveL {σ σ' : List (Evt B E₁)} {τ : List (Evt B E₂)} {bs out c d d' : List B}
    {cl : List E₁} (hd : d = bs ++ d')
    (hσ : σ = receives bs ++ (sends out ++ (cl.map .call ++ σ'))) (h : Sched σ τ c d) :
    Sched σ' τ (c ++ out) d' := by
  subst hd hσ
  exact Sched.after_callsL (Sched.after_sendsL (Sched.after_receivesL h))

theorem calls_move (bs out : List B) (cl : List E) (σ : List (Evt B E)) :
    calls (receives bs ++ (sends out ++ (cl.map .call ++ σ))) = cl ++ calls σ := by
  have : ∀ es : List E, calls (es.map .call : List (Evt B E)) = es := by
    intro es
    induction es with
    | nil => rfl
    | cons e es ih => simp [calls, ih]
  simp [this]

/-- From a state of the pair every run ends in `Final`. -/
abbrev EndsFrom (ok₁ : (e : E₁) → R₁ e → Prop) (ok₂ : (e : E₂) → R₂ e → Prop)
    (r₁ : Except ε₁ α₁) (r₂ : Except ε₂ α₂) (p : IoProc B E₁ R₁ ε₁ α₁) (σ : List (Evt B E₁))
    (q : IoProc B E₂ R₂ ε₂ α₂) (τ : List (Evt B E₂)) : Prop :=
  ∀ c d l m, Sched σ τ c d →
    Ends (Net.Step ok₁ ok₂) (Final r₁ r₂ (l ++ calls σ) (m ++ calls τ)) ⟨p, q, c, d, l, m⟩

theorem movesInto_ofExcept {α ε : Type} {R : E → Type} {ok : (e : E) → R e → Prop}
    {X : IoProc B E R ε α → List (Evt B E) → Prop} (r : Except ε α) (σ : List (Evt B E)) :
    MovesInto ok X (Proc.ofExcept r) σ := by
  intro d unread rest p' d' out cl _ hm
  cases r <;> cases hm

variable {p : IoProc B E₁ R₁ ε₁ α₁} {q : IoProc B E₂ R₂ ε₂ α₂} {r₁ : Except ε₁ α₁}
  {r₂ : Except ε₂ α₂}

theorem ends_step {σ : List (Evt B E₁)} {τ : List (Evt B E₂)}
    (hp : Ready ok₁ p σ ∨ (σ = [] ∧ p = Proc.ofExcept r₁))
    (hq : Ready ok₂ q τ ∨ (τ = [] ∧ q = Proc.ofExcept r₂))
    (hL : MovesInto ok₁ (fun p' σ' => EndsFrom ok₁ ok₂ r₁ r₂ p' σ' q τ) p σ)
    (hR : MovesInto ok₂ (fun q' τ' => EndsFrom ok₁ ok₂ r₁ r₂ p σ q' τ') q τ) :
    EndsFrom ok₁ ok₂ r₁ r₂ p σ q τ := by
  intro c d l m h
  refine .intro _ (fun n' hn => ?_) ?_
  · cases hn with
    | left _ _ _ _ _ _ hm =>
      obtain ⟨unread, hin⟩ := h.incoming_eq
      obtain ⟨bs, σ', hd, hσ, hE⟩ := hL _ _ _ _ _ _ _ hin hm
      have hc : calls σ = _ ++ calls σ' := hσ ▸ calls_move bs _ _ σ'
      rw [hc, ← List.append_assoc]
      exact hE _ _ _ m (h.after_moveL hd hσ)
    | right _ _ _ _ _ _ hm =>
      obtain ⟨unread, hin⟩ := h.symm.incoming_eq
      obtain ⟨bs, τ', hd, hτ, hE⟩ := hR _ _ _ _ _ _ _ hin hm
      have hc : calls τ = _ ++ calls τ' := hτ ▸ calls_move bs _ _ τ'
      rw [hc, ← List.append_assoc]
      exact hE _ _ l _ (h.symm.after_moveL hd hτ).symm
  · rcases hp with hp | ⟨rfl, rfl⟩
    · rcases hp d with ⟨p', d', out, cl, hm⟩ | ⟨rfl, b, σ', rfl⟩
      · exact .inl ⟨_, .left _ _ _ _ _ _ hm⟩
      · -- the left party waits: the right one must be able to move
        rcases hq with hq | ⟨rfl, rfl⟩
        · rcases hq c with ⟨q', c', out, cl, hm⟩ | ⟨rfl, b', τ', rfl⟩
          · exact .inl ⟨_, .right _ _ _ _ _ _ hm⟩
          · nomatch h
        · exact absurd h.incoming_eq (by simp [incoming, outgoing])
    · rcases hq with hq | ⟨rfl, rfl⟩
      · rcases hq c with ⟨q', c', out, cl, hm⟩ | ⟨rfl, b', τ', rfl⟩
        · exact .inl ⟨_, .right _ _ _ _ _ _ hm⟩
        · exact absurd h.symm.incoming_eq (by simp [incoming, outgoing])
      · cases h
        exact .inr ⟨rfl, rfl, by simp [calls], by simp [calls]⟩

/-- Every interleaving of two programs whose scripts fit ends, each with the result and the
    calls of its script. -/
theorem session_ends {σ : List (Evt B E₁)} {τ : List (Evt B E₂)} (hp : Follows ok₁ p σ r₁)
    (hq : Follows ok₂ q τ r₂) : EndsFrom ok₁ ok₂ r₁ r₂ p σ q τ := by
  -- outside: the moves of the left party; inside: those of the right one
  refine Follows.moves_rec (X := fun p σ => ∀ q τ, Follows ok₂ q τ r₂ →
    EndsFrom ok₁ ok₂ r₁ r₂ p σ q τ) (fun q τ hq => ?_) (fun p σ _ hr hL q τ hq => ?_) hp q τ hq
  · refine Follows.moves_rec ?_ (fun q τ _ hr hR => ?_) hq
    · exact ends_step (.inr ⟨rfl, rfl⟩) (.inr ⟨rfl, rfl⟩) (movesInto_ofExcept _ _)
        (movesInto_ofExcept _ _)
    · exact ends_step (.inr ⟨rfl, rfl⟩) (.inl hr) (movesInto_ofExcept _ _) hR
  · have hL' : ∀ q τ, Follows ok₂ q τ r₂ →
        MovesInto ok₁ (fun p' σ' => EndsFrom ok₁ ok₂ r₁ r₂ p' σ' q τ) p σ := by
      intro q τ hq d unread rest p' d' out cl hd hm
      obtain ⟨bs, σ', h1, h2, h3⟩ := hL d unread rest p' d' out cl hd hm
      exact ⟨bs, σ', h1, h2, h3 q τ hq⟩
    refine Follows.moves_rec ?_ (fun q τ hq hr' hR => ?_) hq
    · exact ends_step (.inl hr) (.inr ⟨rfl, rfl⟩) (hL' _ _ (follows_ofExcept _))
        (movesInto_ofExcept _ _)
    · exact ends_step (.inl hr) (.inl hr') (hL' q τ hq) hR

/-- Two programs whose scripts fit complete over empty channels, under every interleaving. -/
theorem session_completes {σ : List (Evt B E₁)} {τ : List (Evt B E₂)} (hp : Follows ok₁ p σ r₁)
    (hq : Follows ok₂ q τ r₂) (h : Sched σ τ [] []) :
    Completes (Net.Step ok₁ ok₂) (Final r₁ r₂ (calls σ) (calls τ)) { left := p, right := q } :=
  (session_ends hp hq [] [] [] [] h).completes

end Completes

end Hapcli.Process
