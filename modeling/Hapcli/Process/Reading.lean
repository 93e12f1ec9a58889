/-
  Subject:   PROGRAMS THAT ONLY READ: stream parsers.

  `Reads p bs r`: `p` takes exactly the symbols `bs` off its channel and ends with `r`. One
  relation serves both directions. Forwards it gives the script of a parser on an encoding
  (`Reads.follows`) and, for a program that only reads (`ReadOnly`), what it does on a proper
  prefix (`Reads.starved`: it fails with the channel's error). Backwards, `run_readOnly` says that
  every run of a program that only reads is a `Reads`, so whatever a parser accepted, inversion of
  `Reads` tells what it had read.
-/
import Hapcli.Process.Exec
import Hapcli.Process.Safety

namespace Hapcli.Process

variable {B E : Type} {R : E → Type} {ε α β σ : Type}

/-! ## 1. What a parser reads -/

/-- **`p` reads exactly `bs` and ends with `r`.** -/
inductive Reads : IoProc B E R ε α → List B → Except ε α → Prop where
  | ret (a : α) : Reads (.ret a) [] (.ok a)
  | fail (e : ε) : Reads (.fail e) [] (.error e)
  | readByte {k : Except ε B → IoProc B E R ε α} {b : B} {bs : List B} {r : Except ε α}
      (h : Reads (k (.ok b)) bs r) : Reads (.act .readByte k) (b :: bs) r
  | turn {σ β : Type} {body : σ → IoProc B E R ε (Turn σ β)} {s : σ} {k : β → IoProc B E R ε α}
      {bs : List B} {r : Except ε α} (h : Reads (Proc.unfold body s k) bs r) :
      Reads (.iter body s k) bs r

variable {a : α} {b : β} {body : σ → IoProc B E R ε (Turn σ β)} {bs cs rest : List B}
  {f : α → IoProc B E R ε β} {host : Host E R ε} {k : B → IoProc B E R ε α} {n : Nat}
  {p : IoProc B E R ε α} {r : Except ε α} {s : σ}

theorem Reads.bind_error {e : ε} (hp : Reads p bs (.error e)) : Reads (p.bind f) bs (.error e) := by
  generalize hr : Except.error e = r at hp
  induction hp with
  | ret a => cases hr
  | fail e' =>
    cases hr
    exact .fail e
  | readByte _ ih => exact .readByte (ih hr)
  | turn _ ih =>
    refine .turn ?_
    rw [← Proc.unfold_bind]
    exact ih hr

theorem Reads.bind {r : Except ε β} (hp : Reads p bs (.ok a)) (hf : Reads (f a) cs r) :
    Reads (p.bind f) (bs ++ cs) r := by
  generalize hr : Except.ok a = r' at hp
  induction hp with
  | ret b =>
    cases hr
    exact hf
  | fail e => cases hr
  | readByte _ ih => exact .readByte (ih hr)
  | turn _ ih =>
    refine .turn ?_
    rw [← Proc.unfold_bind]
    exact ih hr

theorem reads_of_eq {q : IoProc B E R ε α} (h : p = q) (hq : Reads q bs r) : Reads p bs r := h ▸ hq

theorem reads_bind_inv {r : Except ε β} (h : Reads (p.bind f) bs r) :
    (∃ a bs₁ bs₂, bs = bs₁ ++ bs₂ ∧ Reads p bs₁ (.ok a) ∧ Reads (f a) bs₂ r) ∨
      ∃ e, r = .error e ∧ Reads p bs (.error e) := by
  generalize hq : p.bind f = q at h
  induction h generalizing p with
  | ret b =>
    cases p with
    | ret a => exact .inl ⟨a, [], [], rfl, .ret a, reads_of_eq hq (.ret b)⟩
    | fail e => cases hq
    | act op k => cases hq
    | iter body s k => cases hq
  | fail e =>
    cases p with
    | ret a => exact .inl ⟨a, [], [], rfl, .ret a, reads_of_eq hq (.fail e)⟩
    | fail e =>
      cases hq
      exact .inr ⟨e, rfl, .fail e⟩
    | act op k => cases hq
    | iter body s k => cases hq
  | @readByte k' b bs r h ih =>
    cases p with
    | ret a => exact .inl ⟨a, [], _, rfl, .ret a, reads_of_eq hq (.readByte h)⟩
    | fail e => cases hq
    | act op k =>
      cases hq
      rcases ih rfl with ⟨a, bs₁, bs₂, rfl, h1, h2⟩ | ⟨e, rfl, h1⟩
      · exact .inl ⟨a, b :: bs₁, bs₂, rfl, .readByte h1, h2⟩
      · exact .inr ⟨e, rfl, .readByte h1⟩
    | iter body s k => cases hq
  | turn h ih =>
    cases p with
    | ret a => exact .inl ⟨a, [], _, rfl, .ret a, reads_of_eq hq (.turn h)⟩
    | fail e => cases hq
    | act op k => cases hq
    | iter body s k =>
      cases hq
      rcases ih (Proc.unfold_bind _ _ _ _) with ⟨a, bs₁, bs₂, rfl, h1, h2⟩ | ⟨e, rfl, h1⟩
      · exact .inl ⟨a, bs₁, bs₂, rfl, .turn h1, h2⟩
      · exact .inr ⟨e, rfl, .turn h1⟩

theorem reads_bind_ok (h : Reads (p.bind f) bs (.ok b)) :
    ∃ a bs₁ bs₂, bs = bs₁ ++ bs₂ ∧ Reads p bs₁ (.ok a) ∧ Reads (f a) bs₂ (.ok b) := by
  rcases reads_bind_inv h with h | ⟨e, he, _⟩
  · exact h
  · cases he

theorem Reads.read {b : B} (h : Reads (k b) bs r) :
    Reads (IoProc.readByte.bind k) (b :: bs) r := .readByte h

theorem reads_read_inv (h : Reads (IoProc.readByte.bind k) bs r) :
    ∃ b cs, bs = b :: cs ∧ Reads (k b) cs r := by
  cases h with
  | readByte h => exact ⟨_, _, rfl, h⟩

theorem reads_ret_inv {b : α} (h : Reads (.ret a : IoProc B E R ε α) bs (.ok b)) :
    bs = [] ∧ a = b := by
  cases h
  exact ⟨rfl, rfl⟩

theorem reads_fail_inv {e : ε} {b : α} : ¬ Reads (.fail e : IoProc B E R ε α) bs (.ok b) := by
  intro h
  cases h

theorem Reads.again {s' : σ} (bs : List B) {r : Except ε β}
    (hb : Reads (body s) bs (.ok (.again s'))) (hl : Reads (Proc.loop body s') cs r) :
    Reads (Proc.loop body s) (bs ++ cs) r :=
  .turn (Reads.bind hb hl)

theorem Reads.leave (hb : Reads (body s) bs (.ok (.done b))) :
    Reads (Proc.loop body s) bs (.ok b) := by
  have h : Reads (Proc.loop body s) (bs ++ []) (.ok b) := .turn (Reads.bind hb (.ret b))
  rwa [List.append_nil] at h

theorem Reads.map (f : α → β) (h : Reads p bs r) :
    Reads (p.bind fun a => .ret (f a)) bs (r.map f) := by
  cases r with
  | ok a =>
    have := Reads.bind (f := fun a => .ret (f a)) h (Reads.ret (f a))
    rwa [List.append_nil] at this
  | error e => exact h.bind_error

theorem Reads.last {r : Except ε β} (hb : Reads (body s) bs (r.map .done)) :
    Reads (Proc.loop body s) bs r := by
  cases r with
  | ok b => exact Reads.leave hb
  | error e => exact .turn (Reads.bind_error hb)

/-- A parser reads one thing: of two readings of the same tape, both take the same symbols. -/
theorem Reads.det {bs' rest' : List B} {r' : Except ε α} (h : Reads p bs r) (h' : Reads p bs' r')
    (htape : bs ++ rest = bs' ++ rest') : bs = bs' ∧ r = r' := by
  induction h generalizing bs' with
  | ret a =>
    cases h'
    exact ⟨rfl, rfl⟩
  | fail e =>
    cases h'
    exact ⟨rfl, rfl⟩
  | readByte _ ih =>
    cases h' with
    | readByte h' =>
      obtain ⟨hfirst, hlater⟩ := List.cons.inj htape
      obtain rfl := hfirst
      obtain ⟨rfl, rfl⟩ := ih h' hlater
      exact ⟨rfl, rfl⟩
  | turn _ ih =>
    cases h' with
    | turn h' => exact ih h' htape

theorem Reads.again_iff {s' : σ} (hb : Reads (body s) bs (.ok (.again s'))) :
    Reads (Proc.loop body s) (bs ++ cs) (.ok b) ↔ Reads (Proc.loop body s') cs (.ok b) := by
  refine ⟨fun h => ?_, Reads.again bs hb⟩
  generalize htape : bs ++ cs = tape at h
  cases h with
  | turn h =>
    obtain ⟨f, bs₁, bs₂, rfl, h1, h2⟩ := reads_bind_ok h
    obtain ⟨rfl, hf⟩ := hb.det h1 htape
    cases hf
    rw [List.append_cancel_left htape]
    exact h2

/-- The history of reading `bs`. -/
def readEvents (bs : List B) : Proc.Hist (IoOp B E) (IoOp.Ans ε R) :=
  bs.map fun b => ⟨.readByte, .ok b⟩

theorem Reads.run (h : Reads p bs r) : ∃ n, Proc.Run n p (readEvents bs) (Proc.ofExcept r) := by
  induction h with
  | ret a => exact ⟨0, .here _⟩
  | fail e => exact ⟨0, .here _⟩
  | @readByte k b bs r _ ih =>
    obtain ⟨n, hn⟩ := ih
    refine ⟨n + 1, ?_⟩
    rw [readEvents, List.map_cons]
    exact .act _ hn
  | turn _ ih =>
    obtain ⟨n, hn⟩ := ih
    exact ⟨n + 1, .turn hn⟩

theorem reads_of_run (h : Proc.Run n p (readEvents bs) (Proc.ofExcept r)) : Reads p bs r := by
  induction n generalizing p bs with
  | zero =>
    generalize hh : (readEvents bs : Proc.Hist (IoOp B E) (IoOp.Ans ε R)) = l at h
    cases h
    obtain rfl : bs = [] := List.map_eq_nil_iff.mp hh
    cases r with
    | ok a => exact .ret a
    | error e => exact .fail e
  | succ n ih =>
    generalize hh : (readEvents bs : Proc.Hist (IoOp B E) (IoOp.Ans ε R)) = l at h
    generalize hq : (Proc.ofExcept r : IoProc B E R ε α) = q at h
    cases h with
    | act a hr =>
      cases bs with
      | nil => cases hh
      | cons b bs =>
        cases hh
        subst hq
        exact .readByte (ih hr)
    | turn hr =>
      subst hh hq
      exact .turn (ih hr)

/-- Induction over the turns of a loop that ended well. -/
theorem reads_loop_ok {motive : σ → List B → Prop}
    (hagain : ∀ s s' bs cs, Reads (body s) bs (.ok (.again s')) → motive s' cs →
      motive s (bs ++ cs)) (hdone : ∀ s bs, Reads (body s) bs (.ok (.done b)) → motive s bs)
    (h : Reads (Proc.loop body s) bs (.ok b)) : motive s bs := by
  obtain ⟨n, hn⟩ := h.run
  -- on the number of steps: the turns that follow the first make a shorter run of the same loop
  induction n using Nat.strongRecOn generalizing s bs with
  | ind n ih =>
    generalize hh : (readEvents bs : Proc.Hist (IoOp B E) (IoOp.Ans ε R)) = l at hn
    cases hn with
    | turn hr =>
      rcases Proc.run_bind_inv hr with ⟨p', _, hne, hp'⟩ | ⟨f, n₁, n₂, h₁, h₂, rfl, rfl, h1, h2⟩
      · cases p' with
        | ret a => exact absurd rfl (hne a)
        | fail e => cases hp'
        | act op k => cases hp'
        | iter body s k => cases hp'
      · obtain ⟨bs₁, bs₂, rfl, rfl, rfl⟩ := List.map_eq_append_iff.mp hh
        have hb : Reads (body s) bs₁ (.ok f) := reads_of_run h1
        cases f with
        | again s' => exact hagain s s' bs₁ bs₂ hb (ih n₂ (by omega) (reads_of_run h2) h2)
        | done b' =>
          obtain ⟨rfl, rfl⟩ := reads_ret_inv (reads_of_run h2)
          rw [List.append_nil]
          exact hdone s bs₁ hb

/-! ## 2. Forwards -/

theorem Reads.follows {ok : (e : E) → R e → Prop} (h : Reads p bs r) :
    Follows ok p (receives bs) r := by
  induction h with
  | ret a => exact .ret a
  | fail e => exact .fail e
  | readByte _ ih => exact .readByte ih
  | turn _ ih => exact .turn ih

theorem Reads.exec (h : Reads p bs r) (rest out : List B) :
    ∃ n, Process.exec host n p ⟨bs ++ rest, out⟩ = some (r, ⟨rest, out⟩) := by
  induction h with
  | ret a => exact ⟨0, rfl⟩
  | fail e => exact ⟨0, rfl⟩
  | readByte _ ih =>
    obtain ⟨n, hn⟩ := ih
    exact ⟨n, by cases n <;> exact hn⟩
  | turn _ ih =>
    obtain ⟨n, hn⟩ := ih
    exact ⟨n + 1, hn⟩

/-! ## 3. Programs that only read -/

/-- `p` does nothing but read, every turn of a loop of its begins with a read, and it gives up on
    an error of its channel. -/
inductive ReadOnly : {α : Type} → IoProc B E R ε α → Prop where
  | ret {α : Type} (a : α) : ReadOnly (.ret a)
  | fail {α : Type} (e : ε) : ReadOnly (.fail e : IoProc B E R ε α)
  | readByte {α : Type} {k : Except ε B → IoProc B E R ε α}
      (heof : ∀ e, k (.error e) = .fail e) (h : ∀ b, ReadOnly (k (.ok b))) :
      ReadOnly (.act .readByte k)
  | iter {α σ β : Type} {body : σ → IoProc B E R ε (Turn σ β)} {s : σ}
      {k : β → IoProc B E R ε α} (hfirst : ∀ s, ∃ k, body s = .act .readByte k)
      (hb : ∀ s, ReadOnly (body s)) (hk : ∀ b, ReadOnly (k b)) : ReadOnly (.iter body s k)

theorem ReadOnly.bind (hp : ReadOnly p) (hf : ∀ a, ReadOnly (f a)) : ReadOnly (p.bind f) := by
  induction hp with
  | ret a => exact hf a
  | fail e => exact .fail e
  | readByte heof _ ih => exact .readByte (fun e => by rw [heof]; rfl) fun b => ih b hf
  | iter hfirst hb _ _ ih => exact .iter hfirst hb fun b => ih b hf

theorem readOnly_read (h : ∀ b, ReadOnly (k b)) :
    ReadOnly (IoProc.readByte.bind k) := .readByte (fun _ => rfl) h

theorem readOnly_loop (body : σ → IoProc B E R ε (Turn σ β))
    (hfirst : ∀ s, ∃ k, body s = .act .readByte k) (h : ∀ s, ReadOnly (body s)) (s : σ) :
    ReadOnly (Proc.loop body s) := .iter hfirst h fun b => .ret b

theorem readOnly_unfold {k : β → IoProc B E R ε α} (hfirst : ∀ s, ∃ k, body s = .act .readByte k)
    (hb : ∀ s, ReadOnly (body s)) (hk : ∀ b, ReadOnly (k b)) : ReadOnly (Proc.unfold body s k) := by
  refine ReadOnly.bind (hb s) fun r => ?_
  cases r with
  | again s' => exact .iter hfirst hb hk
  | done b => exact hk b

theorem ReadOnly.grazes (h : ReadOnly p) :
    Grazes host 1 p (fun _ => 1) ∧
      ∀ k, p = .act .readByte k → Grazes host 0 p (fun _ => 1) := by
  induction h with
  | ret a => exact ⟨grazes_ret (Nat.le_refl 1), nofun⟩
  | fail e => exact ⟨grazes_fail, nofun⟩
  | @readByte α k heof _ ih =>
    have h0 : Grazes host 0 (.act .readByte k : IoProc B E R ε α) (fun _ => 1) := by
      have hk : (Proc.act .readByte k : IoProc B E R ε α) =
          IoProc.readByte.bind fun b => k (.ok b) := by
        unfold IoProc.readByte
        rw [Proc.act_bind]
        congr 1
        funext r
        cases r with
        | ok b => rfl
        | error e => exact heof e
      rw [hk]
      exact grazes_readByte fun b => (ih b).1
    exact ⟨h0.mono (Nat.zero_le 1), fun _ _ => h0⟩
  | @iter α σ β body s k hfirst _ _ ihb ihk =>
    refine ⟨?_, nofun⟩
    have hl : Grazes host 1 (Proc.loop body s) (fun _ => 1) := by
      refine grazes_loop (fun s => ?_) s
      obtain ⟨k, hk⟩ := hfirst s
      have := (ihb s).2 k hk
      intro γ f n hf
      refine this γ f n fun r m inp out hm hl => hf r m inp out hm ?_
      cases r <;> exact hl
    exact grazes_bind hl fun b => (ihk b).1

theorem ReadOnly.reads_of_execWith (hp : ReadOnly p)
    {turn : IoProc B E R ε α → Tape B → Option (Outcome B ε α)} {out out' : List B}
    (ht : ∀ p inp, ReadOnly p → turn p ⟨inp, out⟩ = some (.ok a, ⟨rest, out'⟩) →
      ∃ bs, inp = bs ++ rest ∧ Reads p bs (.ok a)) {inp : List B}
    (h : execWith host turn p ⟨inp, out⟩ = some (.ok a, ⟨rest, out'⟩)) :
    ∃ bs, inp = bs ++ rest ∧ Reads p bs (.ok a) := by
  induction hp generalizing inp with
  | ret a =>
    cases h
    exact ⟨[], rfl, .ret a⟩
  | fail e => cases h
  | readByte heof _ ih =>
    cases inp with
    | nil =>
      simp only [execWith, heof] at h
      cases h
    | cons b inp =>
      obtain ⟨bs, rfl, hbs⟩ := ih b ht h
      exact ⟨b :: bs, rfl, .readByte hbs⟩
  | iter hfirst hb hk =>
    obtain ⟨bs, rfl, hbs⟩ := ht _ _ (readOnly_unfold hfirst hb hk) h
    exact ⟨bs, rfl, .turn hbs⟩

theorem ReadOnly.reads_of_exec (hp : ReadOnly p) {inp out out' : List B}
    (h : Process.exec host n p ⟨inp, out⟩ = some (.ok a, ⟨rest, out'⟩)) :
    ∃ bs, inp = bs ++ rest ∧ Reads p bs (.ok a) := by
  induction n generalizing p inp with
  | zero => exact hp.reads_of_execWith (fun _ _ _ hnone => by cases hnone) h
  | succ n ih => exact hp.reads_of_execWith (fun _ _ hq hrun => ih hq hrun) h

/-- On a proper prefix of what it reads, a parser runs into the end of the tape. -/
theorem Reads.starved (h : Reads p bs r) (hp : ReadOnly p) {pre post : List B} {b : B}
    (hbs : bs = pre ++ b :: post) (out : List B) :
    ∃ n, Process.exec host n p ⟨pre, out⟩ = some (.error host.onEof, ⟨[], out⟩) := by
  induction h generalizing pre with
  | ret a => simp at hbs
  | fail e => simp at hbs
  | readByte _ ih =>
    cases hp with
    | readByte heof hk =>
      cases pre with
      | nil => exact ⟨0, by simp [Process.exec, execWith, heof]⟩
      | cons c pre =>
        obtain ⟨rfl, htail⟩ := List.cons.inj hbs
        obtain ⟨n, hn⟩ := ih (hk _) htail
        exact ⟨n, by cases n <;> exact hn⟩
  | turn _ ih =>
    cases hp with
    | iter hfirst hb hk =>
      obtain ⟨n, hn⟩ := ih (readOnly_unfold hfirst hb hk) hbs
      exact ⟨n + 1, hn⟩

/-! ## 4. Backwards -/

/-- The history of a read that failed. -/
def readFailed (e : ε) : Proc.Hist (IoOp B E) (IoOp.Ans ε R) := [⟨.readByte, .error e⟩]

theorem run_readOnly {q : IoProc B E R ε α} {h : Proc.Hist (IoOp B E) (IoOp.Ans ε R)}
    (hp : ReadOnly p) (hr : Proc.Run n p h q) :
    (∃ bs, h = readEvents bs ∧ ∀ r, q = Proc.ofExcept r → Reads p bs r) ∨
      ∃ bs e, h = readEvents bs ++ readFailed e ∧ q = .fail e := by
  induction hr with
  | here p =>
    refine .inl ⟨[], rfl, fun r hr => ?_⟩
    subst hr
    cases r with
    | ok a => exact .ret a
    | error e => exact .fail e
  | act a hr ih =>
    cases hp with
    | readByte heof hk =>
      cases a with
      | ok b =>
        rcases ih (hk b) with ⟨bs, rfl, h1⟩ | ⟨bs, e, rfl, h1⟩
        · exact .inl ⟨b :: bs, rfl, fun r hr => .readByte (h1 r hr)⟩
        · exact .inr ⟨b :: bs, e, rfl, h1⟩
      | error e =>
        rw [heof] at hr
        cases hr
        exact .inr ⟨[], e, rfl, rfl⟩
  | turn hr ih =>
    cases hp with
    | iter hfirst hb hk =>
      rcases ih (readOnly_unfold hfirst hb hk) with ⟨bs, rfl, h1⟩ | ⟨bs, e, rfl, h1⟩
      · exact .inl ⟨bs, rfl, fun r hr => .turn (h1 r hr)⟩
      · exact .inr ⟨bs, e, rfl, h1⟩

/-- The safety rule for a parser: its postcondition may assume what was read. -/
theorem safe_readOnly {I : Proc.Hist (IoOp B E) (IoOp.Ans ε R) → Prop}
    {Q : Except ε α → Proc.Hist (IoOp B E) (IoOp.Ans ε R) → Prop}
    {h₀ : Proc.Hist (IoOp B E) (IoOp.Ans ε R)} (hp : ReadOnly p)
    (hI : ∀ bs, I (h₀ ++ readEvents bs)) (hIe : ∀ bs e, I (h₀ ++ (readEvents bs ++ readFailed e)))
    (hQ : ∀ bs r, Reads p bs r → Q r (h₀ ++ readEvents bs))
    (hQe : ∀ bs e, Q (.error e) (h₀ ++ (readEvents bs ++ readFailed e))) : Proc.Safe I Q h₀ p := by
  intro n h q hr
  rcases run_readOnly hp hr with ⟨bs, rfl, h1⟩ | ⟨bs, e, rfl, rfl⟩
  · exact ⟨hI bs, fun a ha => hQ bs _ (h1 (.ok a) ha), fun e he => hQ bs _ (h1 (.error e) he)⟩
  · refine ⟨hIe bs e, nofun, fun e' he' => ?_⟩
    cases he'
    exact hQe bs e

theorem safe_writeAll {I P : Proc.Hist (IoOp B E) (IoOp.Ans ε R) → Prop}
    {t : Proc.Hist (IoOp B E) (IoOp.Ans ε R)} (hI : I t) (hw : ∀ r, I (t ++ [⟨.writeAll bs, r⟩]))
    (hP : P (t ++ [⟨.writeAll bs, .ok ()⟩])) :
    Proc.Safe I (Proc.onReturn fun _ => P) t (IoProc.writeAll bs) := by
  refine Proc.safe_act hI fun r => Proc.safe_check (hw r) fun u hu => ?_
  subst hu
  exact hP

/-! ## 5. The calls of a history -/

/-- The calls made in a history. -/
def madeCalls (t : Proc.Hist (IoOp B E) (IoOp.Ans ε R)) : List E :=
  t.filterMap fun e => match e.1 with
    | .call c => some c
    | _ => none

@[simp] theorem madeCalls_nil : madeCalls ([] : Proc.Hist (IoOp B E) (IoOp.Ans ε R)) = [] := rfl

@[simp] theorem madeCalls_append (t u : Proc.Hist (IoOp B E) (IoOp.Ans ε R)) :
    madeCalls (t ++ u) = madeCalls t ++ madeCalls u :=
  List.filterMap_append

@[simp] theorem madeCalls_readEvents (bs : List B) :
    madeCalls (readEvents bs : Proc.Hist (IoOp B E) (IoOp.Ans ε R)) = [] := by
  simp [madeCalls, readEvents]

@[simp] theorem madeCalls_read (r : Except ε B) :
    madeCalls ([⟨.readByte, r⟩] : Proc.Hist (IoOp B E) (IoOp.Ans ε R)) = [] := rfl

@[simp] theorem madeCalls_write (bs : List B) (r : Except ε Unit) :
    madeCalls ([⟨.writeAll bs, r⟩] : Proc.Hist (IoOp B E) (IoOp.Ans ε R)) = [] := rfl

@[simp] theorem madeCalls_call (c : E) (r : R c) :
    madeCalls ([⟨.call c, r⟩] : Proc.Hist (IoOp B E) (IoOp.Ans ε R)) = [c] := rfl

end Hapcli.Process
