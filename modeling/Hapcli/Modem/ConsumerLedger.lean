/-
  Subject:   WHERE THE SERVER'S BYTES GO: an account of every byte `ModemConsumer` was ever given.

  A `Ledger` cuts the bytes that came in into pieces, in order, and says where each piece went: to
  the terminal, to a transfer, among the bytes held back, or nowhere (a control header). A session
  is `Accounted` if there is a ledger whose pieces make up the input and whose shares are what the
  terminal, the transfers and the hold actually have.

  * `accounted_of_tidy` -- **nothing is lost as long as `finish_transfer` finds nothing held back**.
-/
import Hapcli.Modem.Consumer

namespace Hapcli.Modem

open Hapcli.Rust

/-! ## 1. Ledgers -/

/-- Where a piece of the input went. -/
inductive Dest where
  | terminal
  | transfer (handle : Nat)
  | held
  | control
  deriving DecidableEq

/-- Pieces of the input, in order, with their destinations. -/
abbrev Ledger := List (Dest × List UInt8)

/-- All bytes of a ledger. -/
def Ledger.bytes (ledger : Ledger) : List UInt8 := ledger.flatMap (·.2)

/-- What one destination got. -/
def Ledger.share (ledger : Ledger) (dest : Dest) : List UInt8 :=
  ledger.flatMap fun piece => if piece.1 = dest then piece.2 else []

@[simp] theorem Ledger.bytes_nil : Ledger.bytes [] = [] := rfl

@[simp] theorem Ledger.bytes_cons (piece : Dest × List UInt8) (ledger : Ledger) :
    Ledger.bytes (piece :: ledger) = piece.2 ++ Ledger.bytes ledger := List.flatMap_cons

@[simp] theorem Ledger.bytes_append (ledger more : Ledger) :
    Ledger.bytes (ledger ++ more) = Ledger.bytes ledger ++ Ledger.bytes more := List.flatMap_append

@[simp] theorem Ledger.share_nil (dest : Dest) : Ledger.share [] dest = [] := rfl

@[simp] theorem Ledger.share_cons (piece : Dest × List UInt8) (ledger : Ledger) (dest : Dest) :
    Ledger.share (piece :: ledger) dest =
      (if piece.1 = dest then piece.2 else []) ++ Ledger.share ledger dest := List.flatMap_cons

@[simp] theorem Ledger.share_append (ledger more : Ledger) (dest : Dest) :
    Ledger.share (ledger ++ more) dest = Ledger.share ledger dest ++ Ledger.share more dest :=
  List.flatMap_append

/-- A complete ZMODEM hex header that starts no transfer. -/
def ControlHeader (bytes : List UInt8) : Prop :=
  ∃ t p includeXon, zmodemDirection t = none ∧ bytes = encodeHexHeader t p includeXon

/-- What the transfer of a handle was given. -/
def Modems.handedTo (modems : Modems) (handle : Nat) : List UInt8 :=
  ((modems.transfers[handle]?).map (·.handed)).getD []

/-- **Every byte of the input is in exactly one place, in order**; what is in none is a control
    header. -/
def Accounted (session : Session) : Prop :=
  ∃ ledger : Ledger, ledger.bytes = session.input ∧ ledger.share .terminal = session.terminal ∧
    (∀ handle, ledger.share (.transfer handle) = session.modems.handedTo handle) ∧
    ledger.share .held = session.modems.held ∧
    ∀ piece ∈ ledger, piece.1 = .control → ControlHeader piece.2

/-! ## 2. What one call adds -/

/-- A ledger of pieces that are settled: none is held back, what is dropped is a control header. -/
structure Ledger.Settled (ledger : Ledger) : Prop where
  noHeld : ledger.share .held = []
  control : ∀ piece ∈ ledger, piece.1 = .control → ControlHeader piece.2

theorem Ledger.Settled.nil : Ledger.Settled [] := ⟨rfl, nofun⟩

theorem Ledger.Settled.append {ledger more : Ledger} (h : ledger.Settled) (h' : more.Settled) :
    Ledger.Settled (ledger ++ more) := by
  refine ⟨by rw [share_append, h.noHeld, h'.noHeld]; rfl, fun piece hp hc => ?_⟩
  rcases List.mem_append.mp hp with hp | hp
  · exact h.control piece hp hc
  · exact h'.control piece hp hc

theorem Ledger.settled_terminal (bytes : List UInt8) : Ledger.Settled [(.terminal, bytes)] := by
  refine ⟨rfl, fun piece hp hc => ?_⟩
  obtain rfl := List.mem_singleton.mp hp
  cases hc

theorem Ledger.settled_transfer (handle : Nat) (bytes : List UInt8) :
    Ledger.Settled [(.transfer handle, bytes)] := by
  refine ⟨rfl, fun piece hp hc => ?_⟩
  obtain rfl := List.mem_singleton.mp hp
  cases hc

variable {bytes : List UInt8}

theorem Ledger.settled_control (h : ControlHeader bytes) : Ledger.Settled [(.control, bytes)] := by
  refine ⟨rfl, fun piece hp _ => ?_⟩
  obtain rfl := List.mem_singleton.mp hp
  exact h

/-- The tail and a pending start are never held at the same time, and the transfer that is fed
    exists. -/
structure Modems.Sane (modems : Modems) : Prop where
  oneHold : modems.consumer.pending.isSome → modems.consumer.plainTail = []
  fed : ∀ handle, modems.consumer.transferInput = some handle → handle < modems.transfers.length

/-- **What a call has done with `bytes`**: the pieces it settled, with what is held now, are what
    was held before and the new bytes. -/
structure Moved (before after : Modems) (fresh : List UInt8) (events : List ModemConsumerEvent)
    (pieces : Ledger) : Prop where
  conserve : before.held ++ fresh = pieces.bytes ++ after.held
  terminal : pieces.share .terminal = events.flatMap (·.terminal)
  handed : ∀ handle, after.handedTo handle =
    before.handedTo handle ++ pieces.share (.transfer handle)
  settled : pieces.Settled
  sane : after.Sane

section Lemmas

variable {modems : Modems} (bytes : List UInt8)

@[simp] theorem rememberPlainOutput_transfers :
    (modems.rememberPlainOutput bytes).transfers = modems.transfers := by
  unfold Modems.rememberPlainOutput
  split <;> rfl

@[simp] theorem rememberPlainOutput_plainTail :
    (modems.rememberPlainOutput bytes).consumer.plainTail = modems.consumer.plainTail := by
  unfold Modems.rememberPlainOutput
  split <;> rfl

@[simp] theorem rememberPlainOutput_pending :
    (modems.rememberPlainOutput bytes).consumer.pending = modems.consumer.pending := by
  unfold Modems.rememberPlainOutput
  split <;> rfl

@[simp] theorem rememberPlainOutput_transferInput :
    (modems.rememberPlainOutput bytes).consumer.transferInput = modems.consumer.transferInput := by
  unfold Modems.rememberPlainOutput
  split <;> rfl

@[simp] theorem held_rememberPlainOutput :
    (modems.rememberPlainOutput bytes).held = modems.held := by
  simp [Modems.held]

@[simp] theorem handedTo_rememberPlainOutput (handle : Nat) :
    (modems.rememberPlainOutput bytes).handedTo handle = modems.handedTo handle := by
  simp [Modems.handedTo]

@[simp] theorem held_startTransfer (initial : List UInt8) (request : ModemTransferRequest) :
    (modems.startTransfer initial request).held = modems.held := rfl

theorem handedTo_startTransfer (initial : List UInt8) (request : ModemTransferRequest)
    (handle : Nat) :
    (modems.startTransfer initial request).handedTo handle = modems.handedTo handle ++
      if modems.transfers.length = handle then initial else [] := by
  simp only [Modems.handedTo, Modems.startTransfer, List.getElem?_append]
  by_cases hlt : handle < modems.transfers.length
  · simp [hlt, show modems.transfers.length ≠ handle by omega]
  · by_cases heq : modems.transfers.length = handle
    · subst heq
      simp
    · have h1 : 1 ≤ handle - modems.transfers.length := by omega
      simp [hlt, heq, List.getElem?_eq_none (show [ModemTransferState.new initial _].length ≤ _ from h1)]

theorem sane_startTransfer (initial : List UInt8) (request : ModemTransferRequest)
    (h : modems.consumer.pending.isSome → modems.consumer.plainTail = []) :
    (modems.startTransfer initial request).Sane := by
  refine ⟨h, fun handle hh => ?_⟩
  obtain rfl : modems.transfers.length = handle := Option.some.inj hh
  simp [Modems.startTransfer]

theorem zmodemControlPrefixLen_some {protocol : DetectedModemProtocol} {bytes : List UInt8}
    {len : Nat} (h : zmodemControlPrefixLen protocol bytes = some len) :
    ControlHeader (bytes.take len) := by
  unfold zmodemControlPrefixLen at h
  split at h
  · cases h
  · simp only [Option.bind_eq_bind, Option.bind_eq_some_iff] at h
    obtain ⟨header, -, h⟩ := h
    split at h
    · cases h
    · rename_i hdir
      obtain ⟨includeXon, -, h⟩ := List.exists_of_findSome?_eq_some h
      split at h
      · rename_i hpre
        cases h
        refine ⟨header.frameType, header.position, includeXon, by simpa using hdir, ?_⟩
        exact (List.prefix_iff_eq_take.mp (List.isPrefixOf_iff_prefix.mp hpre)).symm
      · cases h

/-- Bytes that begin with a detected start go to one place, or wait. -/
theorem moved_protocolBytes (protocol : DetectedModemProtocol) (bytes : List UInt8)
    (htail : modems.consumer.plainTail = []) (hpending : modems.consumer.pending = none)
    (hinput : modems.consumer.transferInput = none) :
    ∃ pieces, Moved modems (modems.handleProtocolBytes protocol bytes).1 bytes
      (modems.handleProtocolBytes protocol bytes).2 pieces := by
  have hheld : modems.held = [] := by simp [Modems.held, htail, hpending]
  have hsane : ∀ kept, (modems.rememberPlainOutput kept).Sane := fun kept =>
    ⟨fun _ => by rw [rememberPlainOutput_plainTail, htail],
      fun handle h => by rw [rememberPlainOutput_transferInput, hinput] at h; cases h⟩
  unfold Modems.handleProtocolBytes
  split
  · rename_i request _
    refine ⟨[(.transfer modems.transfers.length, bytes)], ?_, rfl, fun handle => ?_,
      Ledger.settled_transfer _ _, sane_startTransfer _ _ fun _ => htail⟩
    · simp [hheld]
    · rw [handedTo_startTransfer]
      simp
  · split
    · refine ⟨[], ?_, rfl, fun handle => ?_, .nil, ⟨fun _ => htail, fun handle h => ?_⟩⟩
      · rw [hheld]
        simp [Modems.held, htail]
      · exact (List.append_nil _).symm
      · rw [hinput] at h
        cases h
    · split
      · rename_i len hlen
        refine ⟨[(.control, bytes.take len), (.terminal, bytes.drop len)], ?_, ?_, fun handle => ?_,
          (Ledger.settled_control (zmodemControlPrefixLen_some hlen)).append
            (Ledger.settled_terminal _), hsane _⟩
        · simp [hheld]
        · dsimp only
          split
          · rename_i hnil
            simp [hnil]
          · simp [ModemConsumerEvent.terminal]
        · simp
      · refine ⟨[(.terminal, bytes)], ?_, ?_, fun handle => ?_, Ledger.settled_terminal _, hsane _⟩
        · simp [hheld]
        · simp [ModemConsumerEvent.terminal]
        · simp

theorem moved_plain (scanBytes detectionBytes : List UInt8) (htail : modems.consumer.plainTail = [])
    (hpending : modems.consumer.pending = none) (hinput : modems.consumer.transferInput = none) :
    ∃ pieces, Moved modems (modems.processPlain scanBytes detectionBytes).1 scanBytes
      (modems.processPlain scanBytes detectionBytes).2 pieces := by
  have hheld : modems.held = [] := by simp [Modems.held, htail, hpending]
  unfold Modems.processPlain
  dsimp only
  split
  · refine ⟨[], ?_, rfl, fun handle => (List.append_nil _).symm, .nil, ⟨fun h => ?_, fun handle h => ?_⟩⟩
    · rw [hheld]
      simp [Modems.held, hpending]
    · simp [hpending] at h
    · simp [hinput] at h
  · generalize scanBytes.length - possibleModemPrefixSuffixLen detectionBytes = split
    refine ⟨[(.terminal, scanBytes.take split)], ?_⟩
    split
    · rename_i request _
      refine ⟨?_, ?_, fun handle => ?_, Ledger.settled_terminal _, sane_startTransfer _ _ fun h => ?_⟩
      · rw [hheld, held_startTransfer, held_rememberPlainOutput]
        simp [Modems.held, hpending]
      · simp [ModemConsumerEvent.terminal]
      · rw [handedTo_startTransfer]
        simp [Modems.handedTo]
      · simp [hpending] at h
    · refine ⟨?_, ?_, fun handle => ?_, Ledger.settled_terminal _, ⟨fun h => ?_, fun handle h => ?_⟩⟩
      · rw [hheld, held_rememberPlainOutput]
        simp [Modems.held, hpending]
      · simp [ModemConsumerEvent.terminal]
      · simp [Modems.handedTo]
      · simp [hpending] at h
      · simp [hinput] at h

theorem moved_detected (scanBytes detectionBytes : List UInt8) (start : DetectedModemStart)
    (htail : modems.consumer.plainTail = []) (hpending : modems.consumer.pending = none)
    (hinput : modems.consumer.transferInput = none) :
    ∃ pieces, Moved modems (modems.processDetected scanBytes detectionBytes start).1 scanBytes
      (modems.processDetected scanBytes detectionBytes start).2 pieces := by
  obtain ⟨pieces, h⟩ := @moved_protocolBytes
    (modems.rememberPlainOutput (detectionBytes.take start.offset)) start.protocol
    (scanBytes.drop start.offset) (by simpa using htail) (by simpa using hpending)
    (by simpa using hinput)
  have hheld : modems.held = [] := by simp [Modems.held, htail, hpending]
  refine ⟨(.terminal, scanBytes.take start.offset) :: pieces, ?_, ?_, fun handle => ?_,
    (Ledger.settled_terminal _).append h.settled, h.sane⟩
  · have hc := h.conserve
    rw [held_rememberPlainOutput, hheld, List.nil_append] at hc
    rw [hheld, Ledger.bytes_cons, List.append_assoc, List.nil_append]
    exact (List.take_append_drop start.offset scanBytes).symm.trans (congrArg _ hc)
  · have ht := h.terminal
    simp only [Modems.processDetected, Ledger.share_cons, if_true, List.flatMap_append, ht]
    congr 1
    split
    · simp [ModemConsumerEvent.terminal]
    · simp [show start.offset = 0 by omega]
  · have hh := h.handed handle
    rw [handedTo_rememberPlainOutput] at hh
    simpa [Modems.processDetected] using hh

theorem moved_process (hsane : modems.Sane) (hinput : modems.consumer.transferInput = none) :
    ∃ pieces, Moved modems (modems.processServerOutput bytes).1 bytes
      (modems.processServerOutput bytes).2 pieces := by
  by_cases hb : bytes = []
  · subst hb
    simp only [Modems.processServerOutput, if_true]
    exact ⟨[], by simp, rfl, fun handle => (List.append_nil _).symm, .nil, hsane⟩
  · simp only [Modems.processServerOutput, hb, if_false, hinput]
    cases hpending : modems.consumer.pending with
    | some pending =>
      have htail := hsane.oneHold (by rw [hpending]; rfl)
      obtain ⟨pieces, h⟩ := @moved_protocolBytes { modems with consumer :=
        { modems.consumer with pending := none } } pending.protocol (pending.bytes ++ bytes)
        htail rfl hinput
      refine ⟨pieces, ?_, h.terminal, h.handed, h.settled, h.sane⟩
      have hc := h.conserve
      have hbefore : modems.held = pending.bytes := by simp [Modems.held, htail, hpending]
      rw [hbefore]
      rwa [Modems.held, htail] at hc
    | none =>
      -- the tail moves to the front of the bytes that are scanned
      have htaken : ∀ {scope : ModemDetectionScope} {after : Modems}
          {events : List ModemConsumerEvent},
          (∃ pieces, Moved (modems.takeTails scope) after (modems.consumer.plainTail ++ bytes)
            events pieces) → ∃ pieces, Moved modems after bytes events pieces := by
        rintro scope after events ⟨pieces, h⟩
        refine ⟨pieces, ?_, h.terminal, h.handed, h.settled, h.sane⟩
        have hc := h.conserve
        have hbefore : modems.held = modems.consumer.plainTail := by
          simp [Modems.held, hpending]
        have hnone : (modems.takeTails scope).held = [] := by
          simp [Modems.held, Modems.takeTails, hpending]
        rw [hnone, List.nil_append] at hc
        rw [hbefore]
        exact hc
      unfold Modems.processIdle
      dsimp only
      split
      · exact htaken (moved_plain _ _ rfl hpending hinput)
      · exact htaken (moved_detected _ _ _ rfl hpending hinput)

end Lemmas

/-! ## 3. Whole sequences of calls -/

/-- The books of a session: what came before the bytes held back, and what came behind them (that
    is only possible while a transfer is fed). -/
structure Balance (session : Session) (before after : Ledger) : Prop where
  bytes : before.bytes ++ session.modems.held ++ after.bytes = session.input
  terminal : (before ++ after).share .terminal = session.terminal
  handed : ∀ handle, (before ++ after).share (.transfer handle) = session.modems.handedTo handle
  settledBefore : before.Settled
  settledAfter : after.Settled
  sane : session.modems.Sane
  idle : session.modems.consumer.transferInput = none → after = []

variable {after before : Ledger} {f : ModemTransferState → ModemTransferState} {modems : Modems}
  {session : Session}

theorem Balance.accounted (h : Balance session before after) : Accounted session := by
  refine ⟨before ++ (.held, session.modems.held) :: after, ?_, ?_, fun handle => ?_, ?_, ?_⟩
  · rw [← h.bytes]
    simp
  · rw [← h.terminal]
    simp
  · rw [← h.handed handle]
    simp
  · simp [h.settledBefore.noHeld, h.settledAfter.noHeld]
  · intro piece hp hc
    rcases List.mem_append.mp hp with hp | hp
    · exact h.settledBefore.control piece hp hc
    · rcases List.mem_cons.mp hp with rfl | hp
      · cases hc
      · exact h.settledAfter.control piece hp hc

theorem Modems.sane_new (transfers : List ModemTransferState) :
    ({ transfers } : Modems).Sane := ⟨nofun, nofun⟩

theorem balance_start : Balance {} [] [] :=
  ⟨rfl, rfl, fun _ => rfl, .nil, .nil, Modems.sane_new [], fun _ => rfl⟩

theorem handedTo_modify (handle other : Nat) (more : List UInt8)
    (hlt : handle < modems.transfers.length) (hf : ∀ t, (f t).handed = t.handed ++ more) :
    (modems.modifyTransfer handle f).handedTo other =
      modems.handedTo other ++ if handle = other then more else [] := by
  simp only [Modems.handedTo, Modems.modifyTransfer, List.getElem?_modify]
  by_cases heq : handle = other
  · subst heq
    simp [hlt, hf]
  · simp [heq]

theorem handedTo_modify_keep (handle other : Nat) (hf : ∀ t, (f t).handed = t.handed) :
    (modems.modifyTransfer handle f).handedTo other = modems.handedTo other := by
  simp only [Modems.handedTo, Modems.modifyTransfer, List.getElem?_modify]
  by_cases heq : handle = other
  · cases h : modems.transfers[other]? <;> simp [heq, hf]
  · simp [heq]

theorem sane_modify (h : modems.Sane) (handle : Nat) (f : ModemTransferState → ModemTransferState) :
    (modems.modifyTransfer handle f).Sane :=
  ⟨h.oneHold, fun other ho => by
    rw [Modems.modifyTransfer, List.length_modify]
    exact h.fed other ho⟩

theorem Balance.call (h : Balance session before after) (c : Call)
    (htidy : c = .finishTransfer → session.modems.held = []) :
    ∃ before' after', Balance (session.call c) before' after' := by
  cases c with
  | processServerOutput bytes =>
    cases hinput : session.modems.consumer.transferInput with
    | none =>
      obtain ⟨pieces, hm⟩ := moved_process bytes h.sane hinput
      obtain rfl := h.idle hinput
      refine ⟨before ++ pieces, [], ?_, ?_, fun handle => ?_, h.settledBefore.append hm.settled,
        .nil, hm.sane, fun _ => rfl⟩
      · have hb := h.bytes
        have hc := hm.conserve
        simp only [Ledger.bytes_nil, List.append_nil, Ledger.bytes_append, List.append_assoc,
          Session.call] at hb hc ⊢
        rw [← hb, ← hc, List.append_assoc]
      · have ht := h.terminal
        rw [List.append_nil] at ht ⊢
        rw [Ledger.share_append, ht, hm.terminal]
        rfl
      · have hh := h.handed handle
        rw [List.append_nil] at hh ⊢
        rw [Ledger.share_append, hh]
        exact (hm.handed handle).symm
    | some fed =>
      by_cases hb : bytes = []
      · subst hb
        refine ⟨before, after, ?_⟩
        have : session.call (.processServerOutput []) = session := by
          simp [Session.call, Modems.processServerOutput]
        rw [this]
        exact h
      · have hcall : session.call (.processServerOutput bytes) =
            { session with
              modems := session.modems.modifyTransfer fed (·.pushRemoteOutput bytes),
              input := session.input ++ bytes } := by
          simp [Session.call, Modems.processServerOutput, hb, hinput,
            ModemConsumerEvent.terminal, ModemConsumerEvent.started]
        rw [hcall]
        refine ⟨before, after ++ [(.transfer fed, bytes)], ?_, ?_, fun handle => ?_,
          h.settledBefore, h.settledAfter.append (Ledger.settled_transfer _ _),
          sane_modify h.sane _ _, fun hnone => ?_⟩
        · have hb' := h.bytes
          simp only [Ledger.bytes_append, Ledger.bytes_cons, Ledger.bytes_nil,
            List.append_nil] at hb' ⊢
          rw [← List.append_assoc]
          exact congrArg (· ++ bytes) hb'
        · have ht := h.terminal
          simpa using ht
        · have hh := h.handed handle
          rw [handedTo_modify fed handle bytes (h.sane.fed fed hinput) fun t => rfl, ← hh]
          simp
        · rw [show (session.modems.modifyTransfer fed (·.pushRemoteOutput bytes)).consumer =
            session.modems.consumer from rfl, hinput] at hnone
          cases hnone
  | startManualTransfer request =>
    by_cases ht : session.modems.consumer.transfer.isSome
    · refine ⟨before, after, ?_⟩
      simp only [Session.call, Modems.startManualTransfer, ht, if_true]
      exact h
    · simp only [Session.call, Modems.startManualTransfer, ht, if_false, Bool.false_eq_true]
      refine ⟨before, after, h.bytes, h.terminal, fun handle => ?_, h.settledBefore,
        h.settledAfter, sane_startTransfer _ _ h.sane.oneHold, fun hnone => ?_⟩
      · rw [handedTo_startTransfer, h.handed handle]
        simp
      · cases hnone
  | finishTransfer =>
    have hheld := htidy rfl
    refine ⟨before ++ after, [], ?_, ?_, fun handle => ?_, h.settledBefore.append h.settledAfter,
      .nil, Modems.sane_new _, fun _ => rfl⟩
    · have hb := h.bytes
      rw [hheld, List.append_nil] at hb
      simpa [Session.call, Modems.finishTransfer, Modems.held] using hb
    · rw [List.append_nil]
      exact h.terminal
    · rw [List.append_nil, h.handed handle]
      simp only [Session.call, Modems.finishTransfer]
      split
      · rfl
      · rename_i fed _
        exact (handedTo_modify_keep
          (f := (·.drainRemoteOutput.1)) fed handle fun t => rfl).symm
  | worker handle f =>
    exact ⟨before, after, h.bytes, h.terminal,
      fun other => (h.handed other).trans
        (handedTo_modify_keep
          (f := fun t => { f t with handed := t.handed }) handle other fun t => rfl).symm,
      h.settledBefore, h.settledAfter, sane_modify h.sane _ _, h.idle⟩

/-- Every `finish_transfer` of the calls finds nothing held back. -/
def TidyFrom (session : Session) : List Call → Prop
  | [] => True
  | c :: calls => (c = .finishTransfer → session.modems.held = []) ∧ TidyFrom (session.call c) calls

/-- **Nothing is lost**: in every state that calls reach whose every `finish_transfer` finds
    nothing held back, every byte that came in is accounted for. -/
theorem accounted_of_tidy {calls reached : List Call} (htidy : TidyFrom {} calls)
    (hreached : reached <+: calls) : Accounted (({} : Session).runCalls reached) := by
  obtain ⟨rest, rfl⟩ := hreached
  suffices h : ∀ (session : Session) (before after : Ledger), Balance session before after →
      TidyFrom session (reached ++ rest) →
      ∃ before' after', Balance (session.runCalls reached) before' after' by
    obtain ⟨before, after, hb⟩ := h {} [] [] balance_start htidy
    exact hb.accounted
  clear htidy
  induction reached with
  | nil => exact fun session before after hb _ => ⟨before, after, hb⟩
  | cons c reached ih =>
    rintro session before after hb ⟨hc, htail⟩
    obtain ⟨before', after', hb'⟩ := hb.call c hc
    exact ih _ before' after' hb' htail

/-- Text with a star at the end of a chunk, more text, and an upload that is finished. -/
theorem accounted_of_tidy_upload :
    TidyFrom {} [.processServerOutput [0x68, 0x2a], .processServerOutput [0x21],
      .startManualTransfer ⟨.xmodem, .upload⟩, .processServerOutput [nak], .finishTransfer] ∧
    Accounted (({} : Session).runCalls [.processServerOutput [0x68, 0x2a],
      .processServerOutput [0x21], .startManualTransfer ⟨.xmodem, .upload⟩,
      .processServerOutput [nak], .finishTransfer]) := by
  have htidy : TidyFrom {} [.processServerOutput [0x68, 0x2a], .processServerOutput [0x21],
      .startManualTransfer ⟨.xmodem, .upload⟩, .processServerOutput [nak], .finishTransfer] :=
    ⟨nofun, nofun, nofun, nofun, fun _ => by decide, trivial⟩
  exact ⟨htidy, accounted_of_tidy htidy List.prefix_rfl⟩

theorem ControlHeader.length_le (h : ControlHeader bytes) : 20 ≤ bytes.length := by
  obtain ⟨t, p, includeXon, -, rfl⟩ := h
  simp [encodeHexHeader, headerPayload, Position.bytes, pushHexByte]

/-- **The star that is lost**: it waits for the rest of a ZMODEM start while a transfer is started
    by hand, and `finish_transfer` clears it away. -/
theorem manual_transfer_loses_star :
    ¬ Accounted (({} : Session).runCalls [.processServerOutput [0x2a],
      .startManualTransfer ⟨.xmodem, .upload⟩, .finishTransfer]) := by
  rintro ⟨ledger, hbytes, hterminal, hhanded, hheld, hcontrol⟩
  have hstar : (0x2a : UInt8) ∈ ledger.bytes := by
    rw [hbytes]
    decide
  obtain ⟨⟨dest, piece⟩, hmem, hin⟩ := List.mem_flatMap.mp hstar
  have hshare : (0x2a : UInt8) ∈ ledger.share dest :=
    List.mem_flatMap.mpr ⟨(dest, piece), hmem, by simpa using hin⟩
  cases dest with
  | terminal =>
    rw [hterminal] at hshare
    revert hshare
    decide
  | transfer handle =>
    rw [hhanded] at hshare
    match handle with
    | 0 =>
      revert hshare
      decide
    | n + 1 => cases hshare
  | held =>
    rw [hheld] at hshare
    revert hshare
    decide
  | control =>
    have hlong : 20 ≤ piece.length := (hcontrol _ hmem rfl).length_le
    have hsub : piece.length ≤ ledger.bytes.length := by
      rw [Ledger.bytes, List.flatMap_def]
      have hpiece : piece ∈ ledger.map (·.2) := List.mem_map.mpr ⟨_, hmem, rfl⟩
      exact (List.sublist_flatten_of_mem hpiece).length_le
    rw [hbytes] at hsub
    exact absurd (Nat.le_trans hlong hsub) (by decide)

end Hapcli.Modem
