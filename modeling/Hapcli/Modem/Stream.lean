/-
  Subject:   The write queue of a `ModemTransfer` (`stream.rs`), shared by the worker that fills it,
             the transport that empties it and whoever cancels.

  The counters are numbers that nothing saturates: a queue that is not empty is filled up to its
  limit at most, and no `Vec` is longer than `isize::MAX`.

  * **`cancel_only_iff`** -- every run: counted throughout; and all that is taken of a stopped transfer
    is the cancellation exactly if nothing else is restored to it.
-/
import Hapcli.Modem.Consumer
import Hapcli.Lib.Runs
import Mathlib.Data.List.Perm.Basic

namespace Hapcli.Modem

open Hapcli.Lib

/-! ## 1. The queue -/

def modemServerWriteBufferBytes : Nat := 1024 * 1024

/-- `ModemTransferState` with `server_write_in_flight_bytes`, which the consumer does not read. -/
structure ModemTransfer extends ModemTransferState where
  serverWriteInFlightBytes : Nat := 0
  deriving DecidableEq

namespace ModemTransfer

variable (t : ModemTransfer)

/-- `new_with_wake_and_cancel`. -/
def new (initialRemoteOutput cancellationBytes : List UInt8) : ModemTransfer :=
  { ModemTransferState.new initialRemoteOutput cancellationBytes with }

def pushRemoteOutput (bytes : List UInt8) : ModemTransfer :=
  { t with toModemTransferState := t.toModemTransferState.pushRemoteOutput bytes }

def takeServerWrite : Option (List UInt8 × ModemTransfer) :=
  match t.serverWrites with
  | [] => none
  | bytes :: rest =>
    some (bytes, { t with
      serverWrites := rest
      serverWriteInFlightBytes := t.serverWriteInFlightBytes + bytes.length })

def completeServerWrite (byteLen : Nat) : ModemTransfer :=
  { t with
    serverWriteInFlightBytes := t.serverWriteInFlightBytes - byteLen
    serverWriteBytes := t.serverWriteBytes - byteLen }

def restoreServerWrite (bytes : List UInt8) : ModemTransfer :=
  { t with
    serverWriteInFlightBytes := t.serverWriteInFlightBytes - bytes.length
    serverWrites := bytes :: t.serverWrites }

def stop : ModemTransfer := { t with toModemTransferState := t.toModemTransferState.cancelLocked }

/-- `write_all`; `none` while it waits for room. -/
def writeAll (bytes : List UInt8) : Option (Except ModemTransferError Unit × ModemTransfer) :=
  if bytes = [] then some (.ok (), t)
  else if t.stopped then some (.error .cancelled, t)
  else if t.serverWriteBytes + bytes.length ≤ modemServerWriteBufferBytes ∨
      (t.serverWriteBytes = 0 ∧ t.serverWriteInFlightBytes = 0) then
    some (.ok (), { t with
      serverWriteBytes := t.serverWriteBytes + bytes.length
      serverWrites := t.serverWrites ++ [bytes] })
  else none

end ModemTransfer

/-! ## 2. The transport -/

/-- A transfer, and the writes that were taken of it and are neither completed nor restored. -/
structure Transport where
  transfer : ModemTransfer
  taken : List (List UInt8) := []
  deriving DecidableEq

/-- What worker, transport and host do with a transfer. A write is named by its place among those
    taken. -/
inductive TransferAction where
  | writeAll (bytes : List UInt8)
  | pushRemoteOutput (bytes : List UInt8)
  | takeServerWrite
  | completeServerWrite (write : Nat)
  | restoreServerWrite (write : Nat)
  | stop
  deriving DecidableEq

namespace Transport

/-- One action. -/
def next (s : Transport) : TransferAction → Option Transport
  | .writeAll bytes => (s.transfer.writeAll bytes).map fun r => { s with transfer := r.2 }
  | .pushRemoteOutput bytes => some { s with transfer := s.transfer.pushRemoteOutput bytes }
  | .takeServerWrite =>
    match s.transfer.takeServerWrite with
    | some (bytes, transfer) => some ⟨transfer, s.taken ++ [bytes]⟩
    | none => some s
  | .completeServerWrite write =>
    s.taken[write]?.map fun bytes =>
      ⟨s.transfer.completeServerWrite bytes.length, s.taken.eraseIdx write⟩
  | .restoreServerWrite write =>
    s.taken[write]?.map fun bytes =>
      ⟨s.transfer.restoreServerWrite bytes, s.taken.eraseIdx write⟩
  | .stop => some { s with transfer := s.transfer.stop }

/-- **The pending bytes are those queued and those in flight.** -/
structure Counted (s : Transport) : Prop where
  pending : s.transfer.serverWriteBytes =
    (s.transfer.serverWrites.map List.length).sum + (s.taken.map List.length).sum
  inFlight : s.transfer.serverWriteInFlightBytes = (s.taken.map List.length).sum

/-- **All that can be taken of a stopped transfer is its cancellation.** -/
def CancelOnly (s : Transport) : Prop :=
  s.transfer.stopped = true → ∀ r ∈ s.transfer.takeServerWrite, r.1 = s.transfer.cancellationBytes

/-- Nothing but the cancellation is restored to a stopped transfer. -/
def Fits (s : Transport) : TransferAction → Prop
  | .restoreServerWrite write => s.transfer.stopped = true →
      ∀ bytes ∈ s.taken[write]?, bytes = s.transfer.cancellationBytes
  | _ => True

/-- Nothing but the cancellation is queued in a stopped transfer. -/
def Stripped (s : Transport) : Prop :=
  s.transfer.stopped = true → ∀ bytes ∈ s.transfer.serverWrites, bytes = s.transfer.cancellationBytes

end Transport

/-! ## 3. One step -/

namespace Transport

variable {s s' : Transport} {t : ModemTransfer} {a : TransferAction} {bytes : List UInt8}

theorem sum_eraseIdx {writes : List (List UInt8)} {write : Nat} (h : writes[write]? = some bytes) :
    (writes.map List.length).sum = bytes.length + ((writes.eraseIdx write).map List.length).sum := by
  obtain ⟨hlt, rfl⟩ := List.getElem?_eq_some_iff.mp h
  have hperm := (List.getElem_cons_eraseIdx_perm hlt).map List.length
  rw [← hperm.sum_nat, List.map_cons, List.sum_cons]

theorem take_eq_some {rest : ModemTransfer} (h : t.takeServerWrite = some (bytes, rest)) :
    ∃ writes, t.serverWrites = bytes :: writes ∧ rest = { t with
      serverWrites := writes
      serverWriteInFlightBytes := t.serverWriteInFlightBytes + bytes.length } := by
  unfold ModemTransfer.takeServerWrite at h
  cases hwrites : t.serverWrites with
  | nil => rw [hwrites] at h; cases h
  | cons first writes =>
    rw [hwrites] at h
    cases h
    exact ⟨writes, rfl, rfl⟩

theorem writeAll_cases {r : Except ModemTransferError Unit × ModemTransfer}
    (h : t.writeAll bytes = some r) : r.2 = t ∨ t.stopped = false ∧ r.2 = { t with
      serverWriteBytes := t.serverWriteBytes + bytes.length
      serverWrites := t.serverWrites ++ [bytes] } := by
  unfold ModemTransfer.writeAll at h
  split_ifs at h with hempty hstopped hroom
  · cases h
    exact .inl rfl
  · cases h
    exact .inl rfl
  · cases h
    exact .inr ⟨Bool.not_eq_true _ ▸ hstopped, rfl⟩

/-- What a cancellation or a remote output does to the queue: nothing, or the transfer is stopped and
    its queue replaced by the cancellation. -/
def Settles (state state' : ModemTransferState) : Prop :=
  state'.cancellationBytes = state.cancellationBytes ∧
    ((state'.serverWrites = state.serverWrites ∧ state'.serverWriteBytes = state.serverWriteBytes ∧
        state'.stopped = state.stopped) ∨
      (∀ write ∈ state'.serverWrites, write = state.cancellationBytes) ∧
        state'.serverWriteBytes = state.serverWriteBytes - (state.serverWrites.map List.length).sum +
          (state'.serverWrites.map List.length).sum)

theorem settles_cancelLocked (state : ModemTransferState) : Settles state state.cancelLocked := by
  unfold ModemTransferState.cancelLocked
  split_ifs with hstopped hempty
  · exact ⟨rfl, .inl ⟨rfl, rfl, rfl⟩⟩
  · exact ⟨rfl, .inr ⟨fun _ hwrite => absurd hwrite List.not_mem_nil, rfl⟩⟩
  · refine ⟨rfl, .inr ⟨fun _ hwrite => List.mem_singleton.mp hwrite, ?_⟩⟩
    rw [List.map_singleton, List.sum_singleton]

theorem settles_enqueue (state : ModemTransferState) (bytes : List UInt8) :
    Settles state (state.enqueue bytes) := by
  unfold ModemTransferState.enqueue
  split_ifs
  · exact ⟨rfl, .inl ⟨rfl, rfl, rfl⟩⟩
  · -- the fields that the cancellation reads are those of the state before
    exact settles_cancelLocked { state with remoteOutput := [], inputOverflow := true }
  · exact ⟨rfl, .inl ⟨rfl, rfl, rfl⟩⟩

theorem Counted.settles {state : ModemTransferState} (h : s.Counted)
    (hstate : Settles s.transfer.toModemTransferState state) :
    Counted { s with transfer := { s.transfer with toModemTransferState := state } } := by
  obtain ⟨hpending, hinFlight⟩ := h
  refine ⟨?_, hinFlight⟩
  dsimp only
  rcases hstate.2 with ⟨hwrites, hbytes, -⟩ | ⟨-, hbytes⟩
  · rw [hbytes, hwrites]
    exact hpending
  · rw [hbytes, hpending]
    omega

theorem Stripped.settles {state : ModemTransferState} (h : s.Stripped)
    (hstate : Settles s.transfer.toModemTransferState state) :
    Stripped { s with transfer := { s.transfer with toModemTransferState := state } } := by
  intro hstopped write hwrite
  obtain ⟨hcancellation, ⟨hwrites, -, hsame⟩ | ⟨hall, -⟩⟩ := hstate
  · exact (h (hsame ▸ hstopped) write (hwrites ▸ hwrite)).trans hcancellation.symm
  · exact (hall write hwrite).trans hcancellation.symm

theorem next_counted (hnext : s.next a = some s') (h : s.Counted) : s'.Counted := by
  cases a with
  | writeAll bytes =>
    obtain ⟨r, hr, rfl⟩ := Option.map_eq_some_iff.mp hnext
    rcases writeAll_cases hr with hsame | ⟨-, hqueued⟩
    · rw [hsame]
      exact h
    · rw [hqueued]
      refine ⟨?_, h.inFlight⟩
      have hpending := h.pending
      simp only [List.map_append, List.sum_append, List.map_singleton, List.sum_singleton]
      omega
  | pushRemoteOutput bytes =>
    cases hnext
    exact h.settles (settles_enqueue _ bytes)
  | takeServerWrite =>
    unfold next at hnext
    dsimp only at hnext
    split at hnext
    · next bytes transfer htake =>
        cases hnext
        obtain ⟨writes, hwrites, rfl⟩ := take_eq_some htake
        obtain ⟨hpending, hinFlight⟩ := h
        rw [hwrites, List.map_cons, List.sum_cons] at hpending
        refine ⟨?_, ?_⟩ <;>
        · simp only [List.map_append, List.sum_append, List.map_singleton, List.sum_singleton]
          omega
    · cases hnext
      exact h
  | completeServerWrite write =>
    obtain ⟨bytes, hbytes, rfl⟩ := Option.map_eq_some_iff.mp hnext
    obtain ⟨hpending, hinFlight⟩ := h
    rw [sum_eraseIdx hbytes] at hpending hinFlight
    refine ⟨?_, ?_⟩ <;>
    · dsimp only [ModemTransfer.completeServerWrite]
      omega
  | restoreServerWrite write =>
    obtain ⟨bytes, hbytes, rfl⟩ := Option.map_eq_some_iff.mp hnext
    obtain ⟨hpending, hinFlight⟩ := h
    rw [sum_eraseIdx hbytes] at hpending hinFlight
    refine ⟨?_, ?_⟩
    · simp only [ModemTransfer.restoreServerWrite, List.map_cons, List.sum_cons]
      omega
    · dsimp only [ModemTransfer.restoreServerWrite]
      omega
  | stop =>
    cases hnext
    exact h.settles (settles_cancelLocked _)

theorem next_stripped (hnext : s.next a = some s') (hfits : s.Fits a) (h : s.Stripped) :
    s'.Stripped := by
  cases a with
  | writeAll bytes =>
    obtain ⟨r, hr, rfl⟩ := Option.map_eq_some_iff.mp hnext
    rcases writeAll_cases hr with hsame | ⟨hopen, hqueued⟩
    · rw [hsame]
      exact h
    · rw [hqueued]
      intro hstopped
      cases hopen.symm.trans hstopped
  | pushRemoteOutput bytes =>
    cases hnext
    exact h.settles (settles_enqueue _ bytes)
  | takeServerWrite =>
    unfold next at hnext
    dsimp only at hnext
    split at hnext
    · next bytes transfer htake =>
        cases hnext
        obtain ⟨writes, hwrites, rfl⟩ := take_eq_some htake
        exact fun hstopped write hwrite =>
          h hstopped write (hwrites ▸ List.mem_cons_of_mem bytes hwrite)
    · cases hnext
      exact h
  | completeServerWrite write =>
    obtain ⟨bytes, -, rfl⟩ := Option.map_eq_some_iff.mp hnext
    exact h
  | restoreServerWrite write =>
    obtain ⟨bytes, hbytes, rfl⟩ := Option.map_eq_some_iff.mp hnext
    intro hstopped other hother
    rcases List.mem_cons.mp hother with rfl | hold
    · exact hfits hstopped other hbytes
    · exact h hstopped other hold
  | stop =>
    cases hnext
    exact h.settles (settles_cancelLocked _)

theorem Stripped.cancelOnly (h : s.Stripped) : s.CancelOnly := by
  intro hstopped r hr
  obtain ⟨writes, hwrites, -⟩ := @take_eq_some _ r.1 r.2 hr
  exact h hstopped r.1 (hwrites ▸ List.mem_cons_self)

theorem fits_of_cancelOnly (hnext : s.next a = some s') (h : s'.CancelOnly) : s.Fits a := by
  cases a with
  | restoreServerWrite write =>
    intro hstopped bytes hbytes
    obtain ⟨bytes', hbytes', rfl⟩ := Option.map_eq_some_iff.mp hnext
    cases hbytes.symm.trans hbytes'
    exact h hstopped _ rfl
  | _ => exact trivial

end Transport

/-! ## 4. Runs -/

namespace Transport

/-- **Every run of a transfer**: the bytes are counted; and what can be taken of a stopped transfer
    is the cancellation, exactly if nothing else is restored to it. -/
theorem cancel_only_iff (initialRemoteOutput cancellationBytes : List UInt8)
    (actions : List TransferAction) :
    let start : Transport := ⟨.new initialRemoteOutput cancellationBytes, []⟩
    Runs.Throughout next Counted start actions ∧
      (Runs.Throughout next CancelOnly start actions ↔ Runs.Meets next Fits start actions) := by
  intro start
  have hstart : start.Stripped := fun hstopped => nomatch hstopped
  refine ⟨Runs.throughout_of_meets (P := fun _ _ => True) (fun hnext _ => next_counted hnext)
    (Runs.meets_of_forall fun _ _ => trivial) ⟨rfl, rfl⟩, ?_⟩
  refine Runs.throughout_iff_meets_between (Q := fun _ _ => True) (J := Stripped)
    (fun hnext _ hJ _ hI' => next_stripped hnext (fits_of_cancelOnly hnext hI') hJ)
    (fun hnext _ hJ _ => ⟨fits_of_cancelOnly hnext, fun hfits =>
      (next_stripped hnext hfits hJ).cancelOnly⟩)
    (Runs.meets_of_forall fun _ _ => trivial) hstart hstart.cancelOnly

/-- A write is taken, the transfer is stopped, and the write is put back: it is what is taken next. -/
theorem restored_after_stop : ¬ Runs.Throughout next CancelOnly
    ⟨.new [] xymodemCancelBytes, []⟩
    [.writeAll [1, 2, 3], .takeServerWrite, .stop, .restoreServerWrite 0] := by
  intro hall
  have hend := Runs.throughout_iff.mp hall _ [] _ (List.append_nil _).symm rfl
  have hcancel := hend rfl _ rfl
  revert hcancel
  decide

end Transport

end Hapcli.Modem
