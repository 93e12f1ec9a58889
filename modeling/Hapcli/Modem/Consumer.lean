/-
  Subject:   `ModemConsumer` (`consumer.rs`) and the transfers it feeds (`stream.rs`).

  A `ModemTransfer` is a handle to a state that the consumer, the transfer's worker and the
  transport share; here a handle is a number and `Modems.transfers` holds the states, in the order
  of their creation. `ModemTransferState.handed` records every byte a transfer was ever given; no
  program reads it.
-/
import Hapcli.Modem.Detector

namespace Hapcli.Modem

open Hapcli.Rust

/-! ## 1. Transfers -/

def modemRemoteOutputBufferBytes : Nat := 4 * 1024 * 1024

/-- `ModemTransferState`, with every byte it was given. -/
structure ModemTransferState where
  remoteOutput : List UInt8 := []
  serverWrites : List (List UInt8) := []
  serverWriteBytes : Nat := 0
  cancellationBytes : List UInt8 := []
  inputOverflow : Bool := false
  stopped : Bool := false
  handed : List UInt8 := []
  deriving DecidableEq

namespace ModemTransferState

/-- `ModemTransfer::new_with_wake_and_cancel`. -/
def new (initialRemoteOutput cancellationBytes : List UInt8) : ModemTransferState :=
  { remoteOutput := initialRemoteOutput, cancellationBytes, handed := initialRemoteOutput }

variable (state : ModemTransferState)

def cancelLocked : ModemTransferState :=
  if state.stopped then state
  else
    let queuedBytes := (state.serverWrites.map List.length).sum
    let kept := state.serverWriteBytes - queuedBytes
    if state.cancellationBytes = [] then
      { state with stopped := true, remoteOutput := [], serverWrites := [], serverWriteBytes := kept }
    else
      { state with
        stopped := true, remoteOutput := [], serverWrites := [state.cancellationBytes],
        serverWriteBytes := kept + state.cancellationBytes.length }

/-- What `push_remote_output` does with the bytes. -/
def enqueue (bytes : List UInt8) : ModemTransferState :=
  if bytes = [] ∨ state.stopped then state
  else if state.remoteOutput.length + bytes.length > modemRemoteOutputBufferBytes then
    ({ state with remoteOutput := [], inputOverflow := true } : ModemTransferState).cancelLocked
  else { state with remoteOutput := state.remoteOutput ++ bytes }

def pushRemoteOutput (bytes : List UInt8) : ModemTransferState :=
  { state.enqueue bytes with handed := state.handed ++ bytes }

/-- `drain_remote_output`: the state after it, and the bytes. -/
def drainRemoteOutput : ModemTransferState × List UInt8 :=
  ({ state with remoteOutput := [] }, state.remoteOutput)

@[simp] theorem handed_new (initial cancel : List UInt8) : (new initial cancel).handed = initial := rfl

@[simp] theorem handed_pushRemoteOutput (bytes : List UInt8) :
    (state.pushRemoteOutput bytes).handed = state.handed ++ bytes := rfl

@[simp] theorem handed_drainRemoteOutput :
    state.drainRemoteOutput.1.handed = state.handed := rfl

end ModemTransferState

/-! ## 2. The consumer -/

def plainHistoryLimit : Nat := 512

def xymodemCancelBytes : List UInt8 := List.replicate 8 can

def zmodemCancelBytes : List UInt8 := List.replicate 8 zdle ++ List.replicate 8 0x08

/-- `ModemConsumerEvent`, those that are emitted. -/
inductive ModemConsumerEvent where
  | writeTerminal (bytes : List UInt8)
  | transferStarted (request : ModemTransferRequest)
  | transferDataQueued
  deriving DecidableEq

structure PendingTransfer where
  protocol : DetectedModemProtocol
  bytes : List UInt8
  deriving DecidableEq

inductive TerminalControlStringKind where
  | osc
  | dcs
  | apc
  deriving DecidableEq

inductive ModemDetectionScope where
  | ground
  | escape
  | controlString (kind : TerminalControlStringKind) (escapePending : Bool)
  deriving DecidableEq

namespace ModemDetectionScope

/-- `mask_control_strings` on one byte: the next scope and the byte, masked or not. -/
def maskByte (scope : ModemDetectionScope) (byte : UInt8) : ModemDetectionScope × UInt8 :=
  match scope with
  | ground =>
    if byte = 0x1b then (escape, 0x20)
    else if byte = 0x90 then (controlString .dcs false, 0x20)
    else if byte = 0x9d then (controlString .osc false, 0x20)
    else if byte = 0x9f then (controlString .apc false, 0x20)
    else (ground, byte)
  | escape =>
    if byte = 0x5d then (controlString .osc false, 0x20)
    else if byte = 0x50 then (controlString .dcs false, 0x20)
    else if byte = 0x5f then (controlString .apc false, 0x20)
    else if byte = 0x1b then (escape, 0x20)
    else (ground, byte)
  | controlString kind escapePending =>
    if (kind = .osc ∧ byte = 0x07) ∨ byte = 0x9c ∨ (escapePending ∧ byte = 0x5c) then
      (ground, 0x20)
    else (controlString kind (byte == 0x1b), 0x20)

/-- `mask_control_strings`: the scope behind the bytes, and the masked bytes. -/
def maskControlStrings : ModemDetectionScope → List UInt8 → ModemDetectionScope × List UInt8
  | scope, [] => (scope, [])
  | scope, byte :: bytes =>
    ((maskControlStrings (scope.maskByte byte).1 bytes).1,
      (scope.maskByte byte).2 :: (maskControlStrings (scope.maskByte byte).1 bytes).2)

end ModemDetectionScope

/-- `ModemConsumer`; a transfer is known by its handle. -/
structure ModemConsumer where
  plainTail : List UInt8 := []
  detectionTail : List UInt8 := []
  plainHistory : List UInt8 := []
  detectionScope : ModemDetectionScope := .ground
  pending : Option PendingTransfer := none
  transfer : Option Nat := none
  transferInput : Option Nat := none
  deriving DecidableEq

/-- The consumer and the states of all transfers there were. -/
structure Modems where
  consumer : ModemConsumer := {}
  transfers : List ModemTransferState := []
  deriving DecidableEq

namespace Modems

variable (modems : Modems)

/-- `start_transfer`; the new transfer's handle is the number of those before it. -/
def startTransfer (initialBytes : List UInt8) (request : ModemTransferRequest) : Modems :=
  let cancellationBytes := if request.protocol = .zmodem then zmodemCancelBytes else xymodemCancelBytes
  { consumer :=
      { modems.consumer with
        transferInput := some modems.transfers.length, transfer := some modems.transfers.length,
        plainHistory := [] },
    transfers := modems.transfers ++ [.new initialBytes cancellationBytes] }

/-- The last bytes of a history that is kept. -/
def lastHistory (bytes : List UInt8) : List UInt8 := bytes.drop (bytes.length - plainHistoryLimit)

def rememberPlainOutput (bytes : List UInt8) : Modems :=
  if bytes = [] then modems
  else { modems with consumer :=
    { modems.consumer with plainHistory := lastHistory (modems.consumer.plainHistory ++ bytes) } }

/-- `start_manual_transfer`: the new transfer's handle, if there is none already. -/
def startManualTransfer (request : ModemTransferRequest) : Modems × Option Nat :=
  if modems.consumer.transfer.isSome then (modems, none)
  else (modems.startTransfer [] request, some modems.transfers.length)

/-- The transfers, with the one of a handle changed. -/
def modifyTransfer (handle : Nat) (f : ModemTransferState → ModemTransferState) : Modems :=
  { modems with transfers := modems.transfers.modify handle f }

/-- The bytes `finish_transfer` drains from the transfer it feeds. -/
def trailingOutput : List UInt8 :=
  match modems.consumer.transferInput with
  | none => []
  | some handle => ((modems.transfers[handle]?).map (·.drainRemoteOutput.2)).getD []

/-- `finish_transfer`: the trailing output is returned. -/
def finishTransfer : Modems × List UInt8 :=
  let drained := match modems.consumer.transferInput with
    | none => modems.transfers
    | some handle => modems.transfers.modify handle (·.drainRemoteOutput.1)
  ({ consumer := {}, transfers := drained }, modems.trailingOutput)

/-- What is done with bytes that begin with a detected start: a transfer, a wait, a control header
    dropped, or plain text. -/
def handleProtocolBytes (protocol : DetectedModemProtocol)
    (protocolBytes : List UInt8) : Modems × List ModemConsumerEvent :=
  match requestForProtocol protocol protocolBytes modems.consumer.plainHistory with
  | some request => (modems.startTransfer protocolBytes request, [.transferStarted request])
  | none =>
    if shouldWaitForProtocolConfirmation protocol protocolBytes then
      ({ modems with consumer :=
          { modems.consumer with pending := some ⟨protocol, protocolBytes⟩ } }, [])
    else match zmodemControlPrefixLen protocol protocolBytes with
      | some controlLen =>
        let remaining := protocolBytes.drop controlLen
        (modems.rememberPlainOutput remaining,
          if remaining = [] then [] else [.writeTerminal remaining])
      | none => (modems.rememberPlainOutput protocolBytes, [.writeTerminal protocolBytes])

def processPendingServerOutput (pending : PendingTransfer) (bytes : List UInt8) :
    Modems × List ModemConsumerEvent :=
  ({ modems with consumer := { modems.consumer with pending := none } } : Modems).handleProtocolBytes
    pending.protocol (pending.bytes ++ bytes)

/-- `process_server_output` where nothing is detected: what may be the front of a start is held
    back, the rest is written; a submitted command may start a download. -/
def processPlain (scanBytes detectionBytes : List UInt8) : Modems × List ModemConsumerEvent :=
  let hold := possibleModemPrefixSuffixLen detectionBytes
  if hold = scanBytes.length then
    ({ modems with consumer :=
        { modems.consumer with plainTail := scanBytes, detectionTail := detectionBytes } }, [])
  else
    let split := scanBytes.length - hold
    let held : Modems := { modems with consumer :=
      { modems.consumer with
        plainTail := scanBytes.drop split, detectionTail := detectionBytes.drop split } }
    let remembered := held.rememberPlainOutput (detectionBytes.take split)
    match xymodemDownloadRequest remembered.consumer.plainHistory with
    | some request =>
      (remembered.startTransfer [] request,
        [.writeTerminal (scanBytes.take split), .transferStarted request])
    | none => (remembered, [.writeTerminal (scanBytes.take split)])

/-- `process_server_output` where a start is detected: the text before it is written. -/
def processDetected (scanBytes detectionBytes : List UInt8)
    (start : DetectedModemStart) : Modems × List ModemConsumerEvent :=
  let remembered := modems.rememberPlainOutput (detectionBytes.take start.offset)
  let handled := remembered.handleProtocolBytes start.protocol (scanBytes.drop start.offset)
  (handled.1,
    (if start.offset > 0 then [.writeTerminal (scanBytes.take start.offset)] else []) ++ handled.2)

/-- The tails are taken into the bytes that are scanned; the scope goes on. -/
def takeTails (scope : ModemDetectionScope) : Modems :=
  { modems with consumer :=
    { modems.consumer with plainTail := [], detectionTail := [], detectionScope := scope } }

/-- `process_server_output` while no transfer is fed and no start is pending. -/
def processIdle (bytes : List UInt8) : Modems × List ModemConsumerEvent :=
  let masked := modems.consumer.detectionScope.maskControlStrings bytes
  let scanBytes := modems.consumer.plainTail ++ bytes
  let detectionBytes := modems.consumer.detectionTail ++ masked.2
  match (({} : ModemDetector).scanFirst detectionBytes).2 with
  | none => (modems.takeTails masked.1).processPlain scanBytes detectionBytes
  | some start => (modems.takeTails masked.1).processDetected scanBytes detectionBytes start

def processServerOutput (bytes : List UInt8) : Modems × List ModemConsumerEvent :=
  if bytes = [] then (modems, [])
  else match modems.consumer.transferInput with
    | some handle =>
      (modems.modifyTransfer handle (·.pushRemoteOutput bytes), [.transferDataQueued])
    | none =>
      match modems.consumer.pending with
      | some pending => modems.processPendingServerOutput pending bytes
      | none => modems.processIdle bytes

/-- The bytes held back: what may be the front of a start, and a start that waits for its rest. -/
def held : List UInt8 :=
  modems.consumer.plainTail ++ (modems.consumer.pending.map (·.bytes)).getD []

end Modems

/-! ## 3. Sequences of calls -/

/-- A call of the consumer, or something another holder of a transfer's handle does to it. -/
inductive Call where
  | processServerOutput (bytes : List UInt8)
  | startManualTransfer (request : ModemTransferRequest)
  | finishTransfer
  | worker (handle : Nat) (f : ModemTransferState → ModemTransferState)

/-- The text an event writes to the terminal. -/
def ModemConsumerEvent.terminal : ModemConsumerEvent → List UInt8
  | .writeTerminal bytes => bytes
  | _ => []

/-- The transfer an event announces. -/
def ModemConsumerEvent.started : ModemConsumerEvent → Option ModemTransferRequest
  | .transferStarted request => some request
  | _ => none

/-- What an observer of the consumer has seen. -/
structure Session where
  modems : Modems := {}
  input : List UInt8 := []
  terminal : List UInt8 := []
  started : List ModemTransferRequest := []
  deriving DecidableEq

variable (session : Session)

/-- One call. A worker reads, writes and stops a transfer; it gives it no bytes. -/
def Session.call : Call → Session
  | .processServerOutput bytes =>
    let result := session.modems.processServerOutput bytes
    { modems := result.1,
      input := session.input ++ bytes,
      terminal := session.terminal ++ result.2.flatMap (·.terminal),
      started := session.started ++ result.2.filterMap (·.started) }
  | .startManualTransfer request =>
    { session with modems := (session.modems.startManualTransfer request).1 }
  | .finishTransfer => { session with modems := session.modems.finishTransfer.1 }
  | .worker handle f =>
    { session with modems :=
      session.modems.modifyTransfer handle fun t => { f t with handed := t.handed } }

/-- A sequence of calls. -/
def Session.runCalls (calls : List Call) : Session :=
  calls.foldl Session.call session

@[simp] theorem Session.runCalls_nil : session.runCalls [] = session := rfl

@[simp] theorem Session.runCalls_cons (c : Call) (calls : List Call) :
    session.runCalls (c :: calls) = (session.call c).runCalls calls := rfl

@[simp] theorem Session.runCalls_append (calls more : List Call) :
    session.runCalls (calls ++ more) = (session.runCalls calls).runCalls more :=
  List.foldl_append ..

end Hapcli.Modem
