/-
  Subject:   The transfers of an SFTP session (`transfer_manager.rs`): their controls, their
             background snapshots, and the shutdown of them all.

  Any number of calls are under way. A step is a section of one call under a lock, an atomic
  access, or the send on one channel of a control; a section with an atomic access in it keeps its
  lock from one step to the next. `now_ms()` is the clock reading a step comes with.
-/
import Hapcli.Lib.Runs
import Hapcli.Sftp.Progress

namespace Hapcli.Sftp

open Function
open Hapcli.Rust

/-! ## 1. Snapshots -/

def finishedBackgroundTransferRetentionMs : Nat := 5 * 60 * 1000

inductive BackgroundTransferState where
  | pending
  | active
  | paused
  | completed
  | cancelled
  | error
  deriving DecidableEq

def BackgroundTransferState.isFinished : BackgroundTransferState → Bool
  | .completed | .cancelled | .error => true
  | .pending | .active | .paused => false

/-- What the manager reads and writes of a `BackgroundTransferSnapshot`. -/
structure BackgroundTransferSnapshot where
  id : Str
  strategy : TransferStrategy
  state : BackgroundTransferState
  size : Nat
  transferred : Nat
  backendSpeed : Option Nat
  error : Option Str
  endTime : Option Nat
  itemCount : Option Nat
  deriving DecidableEq

/-- `shutdown_state`: `TRANSFER_MANAGER_RUNNING`, `TRANSFER_MANAGER_SHUTTING_DOWN`,
    `TRANSFER_MANAGER_STOPPED`. -/
inductive ShutdownState where
  | running
  | shuttingDown
  | stopped
  deriving DecidableEq

namespace BackgroundTransferSnapshot

/-- The snapshots that `cleanup_background_transfers` retains. -/
def retained (now : Nat) (snapshot : BackgroundTransferSnapshot) : Bool :=
  !snapshot.state.isFinished ||
    match snapshot.endTime with
    | some finished => decide (now - finished ≤ finishedBackgroundTransferRetentionMs)
    | none => true

/-- The snapshot that `register_background_transfer` inserts, by the flag it has read. -/
def registered (flag : ShutdownState) (now : Nat) (snapshot : BackgroundTransferSnapshot) :
    BackgroundTransferSnapshot :=
  if flag = .running then { snapshot with state := .pending }
  else { snapshot with state := .cancelled, backendSpeed := some 0, endTime := some now }

/-- `mark_background_transfer_active`. -/
def markActive (snapshot : BackgroundTransferSnapshot) : BackgroundTransferSnapshot :=
  if snapshot.state.isFinished then snapshot else { snapshot with state := .active }

/-- `update_background_transfer_progress`. -/
def progressed (transferred total speed : Nat) (snapshot : BackgroundTransferSnapshot) :
    BackgroundTransferSnapshot :=
  if snapshot.state.isFinished then snapshot
  else
    { snapshot with
      transferred := transferred
      size := if 0 < total then total else snapshot.size
      backendSpeed := some speed
      state := .active }

/-- What `finish_background_transfer` finds out before it writes. -/
def shutdownCancelled (flag : ShutdownState) (snapshot : BackgroundTransferSnapshot) : Bool :=
  decide (flag ≠ .running ∧ snapshot.state = .cancelled)

/-- `finish_background_transfer`, with the flag it has read. -/
def finished (flag : ShutdownState) (state : BackgroundTransferState) (error : Option Str)
    (itemCount : Option Nat) (now : Nat) (snapshot : BackgroundTransferSnapshot) :
    BackgroundTransferSnapshot :=
  let state := if snapshot.shutdownCancelled flag then .cancelled else state
  { snapshot with
    state := state
    error := if snapshot.shutdownCancelled flag then none else error
    itemCount := itemCount
    endTime := some now
    transferred := if state = .completed ∧ 0 < snapshot.size then snapshot.size
      else snapshot.transferred }

/-- `pause`. -/
def paused (snapshot : BackgroundTransferSnapshot) : BackgroundTransferSnapshot :=
  if snapshot.state.isFinished then snapshot
  else { snapshot with state := .paused, backendSpeed := some 0 }

/-- `resume`. -/
def resumed (snapshot : BackgroundTransferSnapshot) : BackgroundTransferSnapshot :=
  if snapshot.state = .paused then { snapshot with state := .pending } else snapshot

/-- `interrupt`. -/
def interrupted (reason : Str) (now : Nat) (snapshot : BackgroundTransferSnapshot) :
    BackgroundTransferSnapshot :=
  if snapshot.state.isFinished then snapshot
  else
    { snapshot with
      state := .error, error := some reason, backendSpeed := some 0, endTime := some now }

/-- What `shutdown_session_transfers` makes of it. -/
def cancelledByShutdown (now : Nat) (snapshot : BackgroundTransferSnapshot) :
    BackgroundTransferSnapshot :=
  if snapshot.state.isFinished then snapshot
  else
    { snapshot with
      state := .cancelled, backendSpeed := some 0, error := none, endTime := some now }

variable {snapshot : BackgroundTransferSnapshot}

theorem isFinished_markActive (h : snapshot.state.isFinished) :
    snapshot.markActive.state.isFinished := by
  rw [markActive, if_pos h]
  exact h

theorem isFinished_progressed (transferred total speed : Nat) (h : snapshot.state.isFinished) :
    (snapshot.progressed transferred total speed).state.isFinished := by
  rw [progressed, if_pos h]
  exact h

theorem isFinished_paused (h : snapshot.state.isFinished) : snapshot.paused.state.isFinished := by
  rw [paused, if_pos h]
  exact h

theorem isFinished_resumed (h : snapshot.state.isFinished) : snapshot.resumed.state.isFinished := by
  unfold resumed
  split
  · next hpaused =>
      rw [hpaused] at h
      cases h
  · exact h

theorem isFinished_interrupted (reason : Str) (now : Nat) (h : snapshot.state.isFinished) :
    (snapshot.interrupted reason now).state.isFinished := by
  rw [interrupted, if_pos h]
  exact h

theorem isFinished_cancelledByShutdown (now : Nat) (snapshot : BackgroundTransferSnapshot) :
    (snapshot.cancelledByShutdown now).state.isFinished := by
  unfold cancelledByShutdown
  split
  · assumption
  · rfl

theorem isFinished_finished_iff (flag : ShutdownState) (state : BackgroundTransferState)
    (error : Option Str) (itemCount : Option Nat) (now : Nat) :
    (snapshot.finished flag state error itemCount now).state.isFinished ↔
      snapshot.shutdownCancelled flag ∨ state.isFinished := by
  show (if snapshot.shutdownCancelled flag = true then BackgroundTransferState.cancelled
    else state).isFinished = true ↔ _
  by_cases h : snapshot.shutdownCancelled flag
  · rw [if_pos h]
    exact iff_of_true rfl (.inl h)
  · rw [if_neg h]
    exact ⟨.inr, fun hor => hor.resolve_left h⟩

end BackgroundTransferSnapshot

/-! ## 2. The manager and its calls -/

/-- `SftpTransferControl`: the values its three channels hold. -/
structure SftpTransferControl where
  cancelled : Bool := false
  paused : Bool := false
  interruptReason : Option Str := none
  deriving DecidableEq

/-- `RegisteredTransferControl`; a control is shared, and here a number. -/
structure RegisteredTransferControl where
  control : Nat
  ownerCount : Nat
  nodeId : Option Str
  deriving DecidableEq

/-- Where a call stands. -/
inductive Stage where
  /-- `register_owned`, with the lock of the controls, having found none under the id -/
  | registering (id : Str) (nodeId : Option Str)
  /-- ... and having read the flag -/
  | entering (id : Str) (nodeId : Option Str) (flag : ShutdownState)
  /-- `register_background_transfer` after the cleanup -/
  | delivering (snapshot : BackgroundTransferSnapshot)
  /-- ... and having read the flag -/
  | delivered (snapshot : BackgroundTransferSnapshot)
  /-- `finish_background_transfer`, with the lock of the snapshots -/
  | finishing (id : Str) (state : BackgroundTransferState) (error : Option Str)
      (itemCount : Option Nat)
  /-- ... and having read the flag -/
  | settling (id : Str) (state : BackgroundTransferState) (error : Option Str)
      (itemCount : Option Nat) (flag : ShutdownState)
  /-- `cancel`, with the control it has found -/
  | cancelling (control : Nat)
  /-- `pause`, with the control it has found, and after the send -/
  | pausing (id : Str) (control : Nat)
  | paused (id : Str)
  /-- `resume`, likewise -/
  | resuming (id : Str) (control : Nat)
  | resumed (id : Str)
  /-- `interrupt`, likewise -/
  | interrupting (id : Str) (control : Nat) (reason : Str)
  | interrupted (id : Str) (reason : Str)
  | ended
  deriving DecidableEq

/-- Where the call of `shutdown_session_transfers` stands that has changed the flag. -/
inductive ShutdownStage where
  | claimed
  /-- has collected the controls and still has these to cancel -/
  | cancelling (controls : List Nat)
  /-- has marked the transfers and waits for the controls to go -/
  | draining
  | ended
  deriving DecidableEq

/-- `SftpTransferManager` as far as transfers go: the controls there are, the locks kept from step
    to step, the calls. -/
structure SftpTransferManager where
  controls : Map Str RegisteredTransferControl
  shutdownState : ShutdownState
  backgroundTransfers : Map Str BackgroundTransferSnapshot
  /-- the controls made so far, by their numbers -/
  channels : Nat → SftpTransferControl
  made : Nat
  /-- the call that keeps the lock of `controls`, and of `background_transfers` -/
  controlsLock : Option Nat
  transfersLock : Option Nat
  calls : Nat → Option Stage
  shutdown : Option ShutdownStage

namespace SftpTransferManager

def new : SftpTransferManager where
  controls := ∅
  shutdownState := .running
  backgroundTransfers := ∅
  channels := fun _ => {}
  made := 0
  controlsLock := none
  transfersLock := none
  calls := fun _ => none
  shutdown := none

variable (manager : SftpTransferManager)

/-- The call stands there now. -/
def goTo (call : Nat) (stage : Stage) : SftpTransferManager :=
  { manager with calls := update manager.calls call (some stage) }

/-- A section on the snapshots. -/
def onTransfers (change : Map Str BackgroundTransferSnapshot → Map Str BackgroundTransferSnapshot) :
    SftpTransferManager :=
  { manager with backgroundTransfers := change manager.backgroundTransfers }

/-- A send on a channel of a control. -/
def send (control : Nat)
    (change : SftpTransferControl → SftpTransferControl) : SftpTransferManager :=
  { manager with channels := update manager.channels control (change (manager.channels control)) }

/-! ## 3. The steps -/

/-- `register_owned` up to the flag: the control under the id has one owner more, or there is none
    and the lock is kept. -/
def registerOwned (call : Nat) (id : Str) (nodeId : Option Str) : SftpTransferManager :=
  match manager.controls.lookup id with
  | some registered =>
    { manager.goTo call .ended with
      controls := manager.controls.insert id
        { registered with
          ownerCount := registered.ownerCount + 1
          nodeId := registered.nodeId <|> nodeId } }
  | none => { manager.goTo call (.registering id nodeId) with controlsLock := some call }

/-- The end of `register_owned`: a new control, cancelled by the flag that was read. -/
def enter (call : Nat) (id : Str) (nodeId : Option Str)
    (flag : ShutdownState) : SftpTransferManager :=
  { manager.goTo call .ended with
    channels := update manager.channels manager.made { cancelled := decide (flag ≠ .running) }
    made := manager.made + 1
    controls := manager.controls.insert id ⟨manager.made, 1, nodeId⟩
    controlsLock := none }

def unregister (id : Str) : SftpTransferManager :=
  match manager.controls.lookup id with
  | none => manager
  | some registered =>
    { manager with
      controls :=
        if registered.ownerCount - 1 = 0 then manager.controls.erase id
        else manager.controls.insert id
          { registered with ownerCount := registered.ownerCount - 1 } }

/-- `finish_background_transfer` up to the flag: nothing under the id, or the lock is kept. -/
def finish (call : Nat) (id : Str)
    (state : BackgroundTransferState) (error : Option Str) (itemCount : Option Nat) :
    SftpTransferManager :=
  match manager.backgroundTransfers.lookup id with
  | none => manager.goTo call .ended
  | some _ =>
    { manager.goTo call (.finishing id state error itemCount) with transfersLock := some call }

/-- The end of `finish_background_transfer`. -/
def settle (call : Nat) (id : Str) (state : BackgroundTransferState) (error : Option Str)
    (itemCount : Option Nat) (flag : ShutdownState) (now : Nat) : SftpTransferManager :=
  { (manager.goTo call .ended).onTransfers
      (·.modify id (·.finished flag state error itemCount now)) with
    transfersLock := none }

/-- `get_control`, and what the call does with what it finds. -/
def withControl (call : Nat) (id : Str) (found : Nat → Stage)
    (absent : Stage) : SftpTransferManager :=
  manager.goTo call
    (match manager.controls.lookup id with
    | some registered => found registered.control
    | none => absent)

inductive Action where
  /-- `register`, and `register_for_node` with a node -/
  | registerOwned (call : Nat) (id : Str) (nodeId : Option Str)
  | unregister (id : Str)
  | registerBackgroundTransfer (call : Nat) (snapshot : BackgroundTransferSnapshot)
  | updateBackgroundTransferStrategy (id : Str) (strategy : TransferStrategy)
  | markBackgroundTransferActive (id : Str)
  | updateBackgroundTransferProgress (id : Str) (transferred total speed : Nat)
  | finishBackgroundTransfer (call : Nat) (id : Str) (state : BackgroundTransferState)
      (error : Option Str) (itemCount : Option Nat)
  | cancel (call : Nat) (id : Str)
  | pause (call : Nat) (id : Str)
  | resume (call : Nat) (id : Str)
  | interrupt (call : Nat) (id : Str) (reason : Str)
  /-- the `compare_exchange` of `shutdown_session_transfers` -/
  | shutdownSessionTransfers
  /-- the next step of a call -/
  | advance (call : Nat)
  /-- the next step of the shutdown -/
  | advanceShutdown
  deriving DecidableEq

/-- The next step of a call that stands at `stage`. -/
def advance (now call : Nat) :
    Stage → Option SftpTransferManager
  | .registering id nodeId => some (manager.goTo call (.entering id nodeId manager.shutdownState))
  | .entering id nodeId flag => some (manager.enter call id nodeId flag)
  | .delivering snapshot =>
    some (manager.goTo call (.delivered (snapshot.registered manager.shutdownState now)))
  | .delivered snapshot =>
    if manager.transfersLock = none then
      some ((manager.goTo call .ended).onTransfers (·.insert snapshot.id snapshot))
    else none
  | .finishing id state error itemCount =>
    some (manager.goTo call (.settling id state error itemCount manager.shutdownState))
  | .settling id state error itemCount flag =>
    some (manager.settle call id state error itemCount flag now)
  | .cancelling control =>
    some ((manager.goTo call .ended).send control ({ · with cancelled := true }))
  | .pausing id control =>
    some ((manager.goTo call (.paused id)).send control ({ · with paused := true }))
  | .paused id =>
    if manager.transfersLock = none then
      some ((manager.goTo call .ended).onTransfers (·.modify id (·.paused)))
    else none
  | .resuming id control =>
    some ((manager.goTo call (.resumed id)).send control ({ · with paused := false }))
  | .resumed id =>
    if manager.transfersLock = none then
      some ((manager.goTo call .ended).onTransfers (·.modify id (·.resumed)))
    else none
  | .interrupting id control reason =>
    some ((manager.goTo call (.interrupted id reason)).send control
      ({ · with interruptReason := some reason }))
  | .interrupted id reason =>
    if manager.transfersLock = none then
      some ((manager.goTo call .ended).onTransfers (·.modify id (·.interrupted reason now)))
    else none
  | .ended => none

/-- The next step of the shutdown. -/
def advanceShutdown (now : Nat) :
    ShutdownStage → Option SftpTransferManager
  | .claimed =>
    if manager.controlsLock = none then
      some { manager with
        shutdown := some (.cancelling (manager.controls.entries.map fun e => e.2.control)) }
    else none
  | .cancelling (control :: rest) =>
    some { manager.send control ({ · with cancelled := true }) with
      shutdown := some (.cancelling rest) }
  | .cancelling [] =>
    if manager.transfersLock = none then
      some { manager.onTransfers (·.mapValues fun _ => (·.cancelledByShutdown now)) with
        shutdown := some .draining }
    else none
  -- the grace period ends, or there is no control left: either may be at any time
  | .draining => some { manager with shutdownState := .stopped, shutdown := some .ended }
  | .ended => none

/-- **One step at the time `now`**, where the locks it needs are free and the call stands there. -/
def next : Action × Nat → Option SftpTransferManager
  | (.registerOwned call id nodeId, _) =>
    if manager.controlsLock = none ∧ manager.calls call = none then
      some (manager.registerOwned call id nodeId)
    else none
  | (.unregister id, _) =>
    if manager.controlsLock = none then some (manager.unregister id) else none
  | (.registerBackgroundTransfer call snapshot, now) =>
    if manager.transfersLock = none ∧ manager.calls call = none then
      some ((manager.goTo call (.delivering snapshot)).onTransfers
        (·.retain fun _ => (·.retained now)))
    else none
  | (.updateBackgroundTransferStrategy id strategy, _) =>
    if manager.transfersLock = none then
      some (manager.onTransfers (·.modify id ({ · with strategy := strategy })))
    else none
  | (.markBackgroundTransferActive id, _) =>
    if manager.transfersLock = none then
      some (manager.onTransfers (·.modify id (·.markActive)))
    else none
  | (.updateBackgroundTransferProgress id transferred total speed, _) =>
    if manager.transfersLock = none then
      some (manager.onTransfers (·.modify id (·.progressed transferred total speed)))
    else none
  | (.finishBackgroundTransfer call id state error itemCount, _) =>
    if manager.transfersLock = none ∧ manager.calls call = none then
      some (manager.finish call id state error itemCount)
    else none
  | (.cancel call id, _) =>
    if manager.controlsLock = none ∧ manager.calls call = none then
      some (manager.withControl call id .cancelling .ended)
    else none
  | (.pause call id, _) =>
    if manager.controlsLock = none ∧ manager.calls call = none then
      some (manager.withControl call id (.pausing id) .ended)
    else none
  | (.resume call id, _) =>
    if manager.controlsLock = none ∧ manager.calls call = none then
      some (manager.withControl call id (.resuming id) .ended)
    else none
  | (.interrupt call id reason, _) =>
    if manager.controlsLock = none ∧ manager.calls call = none then
      some (manager.withControl call id (.interrupting id · reason) (.interrupted id reason))
    else none
  | (.shutdownSessionTransfers, _) =>
    if manager.shutdownState = .running then
      some { manager with shutdownState := .shuttingDown, shutdown := some .claimed }
    else some manager
  | (.advance call, now) => (manager.calls call).bind (manager.advance now call)
  | (.advanceShutdown, now) => manager.shutdown.bind (manager.advanceShutdown now)

end SftpTransferManager

end Hapcli.Sftp
