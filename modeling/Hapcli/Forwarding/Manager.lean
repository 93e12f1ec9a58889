/-
  Subject:   The calls of a `ForwardingManager` (`manager.rs`): `create_forward`, `stop_forward`,
             `restart_forward`, `delete_forward`, `suspend_all_and_save_rules` and
             `restore_saved_forwards`.

  Any number of calls are under way. A step is what a call does between two awaits; the loop of
  `restore_saved_forwards` may besides lose its turn before each rule. What is awaited, a start, a
  stop or an answer of the server, may come at any time, and a start or an answer may be a failure.

  * `ForwardingManager` -- the maps, and the calls that are under way;
  * `createForward`, `stopForward`, ... -- each call up to its first await, `advance` from there on;
  * `ForwardingManager.next` -- the steps.
-/
import Hapcli.Forwarding.Rule
import Hapcli.Lib.Runs
import Hapcli.Rust.Maps

namespace Hapcli.Forwarding

open Function
open Hapcli.Rust

/-! ## 1. The manager -/

/-- A `LocalForward`, `RemoteForward` or `DynamicForward` that listens: which one it is, its rule,
    and the connection it was started on. -/
structure ActiveForward where
  number : Nat
  rule : ForwardRule
  connection : Nat
  deriving DecidableEq

/-- What called `create_forward`, and what it does with the answer. -/
inductive Origin where
  | create
  /-- `restart_forward`, with the rule to put back -/
  | restart (rule : ForwardRule)
  /-- `restore_saved_forwards`, with the rule to put back and those after it -/
  | restore (rule : ForwardRule) (rules : List ForwardRule)
  deriving DecidableEq

/-- Where a call stands. -/
inductive CallStage where
  /-- awaits the start of the rule on a connection -/
  | starting (rule : ForwardRule) (origin : Origin) (connection : Nat)
  /-- awaits `cancel_on_server`; `stop_forward` keeps the rule, `delete_forward` does not -/
  | cancelling (forward : ActiveForward) (keep : Bool)
  /-- awaits `stop` or `finish_stop` -/
  | stopping (forward : ActiveForward) (keep : Bool)
  /-- `suspend_all_and_save_rules` awaits the stop of the first -/
  | suspending (forward : ActiveForward) (forwards : List ActiveForward)
  /-- the loop of `restore_saved_forwards`, with the rules to come -/
  | restoring (rules : List ForwardRule)
  deriving DecidableEq

/-- `ForwardingManager`, with the calls under way. The last two fields are not the code's: where
    each forward that was not yet given a stop was put, and the rule of a restart that failed in
    this step. -/
structure ForwardingManager where
  sshConnection : Nat
  /-- `local_forwards`, `remote_forwards` and `dynamic_forwards` -/
  forwards : ForwardType → Map Str ActiveForward
  stoppedForwards : Map Str ForwardRule
  calls : Map Nat CallStage
  /-- how many forwards were started -/
  made : Nat
  running : Nat → Option (ForwardType × Str)
  failedRestart : Option Str

namespace ForwardingManager

def new (sshConnection : Nat) : ForwardingManager where
  sshConnection := sshConnection
  forwards := fun _ => ∅
  stoppedForwards := ∅
  calls := ∅
  made := 0
  running := fun _ => none
  failedRestart := none

variable (manager : ForwardingManager)

/-- The map that has the id, in the order in which `stop_forward` and `delete_forward` look, and the
    forward there. -/
def findActive (id : Str) : Option (ForwardType × ActiveForward) :=
  ((manager.forwards .localForward).lookup id).map (.localForward, ·) <|>
    ((manager.forwards .dynamic).lookup id).map (.dynamic, ·) <|>
      ((manager.forwards .remote).lookup id).map (.remote, ·)

def hasRule (id : Str) : Bool :=
  (manager.findActive id).isSome || (manager.stoppedForwards.lookup id).isSome

/-- The call stands there now, or has returned. -/
def goTo (call : Nat) (stage : Option CallStage) : ForwardingManager :=
  { manager with
    calls :=
      match stage with
      | some stage => manager.calls.insert call stage
      | none => manager.calls.erase call }

/-- `stopped_forwards.insert`. -/
def insertStopped (rule : ForwardRule) (status : ForwardStatus) : ForwardingManager :=
  { manager with
    stoppedForwards := manager.stoppedForwards.insert rule.id { rule with status := status } }

/-- `stopped_forwards.remove`. -/
def eraseStopped (id : Str) : ForwardingManager :=
  { manager with stoppedForwards := manager.stoppedForwards.erase id }

/-- A forward is put into the map of its kind. -/
def insertActive (kind : ForwardType) (forward : ActiveForward) : ForwardingManager :=
  { manager with
    forwards := update manager.forwards kind
      ((manager.forwards kind).insert forward.rule.id forward)
    running := update manager.running forward.number (some (kind, forward.rule.id)) }

/-- A forward is taken out of its map to be stopped. -/
def eraseActive (kind : ForwardType) (id : Str) (forward : ActiveForward) : ForwardingManager :=
  { manager with
    forwards := update manager.forwards kind ((manager.forwards kind).erase id)
    running := update manager.running forward.number none }

/-! ## 2. The calls -/

/-- `create_forward` up to the start. -/
def accept (rule : ForwardRule) : Except ForwardingError ForwardRule :=
  let rule := rule.normalizeHostsForRuntime
  if manager.hasRule rule.id then .error (.alreadyExists rule.id) else .ok rule

def createForward (call : Nat) (rule : ForwardRule) : ForwardingManager :=
  match manager.accept rule with
  | .error _ => manager
  | .ok rule => manager.goTo call (some (.starting rule .create manager.sshConnection))

def restartForward (call : Nat) (id : Str) : ForwardingManager :=
  match manager.stoppedForwards.lookup id with
  | none => manager
  | some rule =>
    let rule := { rule with status := .starting }
    match (manager.eraseStopped id).accept rule with
    | .error _ =>
      { (manager.eraseStopped id).insertStopped rule .stopped with
        failedRestart := some rule.id }
    | .ok started =>
      (manager.eraseStopped id).goTo call
        (some (.starting started (.restart rule) manager.sshConnection))

/-- `stop_forward` with `keep`, `delete_forward` without. -/
def stopForward (call : Nat) (id : Str) (keep : Bool) : ForwardingManager :=
  match manager.findActive id with
  | some (.remote, forward) =>
    (manager.eraseActive .remote id forward).goTo call (some (.cancelling forward keep))
  | some (kind, forward) =>
    (manager.eraseActive kind id forward).goTo call (some (.stopping forward keep))
  | none => if keep then manager else manager.eraseStopped id

/-- What `suspend_all_and_save_rules` takes out of the maps. -/
def allActive : List ActiveForward :=
  ((manager.forwards .localForward).entries ++ (manager.forwards .dynamic).entries ++
    (manager.forwards .remote).entries).map (·.2)

/-- The stop of the next forward to suspend, if there is one. -/
def suspendNext : List ActiveForward → Option CallStage
  | [] => none
  | forward :: forwards => some (.suspending forward forwards)

/-- `suspend_all_and_save_rules` up to the first stop. -/
def suspendAll (call : Nat) : ForwardingManager :=
  { manager.goTo call (suspendNext manager.allActive) with
    forwards := fun _ => ∅
    running := fun number =>
      if number ∈ manager.allActive.map (·.number) then none else manager.running number }

def listStoppedForwards : List ForwardRule :=
  (manager.stoppedForwards.entries.map (·.2)).mergeSort fun a b => !decide (b.id < a.id)

/-- `restore_saved_forwards` up to its loop. -/
def restoreSaved (call : Nat) (sshConnection : Nat) : ForwardingManager :=
  { manager with sshConnection := sshConnection }.goTo call
    (some (.restoring manager.listStoppedForwards))

/-- A turn of its loop, up to the start. -/
def restoreNext (call : Nat) : List ForwardRule → ForwardingManager
  | [] => manager.goTo call none
  | rule :: rules =>
    let restarting := { rule with status := .starting }
    match (manager.eraseStopped rule.id).accept restarting with
    | .error _ =>
      ((manager.eraseStopped rule.id).insertStopped restarting .suspended).goTo call
        (some (.restoring rules))
    | .ok started =>
      (manager.eraseStopped rule.id).goTo call
        (some (.starting started (.restore restarting rules) manager.sshConnection))

/-- The rule of a forward that has started, with the address and the port it listens on. -/
def activated (rule : ForwardRule) (address : Str) (port : UInt16) : ForwardRule :=
  match rule.forwardType with
  | .remote => { rule with bindPort := port, status := .active }
  | _ => { rule with bindAddress := address, bindPort := port, status := .active }

/-- Where the call goes on when a start is over. -/
def Origin.after : Origin → Option CallStage
  | .create | .restart _ => none
  | .restore _ rules => some (.restoring rules)

/-- The start has succeeded: the forward is put under its id. -/
def started (call : Nat) (rule : ForwardRule) (origin : Origin)
    (connection : Nat) (address : Str) (port : UInt16) : ForwardingManager :=
  { (manager.insertActive rule.forwardType
      ⟨manager.made, activated rule address port, connection⟩).goTo call (Origin.after origin) with
    made := manager.made + 1 }

/-- The start has failed. -/
def startFailed (call : Nat) : Origin → ForwardingManager
  | .create => manager.goTo call none
  | .restart rule =>
    { (manager.insertStopped rule .stopped).goTo call none with failedRestart := some rule.id }
  | .restore rule rules =>
    (manager.insertStopped rule .suspended).goTo call (some (.restoring rules))

/-- What is awaited. -/
inductive Answer where
  | started (address : Str) (port : UInt16)
  | startFailed
  | cancelled (ok : Bool)
  | stopped
  /-- nothing: the turn of the loop of `restore_saved_forwards` -/
  | turn
  deriving DecidableEq

/-- A call goes on when what it awaits is there. -/
def advance (call : Nat) :
    CallStage → Answer → Option ForwardingManager
  | .starting rule origin connection, .started address port =>
    match rule.validate with
    | .ok () => some (manager.started call rule origin connection address port)
    | .error _ => none
  | .starting _ origin _, .startFailed => some (manager.startFailed call origin)
  | .cancelling forward keep, .cancelled true =>
    some (manager.goTo call (some (.stopping forward keep)))
  | .cancelling forward _, .cancelled false =>
    some ((manager.insertActive .remote forward).goTo call none)
  | .stopping forward keep, .stopped =>
    some ((if keep then manager.insertStopped forward.rule .stopped else manager).goTo call none)
  | .suspending forward forwards, .stopped =>
    some ((manager.insertStopped forward.rule .suspended).goTo call (suspendNext forwards))
  | .restoring rules, .turn => some (manager.restoreNext call rules)
  | _, _ => none

inductive Action where
  | createForward (call : Nat) (rule : ForwardRule)
  | restartForward (call : Nat) (id : Str)
  | stopForward (call : Nat) (id : Str)
  | deleteForward (call : Nat) (id : Str)
  | suspendAllAndSaveRules (call : Nat)
  | restoreSavedForwards (call : Nat) (sshConnection : Nat)
  | advance (call : Nat) (answer : Answer)
  deriving DecidableEq

/-- A call begins, under a number that no call has. -/
def beginCall (call : Nat) (after : ForwardingManager) : Option ForwardingManager :=
  if manager.calls.lookup call = none then some after else none

/-- The steps, after the last failure of a restart has been forgotten. -/
def step : Action → Option ForwardingManager
  | .createForward call rule => manager.beginCall call (manager.createForward call rule)
  | .restartForward call id => manager.beginCall call (manager.restartForward call id)
  | .stopForward call id => manager.beginCall call (manager.stopForward call id true)
  | .deleteForward call id => manager.beginCall call (manager.stopForward call id false)
  | .suspendAllAndSaveRules call => manager.beginCall call (manager.suspendAll call)
  | .restoreSavedForwards call sshConnection =>
    manager.beginCall call (manager.restoreSaved call sshConnection)
  | .advance call answer =>
    (manager.calls.lookup call).bind fun stage => manager.advance call stage answer

/-- **One step.** -/
def next (a : Action) : Option ForwardingManager :=
  { manager with failedRestart := none }.step a

end ForwardingManager

end Hapcli.Forwarding
