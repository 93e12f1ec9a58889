/-
  Subject:   The registry of SSH connections (`connection_registry.rs`).

  * **`release_eq`** -- `release` as it stands in the source.

  A call runs alone: of the locks nothing is left, and an asynchronous task is cut where it awaits.
  What only the clock, the SFTP channel, the probe of the remote environment and the subscribers
  of events see is left out. The identifiers that are drawn are arguments of the calls, and so are
  the answers of the transport to a probe.
-/
import Hapcli.Rust.Maps
import Hapcli.Ssh.Config

namespace Hapcli.Ssh

open Hapcli.Rust

/-! ## 1. Entries -/

inductive ConnectionConsumer where
  | terminal (id : Str)
  | sftp (id : Str)
  | portForward (id : Str)
  | x11Forward (id : Str)
  | ide (id : Str)
  | nodeRouter (id : Str)
  deriving DecidableEq

/-- `ConnectionPoolConfig`; a duration counts nanoseconds. -/
structure ConnectionPoolConfig where
  idleTimeout : Option Nat := some (30 * 60 * 10 ^ 9)
  maxConnections : Nat := 128
  protectOnExit : Bool := true
  deriving DecidableEq

structure ConnectionInfo where
  connectionId : Str
  key : Str
  host : Str
  port : UInt16
  username : Str
  parentConnectionId : Option Str
  state : ConnectionState
  refCount : Nat
  keepAlive : Bool
  consumers : List ConnectionConsumer
  idleTimeoutSecs : Option Nat
  deriving DecidableEq

/-- `ConnectionEntry`; of the physical transport only the identity. -/
structure ConnectionEntry where
  connectionId : Str
  key : Str
  config : SshConfig
  parentConnectionId : Option Str := none
  parentConnectionConsumer : Option ConnectionConsumer := none
  state : ConnectionState := .connecting
  refCount : Nat := 0
  keepAlive : Bool := false
  consumers : List ConnectionConsumer := []
  physical : Option Nat := none
  heartbeatFailures : Nat := 0
  idleGeneration : Nat := 0
  idleTimeout : Option Nat
  retireWhenUnused : Bool
  deriving DecidableEq

namespace ConnectionEntry

variable (entry : ConnectionEntry)

def info : ConnectionInfo where
  connectionId := entry.connectionId
  key := entry.key
  host := entry.config.host
  port := entry.config.port
  username := entry.config.username
  parentConnectionId := entry.parentConnectionId
  state := entry.state
  refCount := entry.refCount
  keepAlive := entry.keepAlive
  consumers := entry.consumers
  idleTimeoutSecs := entry.idleTimeout.map (· / 10 ^ 9)

def cancelIdleTimer : ConnectionEntry :=
  { entry with idleGeneration := entry.idleGeneration + 1 }

/-- A consumer is added and counted, unless it is there (`acquire`). -/
def addConsumer (consumer : ConnectionConsumer) : ConnectionEntry :=
  if consumer ∈ entry.consumers then entry
  else { entry with
    consumers := entry.consumers ++ [consumer]
    refCount := entry.refCount + 1 }

/-- A consumer is added and counted; the first one wakes an idle connection that has a transport
    (`acquire_consumer_for_connection`). -/
def borrow (consumer : ConnectionConsumer) : ConnectionEntry :=
  if consumer ∈ entry.consumers then entry
  else
    let entry' := entry.addConsumer consumer
    if entry.refCount = 0 then
      if entry.state = .idle ∧ entry.physical.isSome then
        { entry'.cancelIdleTimer with state := .active }
      else entry'.cancelIdleTimer
    else entry'

/-- A consumer is taken away, and counted down if it was there (`release`). -/
def dropConsumer (consumer : ConnectionConsumer) : ConnectionEntry :=
  let kept := entry.consumers.filter (· ≠ consumer)
  { entry with
    consumers := kept
    refCount := if kept.length ≠ entry.consumers.length then entry.refCount - 1
      else entry.refCount }

/-- The entry becomes idle. -/
def toIdle : ConnectionEntry := { entry.cancelIdleTimer with state := .idle }

/-- The entry with another parent, and another consumer held there. -/
def linked (parentId : Option Str) (consumer : Option ConnectionConsumer) : ConnectionEntry :=
  { entry with parentConnectionId := parentId, parentConnectionConsumer := consumer }

/-- The consumer that the entry holds on its parent, with the parent. -/
def parentOwnership : Option (Str × ConnectionConsumer) :=
  entry.parentConnectionConsumer.bind fun consumer =>
    entry.parentConnectionId.map fun parentId => (parentId, consumer)

end ConnectionEntry

/-! ## 2. The registry -/

/-- A stretch of `disconnect_idle_timed_out_connection` between two awaits. -/
inductive Closing where
  | start (connectionId : Str)
  | finish (connectionId : Str)
  deriving DecidableEq

/-- What is done with the consumer a child holds on its parent. -/
inductive OwnershipEvent where
  | recorded (childId parentId : Str) (consumer : ConnectionConsumer)
  | released (childId parentId : Str) (consumer : ConnectionConsumer)
  deriving DecidableEq

/-- `SshConnectionRegistry`, and the tasks it has spawned: the idle timers that sleep, and the
    timeouts that disconnect one connection after the other. -/
structure SshConnectionRegistry where
  config : ConnectionPoolConfig := {}
  byKey : Map Str ConnectionEntry := ∅
  byId : Map Str Str := ∅
  idleTaskRuntime : Bool := false
  /-- the nodes that the emitter knows the connections of -/
  nodeEventEmitter : Option (Map Str Str) := none
  sleeping : List (Str × Nat) := []
  closing : List (List Closing) := []
  /-- a history that no function reads -/
  ledger : List OwnershipEvent := []

namespace SshConnectionRegistry

variable (registry : SshConnectionRegistry) (connectionId : Str)

/-- The entry of a connection, with its key. -/
def find : Option (Str × ConnectionEntry) :=
  (registry.byId.lookup connectionId).bind fun key =>
    (registry.byKey.lookup key).map fun entry => (key, entry)

def get : Option ConnectionEntry :=
  (registry.find connectionId).map (·.2)

/-- What is written to the entry at a key. -/
def put (key : Str) (entry : ConnectionEntry) : SshConnectionRegistry :=
  { registry with byKey := registry.byKey.insert key entry }

/-- `new_with_key`, under an identifier drawn for the entry. -/
def newEntry (config : SshConfig) (key connectionId : Str) (retireWhenUnused : Bool) :
    ConnectionEntry where
  connectionId := connectionId
  key := key
  config := config
  idleTimeout := registry.config.idleTimeout
  retireWhenUnused := retireWhenUnused

/-- A new entry in both maps. -/
def insertEntry (entry : ConnectionEntry) : SshConnectionRegistry :=
  { registry with
    byKey := registry.byKey.insert entry.key entry
    byId := registry.byId.insert entry.connectionId entry.key }

def connectionEntryIsRegistered (connectionId key : Str) : Bool :=
  registry.byId.lookup connectionId = some key ∧
    ((registry.byKey.lookup key).map (·.connectionId)) = some connectionId

def setTaskRuntime : SshConnectionRegistry := { registry with idleTaskRuntime := true }

def setNodeEventEmitter (nodes : Map Str Str) : SshConnectionRegistry :=
  { registry with nodeEventEmitter := some nodes }

/-- `register` and `unregister` of the emitter. -/
def editEmitter (edit : Map Str Str → Map Str Str) : SshConnectionRegistry :=
  { registry with nodeEventEmitter := registry.nodeEventEmitter.map edit }

/-! ## 3. Consumers -/

section Acquire

variable (parts : KeyParts)

/-- `acquire`; of the handle the identifier of its entry. -/
def acquire (config : SshConfig) (consumer : ConnectionConsumer) (uuid : Str) :
    SshConnectionRegistry × Str :=
  let key := config.connectionKey parts
  match registry.byKey.lookup key with
  | some entry =>
    (registry.put key (entry.cancelIdleTimer.addConsumer consumer), entry.connectionId)
  | none =>
    let entry := registry.newEntry config key uuid false
    ((registry.insertEntry entry).put key (entry.cancelIdleTimer.addConsumer consumer),
      entry.connectionId)

/-- The pool key of a dedicated connection. -/
def dedicatedKey (config : SshConfig) (uuid : Str) : Str :=
  config.connectionKey parts ++ ("|dedicated=".toList ++ uuid)

def acquireDedicated (config : SshConfig) (consumer : ConnectionConsumer) (poolUuid uuid : Str) :
    SshConnectionRegistry × Str :=
  let entry := { registry.newEntry config (dedicatedKey parts config poolUuid) uuid true with
    consumers := [consumer]
    refCount := 1 }
  (registry.insertEntry entry, entry.connectionId)

end Acquire

def acquireConsumerForConnection (consumer : ConnectionConsumer) :
    SshConnectionRegistry × Option Str :=
  match registry.find connectionId with
  | none => (registry, none)
  | some (key, entry) => (registry.put key (entry.borrow consumer), some entry.connectionId)

def startIdleTimerForEntry (key : Str) (entry : ConnectionEntry) : SshConnectionRegistry :=
  let registry' := registry.put key entry.toIdle
  if entry.idleTimeout.all (· = 0) ∨ registry.idleTaskRuntime = false then registry'
  else { registry' with
    sleeping := registry.sleeping ++ [(entry.connectionId, entry.toIdle.idleGeneration)] }

/-- `release`, up to the retirement of the entry; whether it is retired. -/
def dropConsumer (connectionId : Str) (consumer : ConnectionConsumer) :
    SshConnectionRegistry × Bool :=
  match registry.find connectionId with
  | none => (registry, false)
  | some (key, entry) =>
    let entry' := entry.dropConsumer consumer
    if entry'.refCount = 0 then
      if entry.retireWhenUnused then (registry.put key entry', true)
      else if entry.keepAlive then (registry.put key entry'.toIdle, false)
      else (registry.startIdleTimerForEntry key entry', false)
    else (registry.put key entry', false)

/-- What a child held on its parent is entered as released. -/
def noteReleased : Option (Str × ConnectionConsumer) → SshConnectionRegistry
  | none => registry
  | some (parentId, consumer) =>
    { registry with ledger := registry.ledger ++ [.released connectionId parentId consumer] }

/-- `retire_connection`, up to the release of what the entry held on its parent. -/
def unregister :
    Option (SshConnectionRegistry × ConnectionInfo × Option (Str × ConnectionConsumer)) :=
  match registry.find connectionId with
  | none => none
  | some (key, entry) =>
    if registry.connectionEntryIsRegistered connectionId key then
      let removed := { registry with
        byKey := if entry.connectionId = connectionId then registry.byKey.erase key
          else registry.byKey
        byId := registry.byId.erase connectionId }
      some (removed.noteReleased connectionId entry.parentOwnership,
        entry.cancelIdleTimer.info, entry.parentOwnership)
    else none

/-- `release`, along the parents; each retirement takes one connection away. -/
def releaseLoop : Nat → SshConnectionRegistry → Str → ConnectionConsumer → SshConnectionRegistry
  | 0, registry, _, _ => registry
  | fuel + 1, registry, connectionId, consumer =>
    match registry.dropConsumer connectionId consumer with
    | (registry, false) => registry
    | (registry, true) =>
      match registry.unregister connectionId with
      | none => registry
      | some (registry, _, none) => registry
      | some (registry, _, some (parentId, parentConsumer)) =>
        releaseLoop fuel registry parentId parentConsumer

def release (consumer : ConnectionConsumer) : SshConnectionRegistry :=
  releaseLoop (registry.byId.keys.length + 1) registry connectionId consumer

/-- The release of what a child held on its parent. -/
def releaseOwnership : Option (Str × ConnectionConsumer) → SshConnectionRegistry
  | none => registry
  | some (parentId, consumer) => registry.release parentId consumer

def retireConnection : SshConnectionRegistry × Option ConnectionInfo :=
  match registry.unregister connectionId with
  | none => (registry, none)
  | some (registry, info, ownership) => (registry.releaseOwnership ownership, some info)

/-! ## 4. Parents -/

def setParentConnectionId (parentConnectionId : Option Str) :
    SshConnectionRegistry × Option ConnectionInfo :=
  match registry.find connectionId with
  | none => (registry, none)
  | some (key, entry) =>
    if registry.connectionEntryIsRegistered connectionId key then
      match parentConnectionId with
      | some parentId =>
        let entry' := { entry with parentConnectionId := some parentId }
        (registry.put key entry', some entry'.info)
      | none =>
        let entry' := entry.linked none none
        (((registry.put key entry').noteReleased connectionId
          entry.parentOwnership).releaseOwnership entry.parentOwnership, some entry'.info)
    else (registry, none)

/-- `set_parent_connection_ownership`. What stands in the ledger already is not entered again. -/
def setParentConnectionOwnership (connectionId parentConnectionId : Str)
    (parentConsumer : ConnectionConsumer) : SshConnectionRegistry × Option ConnectionInfo :=
  match registry.find connectionId with
  | none => (registry, none)
  | some (key, entry) =>
    if registry.connectionEntryIsRegistered connectionId key then
      let entry' := entry.linked (some parentConnectionId) (some parentConsumer)
      let noted := if entry.parentOwnership = some (parentConnectionId, parentConsumer) then []
        else [.recorded connectionId parentConnectionId parentConsumer]
      ({ registry.put key entry' with ledger := registry.ledger ++ noted }, some entry'.info)
    else (registry, none)

/-- `descendant_connection_infos`: the stack of connections still to expand, the top first, and
    the infos so far. Over parents that form a cycle the loop does not end. -/
def descendantsLoop : Nat → List Str → List ConnectionInfo → Option (List ConnectionInfo)
  | _, [], descendants => some descendants
  | 0, _ :: _, _ => none
  | fuel + 1, parentId :: stack, descendants =>
    let children := (registry.byKey.entries.filter
      (·.2.parentConnectionId = some parentId)).map (·.2.connectionId)
    descendantsLoop fuel (children.reverse ++ stack)
      (descendants ++ (children.filterMap registry.get).map (·.info))

/-- `descendant_connection_infos`; `none` when the loop takes more rounds than `fuel`. -/
def descendantConnectionInfos (fuel : Nat) (rootConnectionId : Str) :
    Option (List ConnectionInfo) :=
  if (registry.get rootConnectionId).isNone then some []
  else registry.descendantsLoop fuel [rootConnectionId] []

/-! ## 5. States -/

/-- `mark_state`, `mark_state_without_event`. -/
def markState (state : ConnectionState) : SshConnectionRegistry × Option ConnectionInfo :=
  match registry.find connectionId with
  | none => (registry, none)
  | some (key, entry) =>
    let entry' := { entry with state }
    (registry.put key entry', some entry'.info)

/-- `set_physical`, `clear_physical`. -/
def setPhysical (physical : Option Nat) : SshConnectionRegistry :=
  match registry.find connectionId with
  | none => registry
  | some (key, entry) => registry.put key { entry with physical }

def setKeepAlive (keepAlive : Bool) : SshConnectionRegistry × Option ConnectionInfo :=
  match registry.find connectionId with
  | none => (registry, none)
  | some (key, entry) =>
    let entry' := { entry with keepAlive }
    if keepAlive then
      let entry' := entry'.cancelIdleTimer
      (registry.put key entry', some entry'.info)
    else if entry'.state = .idle ∧ entry'.refCount = 0 then
      (registry.startIdleTimerForEntry key entry', some entry'.toIdle.info)
    else (registry.put key entry', some entry'.info)

/-- One entry in the loop of `set_idle_timeout`. -/
def restartIdleTimer (key : Str) : SshConnectionRegistry :=
  match registry.byKey.lookup key with
  | none => registry
  | some entry =>
    let entry' := entry.cancelIdleTimer
    if entry'.state = .idle ∧ entry'.refCount = 0 ∧ entry'.keepAlive = false then
      registry.startIdleTimerForEntry key entry'
    else registry.put key entry'

def setIdleTimeout (idleTimeout : Option Nat) : SshConnectionRegistry :=
  registry.byKey.keys.foldl restartIdleTimer
    { registry with config := { registry.config with idleTimeout } }

/-- The states in which `mark_link_down_cascade` takes a connection for one that was up. -/
def stateIsUp : ConnectionState → Bool
  | .active | .idle | .connecting | .reconnecting | .linkDown => true
  | .disconnecting | .disconnected | .error _ => false

/-- The loop of `mark_link_down_cascade`: the registry, and the connections marked. -/
def markLinkDownLoop : List Str → SshConnectionRegistry →
    SshConnectionRegistry × List ConnectionInfo
  | [], registry => (registry, [])
  | connectionId :: rest, registry =>
    if (registry.get connectionId).any fun entry => stateIsUp entry.state then
      let (registry, info) := registry.markState connectionId .linkDown
      let (registry, changed) := markLinkDownLoop rest registry
      (registry, info.toList ++ changed)
    else markLinkDownLoop rest registry

/-- `mark_link_down_cascade`; nothing when the descendants take more than `fuel` rounds. -/
def markLinkDownCascade (fuel : Nat) (rootConnectionId : Str) :
    SshConnectionRegistry × List ConnectionInfo :=
  if (registry.get rootConnectionId).isNone then (registry, [])
  else
    match registry.descendantConnectionInfos fuel rootConnectionId with
    | none => (registry, [])
    | some children =>
      markLinkDownLoop (rootConnectionId :: children.map (·.connectionId)) registry

def markTransportLostCascade (fuel : Nat) (rootConnectionId : Str) :
    SshConnectionRegistry × List ConnectionInfo :=
  let (registry, changed) := registry.markLinkDownCascade fuel rootConnectionId
  (changed.foldl (fun registry info => registry.setPhysical info.connectionId none) registry,
    changed)

inductive KeepaliveProbeResult where
  | ok
  | timeout
  | ioError
  deriving DecidableEq

inductive ProbeConnectionStatus where
  | alive
  | dead
  | notFound
  | notApplicable
  deriving DecidableEq

def heartbeatFailThreshold : Nat := 2

/-- `probe_active_connection`: what the first and the second probe of the transport answer. -/
def probeActiveConnection (first second : KeepaliveProbeResult) :
    SshConnectionRegistry × ProbeConnectionStatus :=
  match registry.find connectionId with
  | none => (registry, .notFound)
  | some (key, entry) =>
    let alive := registry.put key { entry with heartbeatFailures := 0 }
    if entry.state ≠ .active ∧ entry.state ≠ .idle then (registry, .notApplicable)
    else match first with
      | .ok => (alive, .alive)
      | .timeout =>
        let failures := entry.heartbeatFailures + 1
        (registry.put key { entry with heartbeatFailures := failures },
          if failures < heartbeatFailThreshold then .alive else .dead)
      | .ioError => if second = .ok then (alive, .alive) else (registry, .dead)

/-- One connection in the loop of `probe_active_connections`. -/
def heartbeat (fuel : Nat) (connectionId : Str) (first second : KeepaliveProbeResult) :
    SshConnectionRegistry :=
  match registry.probeActiveConnection connectionId first second with
  | (registry, .dead) => (registry.markTransportLostCascade fuel connectionId).1
  | (registry, _) => registry

def probeSingleConnection (first second : KeepaliveProbeResult) :
    SshConnectionRegistry × ProbeConnectionStatus :=
  match registry.find connectionId with
  | none => (registry, .notFound)
  | some (key, entry) =>
    let revived := ((registry.put key { entry with heartbeatFailures := 0 }).markState
      connectionId .active).1
    match entry.state, first with
    | .active, .ok | .idle, .ok => (registry, .alive)
    | .active, _ | .idle, _ => (registry, .dead)
    | .linkDown, .ok => (revived, .alive)
    | .linkDown, .timeout =>
      -- one more probe after the grace period
      if second = .ok then (revived, .alive)
      else ((registry.markState connectionId .linkDown).1, .dead)
    | .linkDown, .ioError => (registry, .dead)
    | _, _ => (registry, .notApplicable)

/-! ## 6. The idle timer -/

/-- `disconnect_if_idle_timeout`, up to the first connection it disconnects: the descendants, the
    lowest first, and then the root. -/
def disconnectIfIdleTimeout (fuel : Nat) (rootConnectionId : Str) (generation : Nat) :
    SshConnectionRegistry :=
  match registry.get rootConnectionId with
  | none => registry
  | some root =>
    if root.idleGeneration ≠ generation ∨ root.refCount ≠ 0 ∨ root.keepAlive ∨
        root.state ≠ .idle then registry
    else
      match registry.descendantConnectionInfos fuel rootConnectionId with
      | none => registry
      | some children =>
        let cascade := (children.map (·.connectionId)).reverse ++ [rootConnectionId]
        { registry with closing := registry.closing ++ [cascade.map .start] }

/-- The consumer that a node holds on the connection of its ancestor. -/
def ancestorConsumer (nodeId : Str) : ConnectionConsumer :=
  .nodeRouter (nodeId ++ ":ancestor".toList)

/-- The release with which `disconnect_idle_timed_out_connection` begins. -/
def releaseAncestor (parentConnectionId : Option Str) : SshConnectionRegistry :=
  match parentConnectionId, registry.nodeEventEmitter.bind (·.lookup connectionId) with
  | some parentId, some nodeId => registry.release parentId (ancestorConsumer nodeId)
  | _, _ => registry

/-- `disconnect_idle_timed_out_connection`, up to the await in `clear_physical`; `none` when it
    returns at once. -/
def startDisconnect : Option SshConnectionRegistry :=
  match registry.find connectionId with
  | none => none
  | some (key, entry) =>
    if entry.state = .disconnected ∨ entry.state = .disconnecting then none
    else
      some (((registry.put key entry.cancelIdleTimer).releaseAncestor connectionId
        entry.parentConnectionId).setPhysical connectionId none)

/-- The rest of `disconnect_idle_timed_out_connection`. -/
def finishDisconnect : SshConnectionRegistry :=
  ((registry.markState connectionId .disconnected).1.editEmitter
    (·.erase connectionId)).retireConnection connectionId |>.1

/-- The next stretch of a timeout that disconnects its connections. -/
def closeNext (task : Nat) : SshConnectionRegistry :=
  match registry.closing[task]? with
  | none | some [] => registry
  | some (.start connectionId :: rest) =>
    match registry.startDisconnect connectionId with
    | none => { registry with closing := registry.closing.set task rest }
    | some registry' =>
      { registry' with closing := registry'.closing.set task (.finish connectionId :: rest) }
  | some (.finish connectionId :: rest) =>
    let registry' := registry.finishDisconnect connectionId
    { registry' with closing := registry'.closing.set task rest }

/-- A timer has slept long enough. -/
def wake (fuel : Nat) (timer : Nat) : SshConnectionRegistry :=
  match registry.sleeping[timer]? with
  | none => registry
  | some (connectionId, generation) =>
    { registry with sleeping := registry.sleeping.eraseIdx timer }.disconnectIfIdleTimeout fuel
      connectionId generation

/-! ## 7. Runs -/

/-- The calls and the steps of spawned tasks. -/
inductive Operation where
  | acquire (config : SshConfig) (consumer : ConnectionConsumer) (uuid : Str)
  | acquireDedicated (config : SshConfig) (consumer : ConnectionConsumer) (poolUuid uuid : Str)
  | acquireConsumerForConnection (connectionId : Str) (consumer : ConnectionConsumer)
  | release (connectionId : Str) (consumer : ConnectionConsumer)
  | retireConnection (connectionId : Str)
  | setParentConnectionId (connectionId : Str) (parentConnectionId : Option Str)
  | setParentConnectionOwnership (connectionId parentConnectionId : Str)
      (parentConsumer : ConnectionConsumer)
  | markState (connectionId : Str) (state : ConnectionState)
  | setPhysical (connectionId : Str) (physical : Option Nat)
  | setKeepAlive (connectionId : Str) (keepAlive : Bool)
  | setIdleTimeout (idleTimeout : Option Nat)
  | setTaskRuntime
  | setNodeEventEmitter (nodes : Map Str Str)
  | registerNode (connectionId nodeId : Str)
  | markLinkDownCascade (fuel : Nat) (rootConnectionId : Str)
  | markTransportLostCascade (fuel : Nat) (rootConnectionId : Str)
  | heartbeat (fuel : Nat) (connectionId : Str) (first second : KeepaliveProbeResult)
  | probeSingleConnection (connectionId : Str) (first second : KeepaliveProbeResult)
  | wake (fuel : Nat) (timer : Nat)
  | closeNext (task : Nat)
  /-- no call: the entries are iterated in another order from now on -/
  | rehash (entries : List (Σ _ : Str, ConnectionEntry))

/-- The registry after an operation. -/
def step (parts : KeyParts) : SshConnectionRegistry → Operation → SshConnectionRegistry
  | registry, .acquire config consumer uuid => (registry.acquire parts config consumer uuid).1
  | registry, .acquireDedicated config consumer poolUuid uuid =>
    (registry.acquireDedicated parts config consumer poolUuid uuid).1
  | registry, .acquireConsumerForConnection connectionId consumer =>
    (registry.acquireConsumerForConnection connectionId consumer).1
  | registry, .release connectionId consumer => registry.release connectionId consumer
  | registry, .retireConnection connectionId => (registry.retireConnection connectionId).1
  | registry, .setParentConnectionId connectionId parentConnectionId =>
    (registry.setParentConnectionId connectionId parentConnectionId).1
  | registry, .setParentConnectionOwnership connectionId parentConnectionId parentConsumer =>
    (registry.setParentConnectionOwnership connectionId parentConnectionId parentConsumer).1
  | registry, .markState connectionId state => (registry.markState connectionId state).1
  | registry, .setPhysical connectionId physical => registry.setPhysical connectionId physical
  | registry, .setKeepAlive connectionId keepAlive =>
    (registry.setKeepAlive connectionId keepAlive).1
  | registry, .setIdleTimeout idleTimeout => registry.setIdleTimeout idleTimeout
  | registry, .setTaskRuntime => registry.setTaskRuntime
  | registry, .setNodeEventEmitter nodes => registry.setNodeEventEmitter nodes
  | registry, .registerNode connectionId nodeId =>
    registry.editEmitter (·.insert connectionId nodeId)
  | registry, .markLinkDownCascade fuel rootConnectionId =>
    (registry.markLinkDownCascade fuel rootConnectionId).1
  | registry, .markTransportLostCascade fuel rootConnectionId =>
    (registry.markTransportLostCascade fuel rootConnectionId).1
  | registry, .heartbeat fuel connectionId first second =>
    registry.heartbeat fuel connectionId first second
  | registry, .probeSingleConnection connectionId first second =>
    (registry.probeSingleConnection connectionId first second).1
  | registry, .wake fuel timer => registry.wake fuel timer
  | registry, .closeNext task => registry.closeNext task
  | registry, .rehash entries => { registry with byKey := registry.byKey.reorder entries }

/-- A run of operations. -/
def run (parts : KeyParts) (registry : SshConnectionRegistry) (operations : List Operation) :
    SshConnectionRegistry :=
  operations.foldl (step parts) registry

/-! ## 8. The loop of `release` -/

variable {registry : SshConnectionRegistry}

theorem find_eq_some_iff {connectionId key : Str} {entry : ConnectionEntry} :
    registry.find connectionId = some (key, entry) ↔
      registry.byId.lookup connectionId = some key ∧ registry.byKey.lookup key = some entry := by
  unfold find
  rw [Option.bind_eq_some_iff]
  constructor
  · rintro ⟨key', hkey, h⟩
    obtain ⟨entry', hentry, heq⟩ := Option.map_eq_some_iff.mp h
    cases heq
    exact ⟨hkey, hentry⟩
  · rintro ⟨hkey, hentry⟩
    exact ⟨key, hkey, by rw [hentry, Option.map_some]⟩

variable (connectionId key : Str)

@[simp] theorem put_byId (entry : ConnectionEntry) :
    (registry.put key entry).byId = registry.byId := rfl

@[simp] theorem put_byKey (entry : ConnectionEntry) :
    (registry.put key entry).byKey = registry.byKey.insert key entry := rfl

@[simp] theorem noteReleased_byId (ownership : Option (Str × ConnectionConsumer)) :
    (registry.noteReleased connectionId ownership).byId = registry.byId := by
  cases ownership <;> rfl

@[simp] theorem noteReleased_byKey (ownership : Option (Str × ConnectionConsumer)) :
    (registry.noteReleased connectionId ownership).byKey = registry.byKey := by
  cases ownership <;> rfl

theorem startIdleTimerForEntry_eq (entry : ConnectionEntry) :
    ∃ sleeping, registry.startIdleTimerForEntry key entry =
      { registry.put key entry.toIdle with sleeping } := by
  unfold startIdleTimerForEntry
  split
  · exact ⟨registry.sleeping, rfl⟩
  · exact ⟨_, rfl⟩

@[simp] theorem startIdleTimerForEntry_byId (entry : ConnectionEntry) :
    (registry.startIdleTimerForEntry key entry).byId = registry.byId := by
  obtain ⟨sleeping, h⟩ := registry.startIdleTimerForEntry_eq key entry
  rw [h, put_byId]

theorem dropConsumer_byId (consumer : ConnectionConsumer) :
    (registry.dropConsumer connectionId consumer).1.byId = registry.byId := by
  unfold dropConsumer
  split
  · rfl
  · dsimp only
    split_ifs <;> simp

variable {registry' : SshConnectionRegistry} {info : ConnectionInfo}
  {ownership : Option (Str × ConnectionConsumer)}

theorem unregister_spec {connectionId : Str}
    (h : registry.unregister connectionId = some (registry', info, ownership)) :
    ∃ key entry, registry.find connectionId = some (key, entry) ∧
      entry.connectionId = connectionId ∧ ownership = entry.parentOwnership ∧
      registry'.byKey = registry.byKey.erase key ∧
      registry'.byId = registry.byId.erase connectionId ∧
      registry'.ledger = (registry.noteReleased connectionId ownership).ledger := by
  unfold unregister at h
  cases hfind : registry.find connectionId with
  | none => rw [hfind] at h; cases h
  | some found =>
    obtain ⟨key, entry⟩ := found
    rw [hfind] at h
    dsimp only at h
    split at h
    · next hregistered =>
        have hentry := ((find_eq_some_iff).mp hfind).2
        have hid : entry.connectionId = connectionId := by
          have := (of_decide_eq_true hregistered).2
          rwa [hentry, Option.map_some, Option.some.injEq] at this
        simp only [Option.some.injEq, Prod.mk.injEq] at h
        obtain ⟨rfl, -, rfl⟩ := h
        refine ⟨key, entry, rfl, hid, rfl, ?_, by simp, ?_⟩
        · simp [hid]
        · cases entry.parentOwnership <;> rfl
    · cases h

theorem unregister_length {connectionId : Str}
    (h : registry.unregister connectionId = some (registry', info, ownership)) :
    registry'.byId.keys.length + 1 = registry.byId.keys.length := by
  obtain ⟨key, entry, hfind, -, -, -, hbyId, -⟩ := unregister_spec h
  rw [hbyId]
  exact Map.length_keys_erase (Map.mem_keys_iff.mpr ⟨key, ((find_eq_some_iff).mp hfind).1⟩)

theorem releaseLoop_fuel {n m : Nat} (hn : registry.byId.keys.length < n)
    (hm : registry.byId.keys.length < m) (connectionId : Str) (consumer : ConnectionConsumer) :
    releaseLoop n registry connectionId consumer =
      releaseLoop m registry connectionId consumer := by
  induction n generalizing registry m connectionId consumer with
  | zero => exact absurd hn (Nat.not_lt_zero _)
  | succ n ih =>
    obtain ⟨m, rfl⟩ : ∃ k, m = k + 1 := ⟨m - 1, by omega⟩
    have hbyId := registry.dropConsumer_byId connectionId consumer
    unfold releaseLoop
    generalize registry.dropConsumer connectionId consumer = result at hbyId ⊢
    obtain ⟨dropped, retired⟩ := result
    cases retired with
    | false => rfl
    | true =>
      dsimp only at hbyId ⊢
      rcases hunregister : dropped.unregister connectionId with _ | ⟨removed, info, ownership⟩
      · rfl
      · have hlength := unregister_length hunregister
        rw [hbyId] at hlength
        cases ownership with
        | none => rfl
        | some pair => exact ih (by omega) (by omega) pair.1 pair.2

theorem release_eq (registry : SshConnectionRegistry) (connectionId : Str)
    (consumer : ConnectionConsumer) :
    registry.release connectionId consumer =
      match registry.dropConsumer connectionId consumer with
      | (registry, false) => registry
      | (registry, true) => (registry.retireConnection connectionId).1 := by
  have hbyId := registry.dropConsumer_byId connectionId consumer
  unfold release
  rw [releaseLoop]
  generalize registry.dropConsumer connectionId consumer = result at hbyId ⊢
  obtain ⟨dropped, retired⟩ := result
  cases retired with
  | false => rfl
  | true =>
    dsimp only at hbyId ⊢
    unfold retireConnection
    rcases hunregister : dropped.unregister connectionId with _ | ⟨removed, info, ownership⟩
    · rfl
    · have hlength := unregister_length hunregister
      rw [hbyId] at hlength
      cases ownership with
      | none => rfl
      | some pair => exact releaseLoop_fuel (by omega) (by omega) pair.1 pair.2

end SshConnectionRegistry

end Hapcli.Ssh
