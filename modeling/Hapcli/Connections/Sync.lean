/-
  Subject:   Saved connections as a snapshot: what one device exports and another applies.

  SHA-256 is outside; `sha256Hex` gives the hash of what is written as JSON, which is kept as the
  values it is written from (`SyncContent`).

  * `applyRecord`, `prepareSavedConnectionsSnapshot`, `finalizeSavedConnectionsSyncCleanup`,
    **`applySavedConnectionsSnapshot`** -- the apply.
-/
import Hapcli.Connections.Profiles

namespace Hapcli.Connections

open Hapcli.Lib Hapcli.Rust
open Lib.Action (lift attempt each)

/-! ## 1. Snapshots -/

structure SavedConnectionSyncRecord where
  id : Str
  revision : Str
  updatedAt : Rfc3339
  deleted : Bool
  payload : Option ConnectionInfo
  options : Option ConnectionOptions
  deriving DecidableEq

structure SavedConnectionsSyncSnapshot where
  revision : Str
  exportedAt : Rfc3339
  records : List SavedConnectionSyncRecord
  deriving DecidableEq

/-- What is written as JSON to be hashed. -/
inductive SyncContent
  | connection (payload : ConnectionInfo) (options : ConnectionOptions)
  | tombstone (id : Str) (deletedAt : Rfc3339) (deleted : Bool)
  | connections (records : List (Str × Str × Rfc3339 × Bool))
  | profiles (records : List (Str × Rfc3339))
  deriving DecidableEq

inductive SavedConnectionsConflictStrategy
  | skip | replace | merge
  deriving DecidableEq

def SavedConnectionsConflictStrategy.preservesLocalAuth :
    SavedConnectionsConflictStrategy → Bool
  | merge => true
  | _ => false

def connectionSyncUpdatedAt (connection : SavedConnection) : Time :=
  (connection.updatedAt.or connection.lastUsedAt).getD connection.createdAt

def parseConnectionSyncTimestamp (value : Rfc3339) (fieldName : String) : Except StoreError Time :=
  match value with
  | .time t => .ok t
  | .other text =>
    .error (.bail ("Invalid ".toList ++ fieldName.toList ++ " '".toList ++ text ++ ['\'']))

section Export

variable (sha256Hex : SyncContent → Str)

def buildSavedConnectionSyncRecord (connection : SavedConnection) : SavedConnectionSyncRecord where
  id := connection.id
  revision := sha256Hex (.connection (connectionInfo connection) connection.options)
  updatedAt := .time (connectionSyncUpdatedAt connection)
  deleted := false
  payload := some (connectionInfo connection)
  options := some connection.options

def buildSavedConnectionTombstoneRecord (tombstone : DeletedConnectionTombstone) :
    SavedConnectionSyncRecord where
  id := tombstone.id
  revision := sha256Hex (.tombstone tombstone.id (.time tombstone.deletedAt) true)
  updatedAt := .time tombstone.deletedAt
  deleted := true
  payload := none
  options := none

/-- `sort_by(|left, right| left.id.cmp(&right.id))`. -/
def sortById {α : Type} (id : α → Str) (l : List α) : List α :=
  l.insertionSort fun a b => ConnectionStore.strLe (id a) (id b) = true

/-- The records of `build_saved_connections_sync_snapshot`. -/
def savedConnectionsSyncRecords (now : Time) (data : ConnectionStoreData) :
    List SavedConnectionSyncRecord :=
  sortById (·.id)
    (data.connections.map (buildSavedConnectionSyncRecord sha256Hex) ++
      (ConnectionStore.activeConnectionTombstones now data.connectionTombstones).map
        (buildSavedConnectionTombstoneRecord sha256Hex))

end Export

/-! ## 2. A connection from a record -/

/-- `saved_auth_from_connection_info` and `saved_auth_from_proxy_hop_info`. -/
def savedAuthFromInfo (authType : AuthType) (keyPath certPath managedKeyId : Option Str) :
    SavedAuth :=
  match authType with
  | .password => .password none none
  | .key => .key (keyPath.getD []) false none none
  | .managedKey => .managedKey (managedKeyId.getD []) none none
  | .certificate => .certificate (keyPath.getD []) (certPath.getD []) false none none
  | .keyboardInteractive => .keyboardInteractive
  | .agent => .agent

def savedAuthFromConnectionInfo (payload : ConnectionInfo) : SavedAuth :=
  savedAuthFromInfo payload.authType payload.keyPath payload.certPath payload.managedKeyId

def savedAuthFromProxyHopInfo (hop : ProxyHopInfo) : SavedAuth :=
  savedAuthFromInfo hop.authType hop.keyPath hop.certPath hop.managedKeyId

/-- One round of `build_synced_proxy_chain`. -/
def buildSyncedProxyHop (existing : Option SavedConnection) (preserveAuth : Bool)
    (hop : ProxyHopInfo) : SavedProxyHop where
  host := hop.host
  port := hop.port
  username := hop.username
  auth :=
    let preserved :=
      if preserveAuth then
        existing.bind fun connection =>
          (connection.proxyChain.find? fun candidate =>
            candidate.host == hop.host && candidate.port == hop.port &&
              candidate.username == hop.username).map (·.auth)
      else none
    preserved.getD (savedAuthFromProxyHopInfo hop)
  agentForwarding := hop.agentForwarding
  identityAgent := hop.identityAgent
  agentForwardingSocket := hop.agentForwardingSocket
  legacySshCompatibility := hop.legacySshCompatibility

/-- The authentication a connection has after a record is applied. -/
def syncedAuth (payload : ConnectionInfo) (existing : Option SavedConnection)
    (preserveAuth : Bool) : SavedAuth :=
  if preserveAuth then (existing.map (·.auth)).getD (savedAuthFromConnectionInfo payload)
  else savedAuthFromConnectionInfo payload

/-- `payload.last_used_at.map(parse_connection_sync_timestamp).transpose()`. -/
def syncedLastUsedAt : Option Rfc3339 → Except StoreError (Option Time)
  | none => .ok none
  | some value => (parseConnectionSyncTimestamp value "connection last_used_at").map some

def buildSavedConnectionFromSyncPayload (payload : ConnectionInfo)
    (syncedOptions : Option ConnectionOptions) (recordUpdatedAt : Time)
    (existing : Option SavedConnection) (preserveAuth : Bool) :
    Except StoreError SavedConnection := do
  let name ← ConnectionStore.nonEmpty (trim payload.name) "Connection name"
  let group ← ConnectionStore.normalizeOptionalGroupName payload.group
  let host ← ConnectionStore.nonEmpty (trim payload.host) "Host"
  let username ← ConnectionStore.nonEmpty (trim payload.username) "Username"
  let createdAt ← parseConnectionSyncTimestamp payload.createdAt "connection created_at"
  let lastUsedAt ← syncedLastUsedAt payload.lastUsedAt
  pure {
    id := payload.id
    version := configVersion
    name, group, host
    port := max payload.port 1
    username
    auth := syncedAuth payload existing preserveAuth
    proxyChain := payload.proxyChain.map (buildSyncedProxyHop existing preserveAuth)
    upstreamProxy := payload.upstreamProxy
    options := syncedOptions.getD
      { agentForwarding := payload.agentForwarding
        legacySshCompatibility := payload.legacySshCompatibility
        postConnectCommand := payload.postConnectCommand }
    createdAt, lastUsedAt
    updatedAt := some recordUpdatedAt
    color := payload.color
    iconBackgroundColor := payload.iconBackgroundColor
    icon := payload.icon
    tags := payload.tags
    postConnectCommand := none
    privilegeCredentials := (existing.map (·.privilegeCredentials)).getD [] }

/-! ## 3. Checkpoints -/

/-- `ConnectionStoreCheckpoint`: the data in memory and the file. -/
structure ConnectionStoreCheckpoint where
  originalData : ConnectionStoreData
  originalFile : Option ConnectionStoreData
  deriving DecidableEq

namespace ConnectionStore

variable (io : Io)

/-- `create_checkpoint`: it reads the file. -/
def createCheckpoint : StoreM ConnectionStoreCheckpoint := do
  outside io fun s => s
  let s ← getThe ConnectionStore
  pure ⟨s.data, s.file⟩

/-- `restore_checkpoint`: the file first, the data in memory where that has worked. -/
def restoreCheckpoint (checkpoint : ConnectionStoreCheckpoint) : StoreM Unit := do
  let s ← getThe ConnectionStore
  if checkpoint.originalFile.isSome || s.file.isSome then
    outside io fun s => { s with file := checkpoint.originalFile }
  modifyData fun _ => checkpoint.originalData

/-! ## 4. Applying a snapshot -/

/-- What an apply counts and notes. -/
structure ApplyNotes where
  applied : Nat := 0
  skipped : Nat := 0
  conflicts : Nat := 0
  deletedConnectionIds : List Str := []
  keychainIdsToDelete : List Str := []
  privilegeKeychainIdsToDelete : List Str := []
  deriving DecidableEq

/-- The state of an apply: the store and the notes. -/
abbrev Applying := ConnectionStore × ApplyNotes

/-- Code of the store inside an apply. -/
def inApply {α : Type} (act : StoreM α) : Action Applying StoreError α := act.onFst

/-- A change of the notes. -/
def record (f : ApplyNotes → ApplyNotes) : Action Applying StoreError Unit :=
  modify fun s => (s.1, f s.2)

/-- `result.skipped += 1`. -/
def skip : Action Applying StoreError Unit := record fun n => { n with skipped := n.skipped + 1 }

/-- `result.skipped += 1; result.conflicts += 1;` -/
def skipConflict : Action Applying StoreError Unit :=
  record fun n => { n with skipped := n.skipped + 1, conflicts := n.conflicts + 1 }

/-- What the store held before the snapshot: connections by id, active tombstones by id. -/
structure BeforeSnapshot where
  connections : List SavedConnection
  tombstones : List DeletedConnectionTombstone

/-- `existing_by_id.get` on the map collected from the connections: the last of an id. -/
def BeforeSnapshot.connection? (before : BeforeSnapshot) (id : Str) : Option SavedConnection :=
  before.connections.reverse.find? (·.id == id)

/-- `tombstones_by_id.get`. -/
def BeforeSnapshot.tombstone? (before : BeforeSnapshot) (id : Str) :
    Option DeletedConnectionTombstone :=
  before.tombstones.reverse.find? (·.id == id)

/-- A round for the record of a deletion. -/
def applyDeletion (before : BeforeSnapshot) (id : Str) (recordUpdatedAt : Time) :
    Action Applying StoreError Unit :=
  if (before.connection? id).any fun existing =>
      decide (recordUpdatedAt < connectionSyncUpdatedAt existing) then skipConflict
  else do
    match ← inApply (removeConnectionWithTombstoneAt io id recordUpdatedAt) with
    | some removed =>
      record fun n =>
        { n with
          applied := n.applied + 1
          deletedConnectionIds := n.deletedConnectionIds ++ [removed.id]
          keychainIdsToDelete := n.keychainIdsToDelete ++ collectConnectionKeychainIds removed
          privilegeKeychainIdsToDelete :=
            n.privilegeKeychainIdsToDelete ++ collectPrivilegeKeychainIds removed }
    | none => do
        if ← inApply (upsertConnectionTombstone io id recordUpdatedAt) then
          record fun n => { n with applied := n.applied + 1 }
        else skip

/-- The connection of the same name, where there is none of the id. -/
def existingByName (s : ConnectionStore) (id : Str) (payload : ConnectionInfo) :
    Option SavedConnection :=
  match s.get id with
  | some _ => none
  | none =>
    s.data.connections.find? fun candidate => candidate.name == payload.name && candidate.id != id

/-- A connection of the same name gives way. -/
def removeSameName : Option SavedConnection → Action Applying StoreError Unit
  | none => pure ()
  | some sameName => do
      inApply (modifyData (removeConnectionWithoutTombstone sameName.id))
      record fun n => { n with deletedConnectionIds := n.deletedConnectionIds ++ [sameName.id] }

/-- The entries that the connection there was refers to and the next one does not, noted for
    deletion. -/
def noteStaleEntries (baseline : Option SavedConnection) (nextConnection : SavedConnection) :
    Action Applying StoreError Unit :=
  match baseline with
  | none => pure ()
  | some existing =>
    record fun n =>
      { n with
        keychainIdsToDelete := n.keychainIdsToDelete ++
          (collectConnectionKeychainIds existing).filter
            (· ∉ collectConnectionKeychainIds nextConnection) }

variable (strategy : SavedConnectionsConflictStrategy)

/-- A round for the record of a connection that no tombstone stands against. -/
def applyConnection (id : Str)
    (payload : ConnectionInfo) (options : Option ConnectionOptions) (recordUpdatedAt : Time) :
    Action Applying StoreError Unit := do
  let s ← inApply (getThe ConnectionStore)
  let byName := existingByName s id payload
  let baseline := (s.get id).or byName
  if (s.get id).isNone && byName.isSome && strategy == .skip then skipConflict
  else do
    removeSameName byName
    let nextConnection ← lift (buildSavedConnectionFromSyncPayload payload options
      recordUpdatedAt baseline (baseline.isSome && strategy.preservesLocalAuth))
    noteStaleEntries baseline nextConnection
    inApply (ensureOptionalGroup io nextConnection.group)
    inApply (modifyData (addConnection nextConnection))
    record fun n => { n with applied := n.applied + 1 }

/-- One round of the loop over the records. -/
def applyRecord (before : BeforeSnapshot)
    (rec : SavedConnectionSyncRecord) : Action Applying StoreError Unit := do
  let recordUpdatedAt ←
    lift (parseConnectionSyncTimestamp rec.updatedAt "saved connection sync updated_at")
  if rec.deleted then applyDeletion io before rec.id recordUpdatedAt
  else
    match rec.payload with
    | none => skipConflict
    | some payload =>
      if (before.tombstone? rec.id).any fun tombstone =>
          decide (recordUpdatedAt ≤ tombstone.deletedAt) then skipConflict
      else applyConnection io strategy rec.id payload rec.options recordUpdatedAt

/-- The body of `prepare_saved_connections_snapshot`. -/
def applyRecords (records : List SavedConnectionSyncRecord) : Action Applying StoreError Unit := do
  let s ← inApply (getThe ConnectionStore)
  let now ← inApply (clock io)
  let before : BeforeSnapshot :=
    ⟨s.data.connections, activeConnectionTombstones now s.data.connectionTombstones⟩
  let _ ← each records (applyRecord io strategy before)
  inApply (normalize io)
  let (_, notes) ← getThe Applying
  if 0 < notes.applied then inApply (save io)

structure PreparedSavedConnectionsSync where
  checkpoint : ConnectionStoreCheckpoint
  outcome : ApplyNotes
  pendingKeychainIds : List Str
  pendingPrivilegeKeychainIds : List Str

/-- `prepare_saved_connections_snapshot`: where the body fails, the checkpoint is put back. -/
def prepareSavedConnectionsSnapshot (snapshot : SavedConnectionsSyncSnapshot)
    (strategy : SavedConnectionsConflictStrategy) : StoreM PreparedSavedConnectionsSync := do
  let checkpoint ← createCheckpoint io
  let s ← getThe ConnectionStore
  match applyRecords io strategy snapshot.records (s, {}) with
  | (.error e, s', _) => do
      set s'
      restoreCheckpoint io checkpoint
      throw e
  | (.ok (), s', notes) => do
      set s'
      pure ⟨checkpoint, notes, notes.keychainIdsToDelete.dedup,
        notes.privilegeKeychainIdsToDelete.dedup⟩

/-- One of the two loops of `finalize_saved_connections_sync_cleanup`: the entries that could not be
    deleted. -/
def deletePending (ids : List Str) (delete : Str → StoreM Unit) : StoreM (List Str) := do
  let outcomes ← each ids fun id => do
    let deleted ← attempt (delete id)
    pure (id, deleted)
  pure ((outcomes.filter fun o => !o.2).map (·.1))

/-- `finalize_saved_connections_sync_cleanup`: the pending entries of the apply and those left from
    before. -/
def finalizeSavedConnectionsSyncCleanup (pendingKeychainIds pendingPrivilegeKeychainIds : List Str) :
    StoreM (List Str × List Str) := do
  let s ← getThe ConnectionStore
  let failed ← deletePending (pendingKeychainIds ++ s.data.pendingKeychainCleanup).dedup
    (keychainDelete io)
  let failedPrivilege ← deletePending
    (pendingPrivilegeKeychainIds ++ s.data.pendingPrivilegeKeychainCleanup).dedup
    (privilegeKeychainDelete io)
  modifyData fun data =>
    { data with
      pendingKeychainCleanup := failed
      pendingPrivilegeKeychainCleanup := failedPrivilege }
  save io
  pure (failed, failedPrivilege)

def applySavedConnectionsSnapshot (snapshot : SavedConnectionsSyncSnapshot)
    (strategy : SavedConnectionsConflictStrategy) : StoreM ApplyNotes := do
  let prepared ← prepareSavedConnectionsSnapshot io snapshot strategy
  let _ ← attempt (finalizeSavedConnectionsSyncCleanup io prepared.pendingKeychainIds
    prepared.pendingPrivilegeKeychainIds)
  pure prepared.outcome

end ConnectionStore

end Hapcli.Connections
