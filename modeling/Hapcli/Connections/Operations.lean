/-
  Subject:   The operations on saved connections: save, delete, rename, copy, import one, import
             many at once.
-/
import Hapcli.Connections.Secrets

namespace Hapcli.Connections

open Hapcli.Lib Hapcli.Rust
open Lib.Action (lift attempt each)

namespace ConnectionStore

variable (io : Io)

/-! ## 1. Saving -/

/-- The options of a saved connection: those it has, with what the form carries. -/
def requestOptions (request : SaveConnectionRequest) (existing : Option SavedConnection) :
    ConnectionOptions :=
  { (existing.map (·.options)).getD {} with
    agentForwarding := request.agentForwarding
    identityAgent := request.identityAgent
    agentForwardingSocket := request.agentForwardingSocket
    legacySshCompatibility := request.legacySshCompatibility
    dedicatedNewTerminalConnection := request.dedicatedNewTerminalConnection
    x11Forwarding := request.x11Forwarding
    terminal := request.terminal
    postConnectCommand := normalizeOptionalText request.postConnectCommand }

/-- The entries that were referred to and are no longer, deleted; whatever comes of it. -/
def deleteStaleKeychainEntries (old next : List Str) : StoreM Unit := do
  let _ ← each (old.filter (· ∉ next)) fun keychainId =>
    attempt (keychainDelete io keychainId)
  pure ()

/-- The connection a save came to; `expect`ed to be there. -/
def savedInfo (id : Str) : StoreM ConnectionInfo := do
  let s ← getThe ConnectionStore
  match s.get id with
  | some connection => pure (connectionInfo connection)
  | none => throw .panic

/-- `Some(id) => id, None => Uuid::new_v4()`. -/
def orNewUuid (id : Option Str) : StoreM Str := orNewId id (newUuid io)

variable (connection : SavedConnection)

/-- The record goes into the list, its group into the groups, the data into the file. -/
def putAndSave : StoreM Unit := do
  modifyData fun data => { data with connections := putConnection data.connections connection }
  ensureOptionalGroup io connection.group
  normalize io
  save io

def upsertWithRuntimeSecrets (request : SaveConnectionRequest) :
    StoreM (ConnectionInfo × SavedConnectionRuntimeSecrets) := do
  let group ← lift (normalizeOptionalGroupName request.group)
  let now ← clock io
  let id ← orNewUuid io request.id
  let s ← getThe ConnectionStore
  let existing := s.get id
  let oldKeychainIds := (existing.map collectConnectionKeychainIds).getD []
  let (auth, authSecret) ←
    materializeAuthWithRuntimeSecret io request.auth (existing.map (·.auth))
  let (proxyChain, proxyChainSecrets) ←
    materializeProxyChainWithRuntimeSecrets io request.proxyChain
  let (upstreamProxy, upstreamProxySecret) ←
    materializeUpstreamProxyPolicyWithRuntimeSecret io request.upstreamProxy
      (existing.map (·.upstreamProxy))
  let nextKeychainIds := collectKeychainIdsForParts auth proxyChain upstreamProxy
  let name ← lift (nonEmpty (trim request.name) "Connection name")
  let host ← lift (nonEmpty (trim request.host) "Host")
  let username ← lift (nonEmpty (trim request.username) "Username")
  putAndSave io {
    id
    version := (existing.map (·.version)).getD configVersion
    name, group, host
    port := max request.port 1
    username, auth, proxyChain, upstreamProxy
    options := requestOptions request existing
    createdAt := (existing.map (·.createdAt)).getD now
    lastUsedAt := existing.map fun _ => now
    updatedAt := some now
    color := request.color
    iconBackgroundColor := request.iconBackgroundColor
    icon := normalizeOptionalText request.icon
    tags := request.tags
    postConnectCommand := none
    privilegeCredentials := (existing.map (·.privilegeCredentials)).getD [] }
  deleteStaleKeychainEntries io oldKeychainIds nextKeychainIds
  let info ← savedInfo id
  pure (info, ⟨authSecret, proxyChainSecrets, upstreamProxySecret⟩)

def upsert (request : SaveConnectionRequest) : StoreM ConnectionInfo := do
  let (connection, _) ← upsertWithRuntimeSecrets io request
  pure connection

/-! ## 2. Deleting, renaming, copying -/

def delete (id : Str) : StoreM Bool := do
  let s ← getThe ConnectionStore
  let keychainIds := ((s.get id).map collectConnectionKeychainIds).getD []
  let privilegeKeychainIds := ((s.get id).map collectPrivilegeKeychainIds).getD []
  let now ← clock io
  match ← removeConnectionWithTombstoneAt io id now with
  | none => pure false
  | some _ => do
      normalize io
      save io
      let _ ← each keychainIds fun keychainId =>
        attempt (keychainDelete io keychainId)
      let _ ← each privilegeKeychainIds fun keychainId =>
        attempt (privilegeKeychainDelete io keychainId)
      pure true

/-- The first record with an id, changed. -/
def modifyFirst {α : Type} (p : α → Bool) (f : α → α) : List α → List α
  | [] => []
  | a :: l => if p a then f a :: l else a :: modifyFirst p f l

def renameConnection (id name : Str) : StoreM Bool := do
  let s ← getThe ConnectionStore
  match s.get id with
  | none => pure false
  | some _ => do
      let name ← lift (nonEmpty (trim name) "Connection name")
      let now ← clock io
      modifyData fun data =>
        { data with
          connections := modifyFirst (·.id == id)
            (fun connection => { connection with name, updatedAt := some now }) data.connections }
      normalize io
      save io
      pure true

/-- One round over the proxy chain of a copy. -/
def cloneProxyHop (hop : SavedProxyHop) : StoreM SavedProxyHop := do
  let auth ← cloneAuthSecret io hop.auth
  pure { hop with auth }

/-- `duplicate`: the upstream proxy is copied as it stands, with the entry of its password. -/
def duplicate (id : Str) : StoreM (Option ConnectionInfo) := do
  let s ← getThe ConnectionStore
  match s.get id with
  | none => pure none
  | some original => do
      let duplicateId ← newUuid io
      let createdAt ← clock io
      let updatedAt ← clock io
      let auth ← cloneAuthSecret io original.auth
      let proxyChain ← each original.proxyChain (cloneProxyHop io)
      let copy : SavedConnection :=
        { original with
          id := duplicateId
          name := original.name ++ " (Copy)".toList
          createdAt
          updatedAt := some updatedAt
          lastUsedAt := none
          auth, proxyChain
          privilegeCredentials := [] }
      modifyData fun data => { data with connections := data.connections ++ [copy] }
      normalize io
      save io
      let s ← getThe ConnectionStore
      pure ((s.get duplicateId).map connectionInfo)

def markUsed (id : Str) : StoreM Bool := do
  let s ← getThe ConnectionStore
  match s.get id with
  | none => pure false
  | some _ => do
      let now ← clock io
      modifyData fun data =>
        { data with
          connections := modifyFirst (·.id == id)
            (fun connection => { connection with lastUsedAt := some now, updatedAt := some now })
            data.connections
          recent := (id :: data.recent.filter (· ≠ id)).take 10 }
      save io
      pure true

/-! ## 3. Importing one -/

def importSshConnection : StoreM ConnectionInfo := do
  let id ← newUuid io
  let createdAt ← clock io
  let updatedAt ← clock io
  let auth ← materializeAuth io connection.auth none
  let proxyChain ← materializeProxyChain io connection.proxyChain
  let upstreamProxy ← materializeUpstreamProxyPolicy io connection.upstreamProxy none
  ensureOptionalGroup io connection.group
  let imported : SavedConnection :=
    { connection with
      id, version := configVersion, createdAt, updatedAt := some updatedAt
      auth, proxyChain, upstreamProxy
      privilegeCredentials := [] }
  modifyData fun data => { data with connections := data.connections ++ [imported] }
  normalize io
  save io
  savedInfo id

/-- `if connection.id.trim().is_empty() { connection.id = Uuid::new_v4() }`. -/
def importedId : StoreM Str :=
  if (trim connection.id).isEmpty then newUuid io else pure connection.id

def upsertImportedConnection : StoreM ConnectionInfo := do
  let group ← lift (normalizeOptionalGroupName connection.group)
  let now ← clock io
  let id ← importedId io connection
  let s ← getThe ConnectionStore
  let existing := s.get id
  let oldKeychainIds := (existing.map collectConnectionKeychainIds).getD []
  let name ← lift (nonEmpty (trim connection.name) "Connection name")
  let host ← lift (nonEmpty (trim connection.host) "Host")
  let username ← lift (nonEmpty (trim connection.username) "Username")
  let auth ← materializeAuth io connection.auth (existing.map (·.auth))
  let proxyChain ← materializeProxyChain io connection.proxyChain
  let upstreamProxy ←
    materializeUpstreamProxyPolicy io connection.upstreamProxy (existing.map (·.upstreamProxy))
  let nextKeychainIds := collectKeychainIdsForParts auth proxyChain upstreamProxy
  putAndSave io
    { connection with
      id, version := configVersion, name, group, host
      port := max connection.port 1
      username, auth, proxyChain, upstreamProxy
      createdAt := match existing with
        | some existing => existing.createdAt
        | none => if connection.createdAt < 1000000000 then now else connection.createdAt
      lastUsedAt := match existing with
        | some existing => existing.lastUsedAt
        | none => connection.lastUsedAt
      privilegeCredentials := match existing with
        | some existing => existing.privilegeCredentials
        | none => connection.privilegeCredentials
      updatedAt := some now }
  deleteStaleKeychainEntries io oldKeychainIds nextKeychainIds
  savedInfo id

/-! ## 4. Importing many -/

structure StagedImportedConnection where
  id : Str
  touchedKeychainIds : List Str
  touchedPrivilegeKeychainIds : List Str
  staleOldKeychainIds : List Str

/-- `non_empty(hop.host.trim(), ..)?; non_empty(hop.username.trim(), ..)?;` -/
def checkProxyHop (hop : SavedProxyHop) : Except StoreError Unit := do
  let _ ← nonEmpty (trim hop.host) "Proxy host"
  let _ ← nonEmpty (trim hop.username) "Proxy username"
  pure ()

def stageImportedConnection : StoreM StagedImportedConnection := do
  let group ← lift (normalizeOptionalGroupName connection.group)
  let now ← clock io
  let id ← importedId io connection
  let s ← getThe ConnectionStore
  let existing := s.get id
  let oldKeychainIds := (existing.map collectConnectionKeychainIds).getD []
  let name ← lift (nonEmpty (trim connection.name) "Connection name")
  let host ← lift (nonEmpty (trim connection.host) "Host")
  let username ← lift (nonEmpty (trim connection.username) "Username")
  let _ ← each connection.proxyChain fun hop => lift (checkProxyHop hop)
  let auth ← materializeAuth io connection.auth (existing.map (·.auth))
  let proxyChain ← materializeProxyChain io connection.proxyChain
  let upstreamProxy ←
    materializeUpstreamProxyPolicy io connection.upstreamProxy (existing.map (·.upstreamProxy))
  let touchedKeychainIds := collectKeychainIdsForParts auth proxyChain upstreamProxy
  let credentials := match existing with
    | some existing =>
      if connection.privilegeCredentials.isEmpty then existing.privilegeCredentials
      else connection.privilegeCredentials
    | none => connection.privilegeCredentials
  let (privilegeCredentials, touchedPrivilegeKeychainIds) ←
    materializePrivilegeCredentials io id credentials
  let staged : SavedConnection :=
    { connection with
      id, version := configVersion, name, group, host
      port := max connection.port 1
      username, auth, proxyChain, upstreamProxy, privilegeCredentials
      createdAt := match existing with
        | some existing => existing.createdAt
        | none => if connection.createdAt < 1000000000 then now else connection.createdAt
      lastUsedAt := match existing with
        | some existing => existing.lastUsedAt
        | none => connection.lastUsedAt
      updatedAt := some now }
  modifyData fun data => { data with connections := putConnection data.connections staged }
  ensureOptionalGroup io group
  pure ⟨id, touchedKeychainIds, touchedPrivilegeKeychainIds,
    oldKeychainIds.filter (· ∉ touchedKeychainIds)⟩

/-- The entries under some ids as they are: a checkpoint of a keychain. -/
def snapshotEntries (ids : List Str) (read : Str → StoreM (Option Secret)) :
    StoreM (List (Str × Option Secret)) :=
  each ids fun id => do
    let value ← read id
    pure (id, value)

def snapshotKeychainEntries (data : ConnectionStoreData) : StoreM (List (Str × Option Secret)) :=
  snapshotEntries (data.connections.flatMap collectConnectionKeychainIds) (keychainGetOptional io)

/-- `self.privilege_keychain.get_optional`. -/
def privilegeKeychainGetOptional (id : Str) : StoreM (Option Secret) := do
  outside io fun s => s
  let s ← getThe ConnectionStore
  pure (s.privilegeKeychain.lookup id)

def snapshotPrivilegeKeychainEntries (data : ConnectionStoreData) :
    StoreM (List (Str × Option Secret)) :=
  snapshotEntries
    (data.connections.flatMap collectPrivilegeKeychainIds ++
      data.localPrivilegeCredentials.filterMap (·.keychainId))
    (privilegeKeychainGetOptional io)

def snapshotManagedKeychainEntries (data : ConnectionStoreData) :
    StoreM (List (Str × Option Secret)) :=
  snapshotEntries (data.managedSshKeys.map (·.secretId)) fun secretId => do
    let secret ← getManagedSshKeySecret io secretId
    pure (some secret)

/-- The loop of `rollback_keychain_entries`, `rollback_privilege_keychain_entries` and
    `rollback_managed_keychain_entries`: what the checkpoint knows is put back, the rest is
    deleted. -/
def rollbackEntries (touched : List Str) (original : List (Str × Option Secret))
    (store : Str → Secret → StoreM Unit) (delete : Str → StoreM Unit) : StoreM Unit := do
  let done ← each touched fun id =>
    match (original.find? (·.1 == id)).bind (·.2) with
    | some secret => attempt (store id secret)
    | none => attempt (delete id)
  if done.all id then pure () else throw .outside

/-- What a batch has touched so far. -/
structure Touched where
  keychainIds : List Str := []
  privilegeKeychainIds : List Str := []
  managedSecretIds : List Str := []
  staleOldKeychainIds : List Str := []
  createdConfigKey : Bool := false

/-- The state of a batch: the store, and what has been touched so far. -/
abbrev Batch := ConnectionStore × Touched

/-- Code of the store inside a batch. -/
def inBatch {α : Type} (act : StoreM α) : Action Batch StoreError α := act.onFst

/-- A note of what is touched. -/
def note (f : Touched → Touched) : Action Batch StoreError Unit := modify fun s => (s.1, f s.2)

/-- One round over the managed keys of a batch. -/
def importManagedKey (managedKey : ImportedManagedSshKey) : Action Batch StoreError Unit := do
  note fun t => { t with managedSecretIds := managedKey.key.secretId :: t.managedSecretIds }
  let created ← inBatch (storeManagedSshKeySecret io managedKey.key.secretId managedKey.secret)
  note fun t => { t with createdConfigKey := t.createdConfigKey || created }
  inBatch (modifyData fun data =>
    { data with
      managedSshKeys :=
        data.managedSshKeys.filter (·.id ≠ managedKey.key.id) ++ [managedKey.key] })

/-- One round over the connections of a batch: what the record touched is known once it is
    staged. -/
def importConnection : Action Batch StoreError Str := do
  let staged ← inBatch (stageImportedConnection io connection)
  note fun t =>
    { t with
      keychainIds := t.keychainIds ++ staged.touchedKeychainIds
      privilegeKeychainIds := t.privilegeKeychainIds ++ staged.touchedPrivilegeKeychainIds
      staleOldKeychainIds := t.staleOldKeychainIds ++ staged.staleOldKeychainIds }
  pure staged.id

/-- The body of the transaction. -/
def importBatch (connections : List SavedConnection) (managedKeys : List ImportedManagedSshKey) :
    Action Batch StoreError (List Str) := do
  let _ ← each managedKeys (importManagedKey io)
  let importedIds ← each connections (importConnection io)
  inBatch (normalize io)
  inBatch (save io)
  pure importedIds

/-- What the transaction does where its body has failed; the failure itself is passed on. -/
def rollbackImport (originalData : ConnectionStoreData)
    (originalKeychain originalPrivilegeKeychain originalManagedKeychain :
      List (Str × Option Secret)) (touched : Touched) : StoreM Unit := do
  modifyData fun _ => originalData
  let _ ← attempt (save io)
  let _ ← attempt (rollbackEntries touched.keychainIds.dedup originalKeychain
    (keychainStore io) (keychainDelete io))
  let _ ← attempt (rollbackEntries touched.privilegeKeychainIds.dedup
    originalPrivilegeKeychain (privilegeKeychainStore io) (privilegeKeychainDelete io))
  let _ ← attempt (rollbackEntries touched.managedSecretIds.dedup originalManagedKeychain
    (fun id secret => do
      let _ ← storeManagedSshKeySecret io id secret
      pure ())
    (deleteManagedSshKeySecret io))
  if touched.createdConfigKey then
    let _ ← attempt (outside io fun s => { s with configKey := false })
    pure ()

def upsertImportedConnectionsAndManagedKeysTransaction (connections : List SavedConnection)
    (managedKeys : List ImportedManagedSshKey) : StoreM (List ConnectionInfo) := do
  let s ← getThe ConnectionStore
  let originalData := s.data
  let originalKeychain ← snapshotKeychainEntries io originalData
  let originalPrivilegeKeychain ← snapshotPrivilegeKeychainEntries io originalData
  let originalManagedKeychain ← snapshotManagedKeychainEntries io originalData
  let s ← getThe ConnectionStore
  match importBatch io connections managedKeys (s, {}) with
  | (.ok importedIds, s', touched) => do
      set s'
      let _ ← each touched.staleOldKeychainIds.dedup fun keychainId =>
        attempt (keychainDelete io keychainId)
      let s ← getThe ConnectionStore
      pure (importedIds.filterMap fun id => (s.get id).map connectionInfo)
  | (.error e, s', touched) => do
      set s'
      rollbackImport io originalData originalKeychain originalPrivilegeKeychain
        originalManagedKeychain touched
      throw e

end ConnectionStore

end Hapcli.Connections
