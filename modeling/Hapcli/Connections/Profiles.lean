/-
  Subject:   Groups of session assets, and the profiles that are filed in them beside the saved
             connections: serial, telnet and remote desktop.
-/
import Hapcli.Connections.Operations

namespace Hapcli.Connections

open Hapcli.Lib Hapcli.Rust
open Lib.Action (lift attempt each)

namespace ConnectionStore

variable (io : Io)

/-! ## 1. Groups -/

def createGroup (name : Str) : StoreM Unit := do
  ensureGroup io name
  save io

/-- An asset's group after a group and all below it are gone. -/
def outOfGroup (name : Str) (group : Option Str) : Bool :=
  group.any fun group => groupPathIsWithin group name

/-- What `delete_group` makes of the data. -/
def deleteGroupData (now : Time) (name : Str) (data : ConnectionStoreData) : ConnectionStoreData :=
  { data with
    groups := data.groups.filter fun group => !groupPathIsWithin group name
    connections := data.connections.map fun conn =>
      if outOfGroup name conn.group then { conn with group := none, updatedAt := some now } else conn
    serialProfiles := data.serialProfiles.map fun profile =>
      if outOfGroup name profile.group then { profile with group := none, updatedAt := now }
      else profile
    telnetProfiles := data.telnetProfiles.map fun profile =>
      if outOfGroup name profile.group then { profile with group := none, updatedAt := now }
      else profile
    remoteDesktopProfiles := data.remoteDesktopProfiles.map fun profile =>
      if outOfGroup name profile.group then { profile with group := none, updatedAt := now }
      else profile }

def deleteGroup (name : Str) : StoreM Unit := do
  let name ← lift (validateGroupName name)
  let now ← clock io
  modifyData (deleteGroupData now name)
  save io

/-- The new path of an asset's group, where it has one. -/
def renamedGroup (oldName newName : Str) (group : Option Str) : Option Str :=
  group.bind fun group => renameGroupPath group oldName newName

/-- What the loops of `rename_group` make of the data. -/
def renameGroupData (now : Time) (oldName newName : Str) (data : ConnectionStoreData) :
    ConnectionStoreData :=
  { data with
    groups := data.groups.map fun group => (renameGroupPath group oldName newName).getD group
    connections := data.connections.map fun conn =>
      match renamedGroup oldName newName conn.group with
      | some renamed => { conn with group := some renamed, updatedAt := some now }
      | none => conn
    serialProfiles := data.serialProfiles.map fun profile =>
      match renamedGroup oldName newName profile.group with
      | some renamed => { profile with group := some renamed, updatedAt := now }
      | none => profile
    telnetProfiles := data.telnetProfiles.map fun profile =>
      match renamedGroup oldName newName profile.group with
      | some renamed => { profile with group := some renamed, updatedAt := now }
      | none => profile
    remoteDesktopProfiles := data.remoteDesktopProfiles.map fun profile =>
      match renamedGroup oldName newName profile.group with
      | some renamed => { profile with group := some renamed, updatedAt := now }
      | none => profile }

/-- `updated`: how many groups and assets the loops rename. -/
def renamedCount (oldName newName : Str) (data : ConnectionStoreData) : Nat :=
  (data.groups ++ assetGroups data).countP fun group =>
    (renameGroupPath group oldName newName).isSome

def renameGroup (oldName newName : Str) : StoreM Nat := do
  let oldName ← lift (validateGroupName oldName)
  let newName ← lift (validateGroupName newName)
  if oldName = newName then pure 0
  else if groupPathIsWithin newName oldName then
    bail "a group cannot be moved into its own subtree".toList
  else
    let s ← getThe ConnectionStore
    if s.data.groups.any fun group =>
        groupPathIsWithin group newName && !groupPathIsWithin group oldName then
      bail "the destination group already exists".toList
    else
      let now ← clock io
      modifyData (renameGroupData now oldName newName)
      if 0 < renamedCount oldName newName s.data then
        normalize io
        save io
      pure (renamedCount oldName newName s.data)

/-- What the loops of `move_session_assets_to_group` make of the data. -/
def moveToGroupData (now : Time) (connectionIds remoteDesktopIds : List Str) (group : Option Str)
    (data : ConnectionStoreData) : ConnectionStoreData :=
  { data with
    connections := data.connections.map fun conn =>
      if conn.id ∈ connectionIds then { conn with group, updatedAt := some now } else conn
    remoteDesktopProfiles := data.remoteDesktopProfiles.map fun profile =>
      if profile.id ∈ remoteDesktopIds then { profile with group, updatedAt := now } else profile }

def moveSessionAssetsToGroup (connectionIds remoteDesktopIds : List Str) (group : Option Str) :
    StoreM Nat := do
  let group ← lift (normalizeOptionalGroupName group)
  let now ← clock io
  let s ← getThe ConnectionStore
  modifyData (moveToGroupData now connectionIds remoteDesktopIds group)
  ensureOptionalGroup io group
  save io
  pure ((s.data.connections.countP (·.id ∈ connectionIds)) +
    s.data.remoteDesktopProfiles.countP (·.id ∈ remoteDesktopIds))

/-! ## 2. Serial and telnet profiles -/

/-- The profiles with one of them written: in the place of the first of its id, or at the end. -/
def putFirst {α : Type} (id : α → Str) (profiles : List α) (profile : α) : List α :=
  match profiles.findIdx? fun existing => id existing == id profile with
  | some index => profiles.set index profile
  | none => profiles ++ [profile]

def upsertSerialProfile (request : SaveSerialProfileRequest) : StoreM SerialProfile := do
  let group ← lift (normalizeOptionalGroupName request.group)
  let now ← clock io
  let id ← orNewUuid io request.id
  let s ← getThe ConnectionStore
  let existing := s.data.serialProfiles.find? (·.id == id)
  let profile : SerialProfile := {
    id
    name := trim request.name
    group
    icon := normalizeOptionalText request.icon
    color := normalizeOptionalText request.color
    iconBackgroundColor := normalizeOptionalText request.iconBackgroundColor
    portPath := trim request.portPath
    baudRate := request.baudRate.getD 115200
    dataBits := request.dataBits.getD 8
    stopBits := request.stopBits.getD 1
    parity := request.parity.getD .none
    flowControl := request.flowControl.getD .none
    connectOnOpen := request.connectOnOpen.getD false
    createdAt := (existing.map (·.createdAt)).getD now
    updatedAt := now
    lastUsedAt := existing.bind (·.lastUsedAt) }
  lift profile.validate
  modifyData fun data => { data with serialProfiles := putFirst (·.id) data.serialProfiles profile }
  normalize io
  save io
  pure profile

def upsertTelnetProfile (request : SaveTelnetProfileRequest) : StoreM TelnetProfile := do
  let group ← lift (normalizeOptionalGroupName request.group)
  let now ← clock io
  let id ← orNewUuid io request.id
  let s ← getThe ConnectionStore
  let existing := s.data.telnetProfiles.find? (·.id == id)
  let profile : TelnetProfile := {
    id
    name := trim request.name
    group
    icon := normalizeOptionalText request.icon
    color := normalizeOptionalText request.color
    iconBackgroundColor := normalizeOptionalText request.iconBackgroundColor
    host := trim request.host
    port := request.port
    terminal := request.terminal
    connectOnOpen := request.connectOnOpen.getD false
    createdAt := (existing.map (·.createdAt)).getD now
    updatedAt := now
    lastUsedAt := existing.bind (·.lastUsedAt) }
  lift profile.validate
  modifyData fun data => { data with telnetProfiles := putFirst (·.id) data.telnetProfiles profile }
  normalize io
  save io
  pure profile

def deleteSerialProfile (id : Str) : StoreM Bool := do
  let s ← getThe ConnectionStore
  modifyData fun data => { data with serialProfiles := data.serialProfiles.filter (·.id ≠ id) }
  let deleted := s.data.serialProfiles.any (·.id == id)
  if deleted then save io
  pure deleted

def deleteTelnetProfile (id : Str) : StoreM Bool := do
  let s ← getThe ConnectionStore
  modifyData fun data => { data with telnetProfiles := data.telnetProfiles.filter (·.id ≠ id) }
  let deleted := s.data.telnetProfiles.any (·.id == id)
  if deleted then save io
  pure deleted

def markSerialProfileUsed (id : Str) : StoreM Bool := do
  let s ← getThe ConnectionStore
  if s.data.serialProfiles.any (·.id == id) then
    let now ← clock io
    modifyData fun data =>
      { data with
        serialProfiles := modifyFirst (·.id == id)
          (fun profile => { profile with lastUsedAt := some now, updatedAt := now })
          data.serialProfiles }
    save io
    pure true
  else pure false

def markTelnetProfileUsed (id : Str) : StoreM Bool := do
  let s ← getThe ConnectionStore
  if s.data.telnetProfiles.any (·.id == id) then
    let now ← clock io
    modifyData fun data =>
      { data with
        telnetProfiles := modifyFirst (·.id == id)
          (fun profile => { profile with lastUsedAt := some now, updatedAt := now })
          data.telnetProfiles }
    save io
    pure true
  else pure false

/-! ## 3. Remote desktop profiles -/

def getRemoteDesktopProfile (s : ConnectionStore) (id : Str) : Option RemoteDesktopProfile :=
  s.data.remoteDesktopProfiles.find? (·.id == id)

def deleteOrQueueConnectionKeychainEntry (reference : Str) : StoreM Unit := do
  let deleted ← attempt (keychainDelete io reference)
  let s ← getThe ConnectionStore
  if !deleted && reference ∉ s.data.pendingKeychainCleanup then
    modifyData fun data =>
      { data with pendingKeychainCleanup := data.pendingKeychainCleanup ++ [reference] }
    save io

/-- The entry a profile refers to after an update. -/
def nextCredentialRef (request : SaveRemoteDesktopProfileRequest) (id : Str)
    (oldCredentialRef : Option Str) : Option Str :=
  let credentialRef :=
    if request.clearCredential then none
    else (normalizeOptionalText request.credentialRef).or oldCredentialRef
  if request.credential.isSome && credentialRef.isNone then some (remoteDesktopCredentialRef id)
  else credentialRef

/-- `if let (Some(credential), Some(reference)) = .. { self.keychain.store(reference, credential)?; }`. -/
def storeCredential (credential : Option Secret) (credentialRef : Option Str) : StoreM Unit :=
  match credential, credentialRef with
  | some credential, some reference => keychainStore io reference credential
  | _, _ => pure ()

/-- The entry a profile no longer refers to goes. -/
def deleteStaleCredential (oldCredentialRef credentialRef : Option Str) : StoreM Unit :=
  match oldCredentialRef with
  | some staleReference =>
    if oldCredentialRef ≠ credentialRef then
      deleteOrQueueConnectionKeychainEntry io staleReference
    else pure ()
  | none => pure ()

def upsertRemoteDesktopProfile (request : SaveRemoteDesktopProfileRequest) :
    StoreM RemoteDesktopProfile := do
  let group ← lift (normalizeOptionalGroupName request.group)
  let now ← clock io
  let id ← orNewUuid io request.id
  let s ← getThe ConnectionStore
  let existing := s.getRemoteDesktopProfile id
  let oldCredentialRef := existing.bind (·.credentialRef)
  lift (bailIf
    (request.clearCredential && (request.credential.isSome || request.credentialRef.isSome))
    "Cannot replace and clear a remote desktop credential in one update")
  let credentialRef := nextCredentialRef request id oldCredentialRef
  let profile : RemoteDesktopProfile := {
    id
    name := trim request.name
    group
    icon := normalizeOptionalText request.icon
    color := normalizeOptionalText request.color
    iconBackgroundColor := normalizeOptionalText request.iconBackgroundColor
    protocol := request.protocol
    host := trim request.host
    port := request.port
    username := normalizeOptionalText request.username
    domain := normalizeOptionalText request.domain
    credentialRef
    readOnly := request.readOnly
    createdAt := (existing.map (·.createdAt)).getD now
    updatedAt := now
    lastUsedAt := existing.bind (·.lastUsedAt) }
  lift profile.validate
  storeCredential io request.credential credentialRef
  modifyData fun data =>
    { data with remoteDesktopProfiles := putFirst (·.id) data.remoteDesktopProfiles profile }
  ensureOptionalGroup io group
  normalize io
  save io
  deleteStaleCredential io oldCredentialRef credentialRef
  pure profile

def deleteRemoteDesktopProfile (id : Str) : StoreM Bool := do
  let s ← getThe ConnectionStore
  let credentialRef := (s.getRemoteDesktopProfile id).bind (·.credentialRef)
  modifyData fun data =>
    { data with remoteDesktopProfiles := data.remoteDesktopProfiles.filter (·.id ≠ id) }
  let deleted := s.data.remoteDesktopProfiles.any (·.id == id)
  if deleted then
    save io
    match credentialRef with
    | some reference => deleteOrQueueConnectionKeychainEntry io reference
    | none => pure ()
  pure deleted

def markRemoteDesktopProfileUsed (id : Str) : StoreM Bool := do
  let s ← getThe ConnectionStore
  if s.data.remoteDesktopProfiles.any (·.id == id) then
    let now ← clock io
    modifyData fun data =>
      { data with
        remoteDesktopProfiles := modifyFirst (·.id == id)
          (fun profile => { profile with lastUsedAt := some now, updatedAt := now })
          data.remoteDesktopProfiles }
    save io
    pure true
  else pure false

def saveRemoteDesktopCredential (profileId : Str) (credential : Secret) : StoreM Str := do
  let s ← getThe ConnectionStore
  match s.getRemoteDesktopProfile profileId with
  | none => bail "Remote desktop profile not found".toList
  | some profile => do
      let reference := profile.credentialRef.getD (remoteDesktopCredentialRef profileId)
      keychainStore io reference credential
      let now ← clock io
      modifyData fun data =>
        { data with
          remoteDesktopProfiles := modifyFirst (·.id == profileId)
            (fun profile => { profile with credentialRef := some reference, updatedAt := now })
            data.remoteDesktopProfiles }
      save io
      pure reference

def deleteRemoteDesktopCredential (profileId : Str) : StoreM Bool := do
  let s ← getThe ConnectionStore
  match (s.getRemoteDesktopProfile profileId).bind (·.credentialRef) with
  | none => pure false
  | some reference => do
      let now ← clock io
      modifyData fun data =>
        { data with
          remoteDesktopProfiles := modifyFirst (·.id == profileId)
            (fun profile => { profile with credentialRef := none, updatedAt := now })
            data.remoteDesktopProfiles }
      save io
      deleteOrQueueConnectionKeychainEntry io reference
      pure true

/-! ## 4. Profiles from elsewhere -/

/-- One round of `apply_serial_profiles_snapshot`: the profiles, and whether one was applied. -/
def applySerialProfile (profiles : List SerialProfile) (profile : SerialProfile) :
    List SerialProfile × Bool :=
  match profiles.find? (·.id == profile.id) with
  | some existing =>
    if existing.updatedAt ≤ profile.updatedAt then (putFirst (·.id) profiles profile, true)
    else (profiles, false)
  | none => (profiles ++ [profile], true)

/-- `apply_serial_profiles_snapshot`, on the records of the snapshot. -/
def applySerialProfilesSnapshot (records : List SerialProfile) : StoreM Nat := do
  let _ ← each records fun profile => lift profile.validate
  let applied ← each records fun profile => do
    let s ← getThe ConnectionStore
    let (profiles, applied) := applySerialProfile s.data.serialProfiles profile
    modifyData fun data => { data with serialProfiles := profiles }
    pure applied
  if applied.any id then
    normalize io
    save io
  pure (applied.count true)

/-- One round of `apply_remote_desktop_profiles_snapshot`: a reference to an entry of the keychain
    is this device's own. -/
def applyRemoteDesktopProfile (profiles : List RemoteDesktopProfile)
    (profile : RemoteDesktopProfile) : List RemoteDesktopProfile × Bool :=
  match profiles.find? (·.id == profile.id) with
  | some existing =>
    if existing.updatedAt ≤ profile.updatedAt then
      (putFirst (·.id) profiles { profile with credentialRef := existing.credentialRef }, true)
    else (profiles, false)
  | none => (profiles ++ [{ profile with credentialRef := none }], true)

/-- `apply_remote_desktop_profiles_snapshot`, on the records of the snapshot. -/
def applyRemoteDesktopProfilesSnapshot (records : List RemoteDesktopProfile) : StoreM Nat := do
  let _ ← each records fun profile => lift profile.validate
  let applied ← each records fun profile => do
    let s ← getThe ConnectionStore
    let (profiles, applied) := applyRemoteDesktopProfile s.data.remoteDesktopProfiles profile
    modifyData fun data => { data with remoteDesktopProfiles := profiles }
    pure applied
  if applied.any id then
    normalize io
    save io
  pure (applied.count true)

end ConnectionStore

end Hapcli.Connections
