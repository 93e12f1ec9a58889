/-
  Subject:   The connection store: what it holds, what it asks of the world outside, and the steps
             all its operations share.

  Every look at the clock, every new UUID and every call of the keychain or the file system has a
  number; `Io` says what comes of the call with that number. A refused call changes nothing outside.

  * `ConnectionStore`, `Io`, `StoreM` -- the store, the world outside, code over both;
  * `clock`, `newUuid`, `keychainStore`, `keychainGet`, `keychainDelete`, `save` -- the calls;
  * `validateGroupName`, `groupPathIsWithin`, `renameGroupPath` -- paths of groups;
  * `normalizeData`, `normalize`, `ensureGroup` -- the form the data is kept in;
  * `addConnection`, `removeConnectionWithTombstoneAt`, `upsertConnectionTombstone` -- connections
    come and go.
-/
import Mathlib.Data.List.Destutter
import Mathlib.Data.List.Sort
import Hapcli.Connections.Types
import Hapcli.Lib.Action
import Hapcli.Rust.Maps

namespace Hapcli.Connections

open Hapcli.Lib Hapcli.Rust

/-! ## 1. The store and the world outside -/

/-- `ConnectionStore`: the data in memory, the file, the three keychains, the encrypted files of
    managed keys, and the number of calls made. -/
structure ConnectionStore where
  data : ConnectionStoreData := {}
  file : Option ConnectionStoreData := none
  keychain : Map Str Secret := ∅
  managedKeychain : Map Str Secret := ∅
  managedFiles : Map Str Secret := ∅
  configKey : Bool := false
  privilegeKeychain : Map Str Secret := ∅
  calls : Nat := 0
  deriving DecidableEq

/-- What comes of the calls: the time, the UUID, a refusal; and `str::to_lowercase`, which needs the
    tables of Unicode. -/
structure Io where
  now : Nat → Time
  uuid : Nat → Str
  refuses : Nat → Bool
  toLowercase : Str → Str

/-- Code of the store. -/
abbrev StoreM (α : Type) := Action ConnectionStore StoreError α

namespace ConnectionStore

variable (io : Io)

def get (s : ConnectionStore) (id : Str) : Option SavedConnection :=
  s.data.connections.find? (·.id == id)

/-! ## 2. Calls -/

/-- `bail!`. -/
def bail {α : Type} (text : Str) : StoreM α := throw (.bail text)

/-- `Utc::now()`. -/
def clock : StoreM Time := fun s => (.ok (io.now s.calls), { s with calls := s.calls + 1 })

/-- `Uuid::new_v4()`. -/
def newUuid : StoreM Str := fun s => (.ok (io.uuid s.calls), { s with calls := s.calls + 1 })

/-- A call of the keychain or the file system that does `change` unless it is refused. -/
def outside (change : ConnectionStore → ConnectionStore) : StoreM Unit := fun s =>
  if io.refuses s.calls then (.error .outside, { s with calls := s.calls + 1 })
  else (.ok (), { change s with calls := s.calls + 1 })

/-- `self.keychain.store`. -/
def keychainStore (id : Str) (secret : Secret) : StoreM Unit :=
  outside io fun s => { s with keychain := s.keychain.insert id secret }

/-- `self.keychain.delete`. -/
def keychainDelete (id : Str) : StoreM Unit :=
  outside io fun s => { s with keychain := s.keychain.erase id }

/-- `self.keychain.get_optional`. -/
def keychainGetOptional (id : Str) : StoreM (Option Secret) := do
  outside io fun s => s
  let s ← getThe ConnectionStore
  pure (s.keychain.lookup id)

/-- `self.keychain.get`. -/
def keychainGet (id : Str) : StoreM Secret := do
  match ← keychainGetOptional io id with
  | some secret => pure secret
  | none => bail "Password not saved for this connection".toList

/-- `save`: the data, written in one piece. -/
def save : StoreM Unit := outside io fun s => { s with file := some s.data }

/-- A change of the data in memory. -/
def modifyData (f : ConnectionStoreData → ConnectionStoreData) : StoreM Unit :=
  modify fun s => { s with data := f s.data }

/-! ## 3. Texts -/

def nonEmpty (value : Str) (label : String) : Except StoreError Str :=
  if value.isEmpty then .error (.bail (label.toList ++ " is required".toList)) else .ok value

def normalizeOptionalText (value : Option Str) : Option Str :=
  value.bind fun value => if (trim value).isEmpty then none else some (trim value)

def validateGroupName (name : Str) : Except StoreError Str :=
  if (trim name).isEmpty then .error (.bail "group name cannot be empty".toList)
  else if ((trim name).splitOnP (· == '/')).any fun part => (trim part).isEmpty then
    .error (.bail "group path cannot contain empty segments".toList)
  else .ok (trim name)

/-- `group_path_is_within`: the group itself, or a path that goes on with a slash. -/
def groupPathIsWithin (candidate group : Str) : Bool :=
  candidate == group ||
    group.isPrefixOf candidate && (candidate.drop group.length).head? == some '/'

def renameGroupPath (candidate oldGroup newGroup : Str) : Option Str :=
  if groupPathIsWithin candidate oldGroup then some (newGroup ++ candidate.drop oldGroup.length)
  else none

def normalizeOptionalGroupName (group : Option Str) : Except StoreError (Option Str) :=
  match (group.map trim).filter fun group => !group.isEmpty with
  | none => .ok none
  | some group =>
    if group = "Ungrouped".toList ∨ group = "未分组".toList then .ok none
    else (validateGroupName group).map some

/-! ## 4. The form the data is kept in -/

/-- `str::cmp`, as "not greater": UTF-8 orders texts as their scalar values. -/
def strLe : Str → Str → Bool
  | [], _ => true
  | _ :: _, [] => false
  | a :: s, b :: t => if a.toNat < b.toNat then true else if b.toNat < a.toNat then false else strLe s t

/-- `sort_by` on the lower-case form of a text of the elements; equal ones keep their order. -/
def sortByLowercase {α : Type} (name : α → Str) (l : List α) : List α :=
  l.insertionSort fun a b => strLe (io.toLowercase (name a)) (io.toLowercase (name b)) = true

/-- `CONNECTION_TOMBSTONE_RETENTION_DAYS`, in nanoseconds. -/
def connectionTombstoneRetention : Time := 30 * 24 * 3600 * 1000000000

def activeConnectionTombstones (now : Time) (tombstones : List DeletedConnectionTombstone) :
    List DeletedConnectionTombstone :=
  tombstones.filter fun tombstone => now - connectionTombstoneRetention ≤ tombstone.deletedAt

/-- `if !groups.contains(&group) { groups.push(group) }`. -/
def pushGroup (groups : List Str) (group : Str) : List Str :=
  if group ∈ groups then groups else groups ++ [group]

/-- Every group an asset names. -/
def assetGroups (data : ConnectionStoreData) : List Str :=
  data.connections.filterMap (·.group) ++ (data.serialProfiles.filterMap (·.group) ++
    data.telnetProfiles.filterMap (·.group) ++ data.remoteDesktopProfiles.filterMap (·.group))

/-- The command of a connection has moved to its options. -/
def movePostConnectCommand (conn : SavedConnection) : SavedConnection :=
  { conn with
    options :=
      { conn.options with
        postConnectCommand := conn.options.postConnectCommand.or conn.postConnectCommand }
    postConnectCommand := none }

/-- What `normalize` makes of the data. -/
def normalizeData (now : Time) (data : ConnectionStoreData) : ConnectionStoreData :=
  { data with
    connectionTombstones := activeConnectionTombstones now data.connectionTombstones
    recent := (data.recent.filter fun id => data.connections.any (·.id == id)).destutter (· ≠ ·)
    groups :=
      (assetGroups data).foldl pushGroup
        ((sortByLowercase io (fun group => group) data.groups).destutter (· ≠ ·))
    connections :=
      sortByLowercase io (·.name) (data.connections.map movePostConnectCommand)
    serialProfiles := sortByLowercase io (·.name) data.serialProfiles
    telnetProfiles := sortByLowercase io (·.name) data.telnetProfiles
    remoteDesktopProfiles := sortByLowercase io (·.name) data.remoteDesktopProfiles }

def normalize : StoreM Unit := do
  let now ← clock io
  modifyData (normalizeData io now)

def ensureGroup (name : Str) : StoreM Unit := do
  let name ← Action.lift (validateGroupName name)
  let s ← getThe ConnectionStore
  if name ∈ s.data.groups then pure ()
  else
    modifyData fun data => { data with groups := data.groups ++ [name] }
    normalize io

/-- `if let Some(group) = group { self.ensure_group(group)?; }`. -/
def ensureOptionalGroup : Option Str → StoreM Unit
  | none => pure ()
  | some group => ensureGroup io group

/-! ## 5. Connections come and go -/

/-- The connections with one of them written: in the place of the first of its id, or at the end. -/
def putConnection (connections : List SavedConnection) (connection : SavedConnection) :
    List SavedConnection :=
  match connections.findIdx? (·.id == connection.id) with
  | some index => connections.set index connection
  | none => connections ++ [connection]

def addConnection (connection : SavedConnection) (data : ConnectionStoreData) :
    ConnectionStoreData :=
  { data with
    connections := (data.connections.filter (·.id ≠ connection.id)) ++ [connection]
    connectionTombstones := data.connectionTombstones.filter (·.id ≠ connection.id) }

/-- `remove_connection_without_tombstone`, where there is a connection to remove. -/
def removeConnectionWithoutTombstone (id : Str) (data : ConnectionStoreData) :
    ConnectionStoreData :=
  { data with
    connections := data.connections.eraseP (·.id == id)
    recent := data.recent.filter (· ≠ id) }

/-- `upsert_connection_tombstone`: the tombstones after it, and whether they have changed. -/
def upsertTombstone (tombstones : List DeletedConnectionTombstone) (id : Str) (deletedAt : Time) :
    List DeletedConnectionTombstone × Bool :=
  match tombstones.findIdx? (·.id == id) with
  | some index =>
    match tombstones[index]? with
    | some existing =>
      if deletedAt ≤ existing.deletedAt then (tombstones, false)
      else (tombstones.set index ⟨id, deletedAt⟩, true)
    | none => (tombstones, false)
  | none => (tombstones ++ [⟨id, deletedAt⟩], true)

def upsertConnectionTombstone (id : Str) (deletedAt : Time) : StoreM Bool := do
  let now ← clock io
  modifyData fun data =>
    { data with
      connectionTombstones := activeConnectionTombstones now data.connectionTombstones }
  let s ← getThe ConnectionStore
  let (tombstones, changed) := upsertTombstone s.data.connectionTombstones id deletedAt
  modifyData fun data => { data with connectionTombstones := tombstones }
  pure changed

def removeConnectionWithTombstoneAt (id : Str) (deletedAt : Time) :
    StoreM (Option SavedConnection) := do
  let s ← getThe ConnectionStore
  match s.get id with
  | none => pure none
  | some removed =>
    modifyData (removeConnectionWithoutTombstone id)
    let _ ← upsertConnectionTombstone io removed.id deletedAt
    pure (some removed)

end ConnectionStore

end Hapcli.Connections
