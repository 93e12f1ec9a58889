/-
  Subject:   The stored progress of SFTP transfers and its three tables (`progress.rs`):
             `save_sync`, `list_incomplete`, `list_all_incomplete`, the two transactions of `delete`
             and `normalize_stale_progress_and_rebuild_indexes`.

  Every function below is one transaction of the database: its tables before, its tables after, or
  nothing when it fails and is not committed. The encoding of a row (`rmp_serde`) is a parameter.
-/
import Hapcli.Rust.Tables

namespace Hapcli.Sftp

open Hapcli.Rust

/-! ## 1. Rows -/

inductive TransferType where
  | upload
  | download
  deriving DecidableEq

inductive TransferProtocol where
  | sftp
  | scp
  deriving DecidableEq

inductive TransferStrategy where
  | file
  | directoryRecursive
  | directoryTar
  deriving DecidableEq

inductive TransferStatus where
  | active
  | paused
  | failed
  | completed
  | cancelled
  deriving DecidableEq

/-- `StoredTransferProgress`; `lastUpdated` is the reading of the clock. -/
structure StoredTransferProgress where
  transferId : Str
  transferType : TransferType
  protocol : TransferProtocol
  strategy : TransferStrategy
  sourcePath : Str
  destinationPath : Str
  transferredBytes : Nat
  totalBytes : Nat
  status : TransferStatus
  lastUpdated : Nat
  sessionId : Str
  error : Option Str
  deriving DecidableEq

namespace StoredTransferProgress

def isIncomplete (progress : StoredTransferProgress) : Bool :=
  match progress.status with
  | .paused | .failed => true
  | .active | .completed | .cancelled => false

def updateProgress (now : Nat) (transferredBytes : Nat) (progress : StoredTransferProgress) :
    StoredTransferProgress :=
  { progress with transferredBytes := transferredBytes, lastUpdated := now }

def markCompleted (now : Nat) (progress : StoredTransferProgress) : StoredTransferProgress :=
  { progress with
    status := .completed
    transferredBytes := progress.totalBytes
    error := none
    lastUpdated := now }

def markFailed (now : Nat) (error : Str) (progress : StoredTransferProgress) :
    StoredTransferProgress :=
  { progress with status := .failed, error := some error, lastUpdated := now }

def markPaused (now : Nat) (progress : StoredTransferProgress) : StoredTransferProgress :=
  { progress with status := .paused, lastUpdated := now }

end StoredTransferProgress

/-- `rmp_serde`: `to_vec_named`, which fails on a path it cannot write, and `from_slice`. -/
structure RmpSerde where
  toVecNamed : StoredTransferProgress → Option (List UInt8)
  fromSlice : List UInt8 → Option StoredTransferProgress

/-- What was written is read back. -/
def RmpSerde.Lawful (codec : RmpSerde) : Prop :=
  ∀ progress bytes, codec.toVecNamed progress = some bytes → codec.fromSlice bytes = some progress

/-! ## 2. Tables -/

/-- `PROGRESS_TABLE`, `INCOMPLETE_PROGRESS_TABLE` and `SESSION_INCOMPLETE_INDEX_TABLE`. -/
structure RedbTables where
  progress : Map Str (List UInt8)
  incomplete : Map Str (List UInt8)
  sessionIndex : Map Str Str

/-- `ensure_tables` on a new file. -/
def RedbTables.new : RedbTables := ⟨∅, ∅, ∅⟩

def sessionIncompleteIndexKey (sessionId transferId : Str) : Str :=
  sessionId ++ ':' :: transferId

def sessionIncompleteIndexEndKey (sessionId : Str) : Str :=
  sessionId ++ [';']

namespace RedbTables

variable (codec : RmpSerde) (tables : RedbTables)

/-- The row under an id, as far as it can be read. -/
def stored (id : Str) : Option StoredTransferProgress :=
  (tables.progress.lookup id).bind codec.fromSlice

/-! ## 3. Saving and deleting -/

/-- `load`; the outer `none` is an error. -/
def load (id : Str) : Option (Option StoredTransferProgress) :=
  match tables.progress.lookup id with
  | none => some none
  | some bytes => (codec.fromSlice bytes).map some

/-- A row is written into the second table and indexed under its session. -/
def putIncomplete (id sessionId : Str) (bytes : List UInt8) : RedbTables :=
  { tables with
    incomplete := tables.incomplete.insert id bytes
    sessionIndex := tables.sessionIndex.insert (sessionIncompleteIndexKey sessionId id) id }

/-- The index entry of the row that `save_sync` replaces, where the session has changed. -/
def withoutPrevious (progress : StoredTransferProgress)
    (previous : Option StoredTransferProgress) : RedbTables :=
  match previous with
  | none => tables
  | some previous =>
    if previous.sessionId ≠ progress.sessionId then
      { tables with
        sessionIndex := tables.sessionIndex.erase
          (sessionIncompleteIndexKey previous.sessionId progress.transferId) }
    else tables

def saveSync (progress : StoredTransferProgress) (tables : RedbTables) : Option RedbTables := do
  let id := progress.transferId
  let serialized ← codec.toVecNamed progress
  let previous ← tables.load codec id
  let tables := tables.withoutPrevious progress previous
  let tables := { tables with progress := tables.progress.insert id serialized }
  if progress.isIncomplete then
    pure (tables.putIncomplete id progress.sessionId serialized)
  else
    pure { tables with
      incomplete := tables.incomplete.erase id
      sessionIndex := tables.sessionIndex.erase
        (sessionIncompleteIndexKey progress.sessionId id) }

/-- The write transaction of `delete`, after the load of `existing`. -/
def deleteRows (id : Str) (existing : Option StoredTransferProgress) :
    RedbTables where
  progress := tables.progress.erase id
  incomplete := tables.incomplete.erase id
  sessionIndex :=
    match existing with
    | none => tables.sessionIndex
    | some progress => tables.sessionIndex.erase (sessionIncompleteIndexKey progress.sessionId id)

/-! ## 4. Listing -/

def listIncomplete (sessionId : Str) : Option (List StoredTransferProgress) :=
  ((tables.sessionIndex.range (sessionIncompleteIndexKey sessionId [])
      (sessionIncompleteIndexEndKey sessionId)).filterMap fun row =>
    tables.incomplete.lookup row.2).mapM codec.fromSlice

def listAllIncomplete : Option (List StoredTransferProgress) :=
  tables.incomplete.inKeyOrder.mapM fun row => codec.fromSlice row.2

/-! ## 5. Opening -/

/-- What `normalize_stale_progress_and_rebuild_indexes` collects in its read transaction. -/
structure Collected where
  incompleteEntries : List (Str × Str)
  recoveredActiveEntries : List (Str × Str × List UInt8)
  entriesToDelete : List Str
  deriving DecidableEq

/-- What its loop makes of a row. -/
inductive Fate where
  | dropped
  | recovered (sessionId : Str) (serialized : List UInt8)
  | kept (sessionId : Str)
  deriving DecidableEq

/-- A turn of the loop; `none` when the recovered row cannot be written. -/
def fate (now : Nat) (value : List UInt8) : Option Fate :=
  match codec.fromSlice value with
  | none => some .dropped
  | some progress =>
    match progress.status with
    | .active => (codec.toVecNamed (progress.markPaused now)).map (.recovered progress.sessionId)
    | .paused | .failed => some (.kept progress.sessionId)
    | .completed | .cancelled => some .dropped

/-- The row goes into the list its fate says. -/
def Collected.push (id : Str) (collected : Collected) : Fate → Collected
  | .dropped => { collected with entriesToDelete := id :: collected.entriesToDelete }
  | .recovered sessionId serialized =>
    { collected with
      recoveredActiveEntries := (id, sessionId, serialized) :: collected.recoveredActiveEntries }
  | .kept sessionId =>
    { collected with incompleteEntries := (id, sessionId) :: collected.incompleteEntries }

/-- The loop over the rows. -/
def collect (now : Nat) : List (Str × List UInt8) → Option Collected
  | [] => some ⟨[], [], []⟩
  | (id, value) :: rows => do
      let fate ← fate codec now value
      let collected ← collect now rows
      pure (collected.push id fate)

/-- A turn of the loop over the recovered entries. -/
def recoverEntry (entry : Str × Str × List UInt8) : RedbTables :=
  { tables with progress := tables.progress.insert entry.1 entry.2.2 }.putIncomplete
    entry.1 entry.2.1 entry.2.2

/-- A turn of the loop over the incomplete entries. -/
def indexEntry (entry : Str × Str) : RedbTables :=
  match tables.progress.lookup entry.1 with
  | none => tables
  | some value => tables.putIncomplete entry.1 entry.2 value

/-- `normalize_stale_progress_and_rebuild_indexes`. -/
def normalize (now : Nat) (tables : RedbTables) : Option RedbTables :=
  (collect codec now tables.progress.inKeyOrder).map fun collected =>
    let cleared : RedbTables :=
      ⟨tables.progress.eraseAll collected.entriesToDelete, ∅, ∅⟩
    collected.incompleteEntries.foldl indexEntry
      (collected.recoveredActiveEntries.foldl recoverEntry cleared)

end RedbTables

end Hapcli.Sftp
