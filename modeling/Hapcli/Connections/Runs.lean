/-
  Subject:   Sequences of operations on a store.

  An operation is run with an `Io` of its own, so nothing is assumed of how clock, UUIDs and refusals
  of one call go together with those of the next. What an operation leaves behind counts whether it
  has succeeded or failed.
-/
import Hapcli.Connections.StoreSteps

namespace Hapcli.Connections

open Hapcli.Lib Hapcli.Rust

/-- The operations on saved connections. -/
inductive ConnectionOp
  | upsert (request : SaveConnectionRequest)
  | delete (id : Str)
  | rename (id name : Str)
  | duplicate (id : Str)
  | markUsed (id : Str)
  | importSsh (connection : SavedConnection)
  | upsertImported (connection : SavedConnection)
  | importTransaction (connections : List SavedConnection)
      (managedKeys : List ImportedManagedSshKey)
  | applySnapshot (snapshot : SavedConnectionsSyncSnapshot)
      (strategy : SavedConnectionsConflictStrategy)

/-- The operations on groups and on assets of every kind. -/
inductive StoreOp
  | connection (op : ConnectionOp)
  | createGroup (name : Str)
  | deleteGroup (name : Str)
  | renameGroup (oldName newName : Str)
  | moveToGroup (connectionIds remoteDesktopIds : List Str) (group : Option Str)
  | upsertSerial (request : SaveSerialProfileRequest)
  | deleteSerial (id : Str)
  | markSerialUsed (id : Str)
  | applySerial (records : List SerialProfile)
  | upsertTelnet (request : SaveTelnetProfileRequest)
  | deleteTelnet (id : Str)
  | markTelnetUsed (id : Str)
  | upsertRemoteDesktop (request : SaveRemoteDesktopProfileRequest)
  | deleteRemoteDesktop (id : Str)
  | markRemoteDesktopUsed (id : Str)
  | saveCredential (profileId : Str) (credential : Secret)
  | deleteCredential (profileId : Str)
  | applyRemoteDesktop (records : List RemoteDesktopProfile)

open ConnectionStore

/-- The store an operation leaves. -/
def ConnectionOp.run (io : Io) (op : ConnectionOp) (s : ConnectionStore) : ConnectionStore :=
  match op with
  | .upsert request => (ConnectionStore.upsert io request s).2
  | .delete id => (ConnectionStore.delete io id s).2
  | .rename id name => (renameConnection io id name s).2
  | .duplicate id => (ConnectionStore.duplicate io id s).2
  | .markUsed id => (ConnectionStore.markUsed io id s).2
  | .importSsh connection => (importSshConnection io connection s).2
  | .upsertImported connection => (upsertImportedConnection io connection s).2
  | .importTransaction connections managedKeys =>
    (upsertImportedConnectionsAndManagedKeysTransaction io connections managedKeys s).2
  | .applySnapshot snapshot strategy => (applySavedConnectionsSnapshot io snapshot strategy s).2

/-- The store an operation leaves. -/
def StoreOp.run (io : Io) (op : StoreOp) (s : ConnectionStore) : ConnectionStore :=
  match op with
  | .connection op => op.run io s
  | .createGroup name => (ConnectionStore.createGroup io name s).2
  | .deleteGroup name => (ConnectionStore.deleteGroup io name s).2
  | .renameGroup oldName newName => (ConnectionStore.renameGroup io oldName newName s).2
  | .moveToGroup connectionIds remoteDesktopIds group =>
    (moveSessionAssetsToGroup io connectionIds remoteDesktopIds group s).2
  | .upsertSerial request => (upsertSerialProfile io request s).2
  | .deleteSerial id => (deleteSerialProfile io id s).2
  | .markSerialUsed id => (markSerialProfileUsed io id s).2
  | .applySerial records => (applySerialProfilesSnapshot io records s).2
  | .upsertTelnet request => (upsertTelnetProfile io request s).2
  | .deleteTelnet id => (deleteTelnetProfile io id s).2
  | .markTelnetUsed id => (markTelnetProfileUsed io id s).2
  | .upsertRemoteDesktop request => (upsertRemoteDesktopProfile io request s).2
  | .deleteRemoteDesktop id => (deleteRemoteDesktopProfile io id s).2
  | .markRemoteDesktopUsed id => (markRemoteDesktopProfileUsed io id s).2
  | .saveCredential profileId credential => (saveRemoteDesktopCredential io profileId credential s).2
  | .deleteCredential profileId => (deleteRemoteDesktopCredential io profileId s).2
  | .applyRemoteDesktop records => (applyRemoteDesktopProfilesSnapshot io records s).2

/-- The store after a history of operations, each with what came of its calls. -/
def runs {ω : Type} (run : Io → ω → ConnectionStore → ConnectionStore) (s : ConnectionStore)
    (history : List (Io × ω)) : ConnectionStore :=
  history.foldl (fun s step => run step.1 step.2 s) s

variable {s : ConnectionStore} {ω : Type} {run : Io → ω → ConnectionStore → ConnectionStore}
  {history : List (Io × ω)} {meets : Io → ω → ConnectionStore → Prop}

/-- What every operation keeps holds of every store reached. -/
theorem runs_induction {P : ConnectionStore → Prop} (hstep : ∀ io op s, P s → P (run io op s))
    (hs : P s) (history : List (Io × ω)) : P (runs run s history) := by
  induction history generalizing s with
  | nil => exact hs
  | cons step history ih => exact ih (hstep step.1 step.2 s hs)

/-- Every step of a history meets a condition in the store it is run in. -/
def StepsMeet {ω : Type} (run : Io → ω → ConnectionStore → ConnectionStore)
    (meets : Io → ω → ConnectionStore → Prop) : ConnectionStore → List (Io × ω) → Prop
  | _, [] => True
  | s, step :: history =>
    meets step.1 step.2 s ∧ StepsMeet run meets (run step.1 step.2 s) history

theorem runs_induction_of {P : ConnectionStore → Prop}
    (hstep : ∀ io op s, P s → meets io op s → P (run io op s)) (hs : P s)
    (hmeets : StepsMeet run meets s history) : P (runs run s history) := by
  induction history generalizing s with
  | nil => exact hs
  | cons step history ih => exact ih (hstep step.1 step.2 s hs hmeets.1) hmeets.2

theorem StepsMeet.append {history' : List (Io × ω)}
    (h : StepsMeet run meets s (history ++ history')) :
    StepsMeet run meets s history ∧ StepsMeet run meets (runs run s history) history' := by
  induction history generalizing s with
  | nil => exact ⟨trivial, h⟩
  | cons step history ih =>
    obtain ⟨hfirst, hrest⟩ := ih h.2
    exact ⟨⟨h.1, hfirst⟩, hrest⟩

theorem StepsMeet.and {meets' : Io → ω → ConnectionStore → Prop} (h : StepsMeet run meets s history)
    (h' : StepsMeet run meets' s history) :
    StepsMeet run (fun io op s => meets io op s ∧ meets' io op s) s history := by
  induction history generalizing s with
  | nil => trivial
  | cons step history ih => exact ⟨⟨h.1, h'.1⟩, ih h.2 h'.2⟩

end Hapcli.Connections
