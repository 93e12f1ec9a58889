/-
  Subject:   Invariants of the data of a store, under the operations that are made of many steps.

  * `MadeGood` -- a weaker property that the steps keep and that `normalize` makes the invariant of;
    `MadeGood.upsertWithRuntimeSecrets`, **`MadeGood.importTransaction`** -- the saves and the batch;
  * **`keepsData_applySnapshot`** -- a snapshot.
-/
import Hapcli.Connections.GroupTree

namespace Hapcli.Connections

open Hapcli.Lib Hapcli.Rust
open Lib.Action (Ensures Keeps each)

namespace ConnectionStore

/-! ## 1. What a call does to the data -/

variable {I W : ConnectionStoreData → Prop} {d₀ : ConnectionStoreData}

section Calls

variable {α : Type}

/-- The invariant is kept, whatever comes of the call. -/
abbrev KeepsData (I : ConnectionStoreData → Prop) (act : StoreM α) : Prop :=
  act.Ensures (fun s => I s.data) (fun _ s => I s.data) fun s => I s.data

/-- The invariant holds after a call that begins with this data, whatever comes of it. -/
abbrev FromData (d₀ : ConnectionStoreData) (I : ConnectionStoreData → Prop) (act : StoreM α) :
    Prop :=
  act.Ensures (fun s => s.data = d₀) (fun _ s => I s.data) fun s => I s.data

/-- The property is kept where the call succeeds. -/
abbrev CarriesData (W : ConnectionStoreData → Prop) (act : StoreM α) : Prop :=
  act.Ensures (fun s => W s.data) (fun _ s => W s.data) fun _ => True

/-- The property is kept inside a batch, where the call succeeds. -/
abbrev BatchCarries (W : ConnectionStoreData → Prop) (act : Action Batch StoreError α) : Prop :=
  act.Ensures (fun s => W s.1.data) (fun _ s => W s.1.data) fun _ => True

/-- The invariant is kept inside an apply, whatever comes of the call. -/
abbrev ApplyKeepsData (I : ConnectionStoreData → Prop) (act : Action Applying StoreError α) :
    Prop :=
  act.Ensures (fun s => I s.1.data) (fun _ s => I s.1.data) fun s => I s.1.data

variable {act : StoreM α}

theorem of_data {d : ConnectionStoreData} (hd : I d₀) (h : d = d₀) : I d := h ▸ hd

theorem SameData.keepsData (h : SameData act) : KeepsData I act :=
  Keeps.ensures (P := fun s => I s.data) h fun hdata hs => of_data hs hdata

theorem SameData.carriesData (h : SameData act) : CarriesData W act :=
  h.keepsData.weaken (fun _ h => h) (fun _ _ h => h) fun _ _ => trivial

theorem SameData.holds (h : SameData act) (hd : I d₀) :
    act.Ensures (fun s => s.data = d₀) (fun _ s => s.data = d₀) fun s => I s.data :=
  (Keeps.ensures (P := fun s => s.data = d₀) h fun hdata hs => hdata.trans hs).weaken
    (fun _ h => h) (fun _ _ h => h) fun _ h => of_data hd h

theorem keepsData_modifyData {f : ConnectionStoreData → ConnectionStoreData}
    (h : ∀ d, I d → I (f d)) : KeepsData I (modifyData f) :=
  Ensures.modify fun s hs => h s.data hs

theorem KeepsData.inApply (h : KeepsData I act) : ApplyKeepsData I (inApply act) :=
  Ensures.onFst fun _ => h

end Calls

variable (io : Io)

theorem preparing_cloneProxyHop (hop : SavedProxyHop) : Preparing (cloneProxyHop io hop) :=
  (preparing_cloneAuthSecret io hop.auth).bind fun _ => preparing_pure _

theorem preparing_materializeAuthAlone (auth : SavedAuth) (existingAuth : Option SavedAuth) :
    Preparing (materializeAuth io auth existingAuth) :=
  (preparing_materializeAuth io auth existingAuth).bind fun _ => preparing_pure _

theorem preparing_materializeProxyChainAlone (proxyChain : List SavedProxyHop) :
    Preparing (materializeProxyChain io proxyChain) :=
  (preparing_materializeProxyChain io proxyChain).bind fun _ => preparing_pure _

theorem preparing_materializeUpstreamProxyPolicyAlone (policy : SavedUpstreamProxyPolicy)
    (existingPolicy : Option SavedUpstreamProxyPolicy) :
    Preparing (materializeUpstreamProxyPolicy io policy existingPolicy) :=
  (preparing_materializeUpstreamProxyPolicy io policy existingPolicy).bind fun _ =>
    preparing_pure _

/-! ## 2. Saving and importing -/

/-- A property that the steps of an operation keep, and that `normalize` makes the invariant of. -/
structure MadeGood (I W : ConnectionStoreData → Prop) (Q : Str → Prop) : Prop where
  normalize : ∀ k d, W d → I (normalizeData io (io.now k) d)
  put : ∀ d (connection : SavedConnection), Q connection.id → W d →
    W { d with connections := putConnection d.connections connection }
  keys : ∀ d keys, W d → W { d with managedSshKeys := keys }
  group : ∀ group valid, normalizeOptionalGroupName group = .ok valid → ∀ E,
    (ensureOptionalGroup io valid).Ensures (fun s => W s.data) (fun _ s => W s.data) E

namespace MadeGood

variable {io} {Q : Str → Prop}
variable {connection : SavedConnection} {connections : List SavedConnection}
variable (h : MadeGood io I W Q) (hd : I d₀) (hw : W d₀)
include h

theorem normalize_bind {β : Type} {next : Unit → StoreM β} (hnext : ∀ u, KeepsData I (next u)) :
    (ConnectionStore.normalize io >>= next).Ensures (fun s => W s.data) (fun _ s => I s.data)
      fun s => I s.data := by
  refine Ensures.bind (M := fun _ s => I s.data) ?_ hnext
  exact fun s hs => h.normalize s.calls _ hs

include hw

theorem putAndSave {group : Option Str}
    (hgroup : normalizeOptionalGroupName group = .ok connection.group) (hid : Q connection.id) :
    FromData d₀ I (putAndSave io connection) := by
  refine Ensures.bind (M := fun _ s => W s.data) ?_ fun _ => ?_
  · refine Ensures.modify ?_
    rintro s rfl
    exact h.put _ _ hid hw
  refine Ensures.bind (h.group _ _ hgroup _) fun _ => ?_
  exact h.normalize_bind fun _ => (sameData_save io).keepsData

include hd

theorem upsertWithRuntimeSecrets {request : SaveConnectionRequest}
    (hid : (orNewUuid io request.id).Ensures (fun s => s.data = d₀)
      (fun id s => s.data = d₀ ∧ Q id) fun s => I s.data) :
    FromData d₀ I (upsertWithRuntimeSecrets io request) := by
  have herror : ∀ s : ConnectionStore, s.data = d₀ → I s.data := fun s hs => of_data hd hs
  refine Ensures.lift_bind herror fun group hgroup => ?_
  refine Ensures.bind ((preparing_clock io).sameData.holds hd) fun now => ?_
  refine Ensures.bind hid fun id => ?_
  refine Ensures.assuming fun hid => ?_
  refine Ensures.bind (sameData_getThe.holds hd) fun s => ?_
  refine Ensures.bind ((preparing_materializeAuth io _ _).sameData.holds hd)
    fun ⟨auth, authSecret⟩ => ?_
  refine Ensures.bind ((preparing_materializeProxyChain io _).sameData.holds hd)
    fun ⟨proxyChain, proxyChainSecrets⟩ => ?_
  refine Ensures.bind
    ((preparing_materializeUpstreamProxyPolicy io _ _).sameData.holds hd)
    fun ⟨upstreamProxy, upstreamProxySecret⟩ => ?_
  refine Ensures.lift_bind herror fun name _ => ?_
  refine Ensures.lift_bind herror fun host _ => ?_
  refine Ensures.lift_bind herror fun username _ => ?_
  refine Ensures.bind (h.putAndSave hw hgroup hid) fun _ => ?_
  refine Ensures.bind (sameData_deleteStale io _ _).keepsData fun _ => ?_
  exact Ensures.bind (sameData_savedInfo id).keepsData fun _ => (sameData_pure _).keepsData

theorem upsert {request : SaveConnectionRequest}
    (hid : (orNewUuid io request.id).Ensures (fun s => s.data = d₀)
      (fun id s => s.data = d₀ ∧ Q id) fun s => I s.data) : FromData d₀ I (upsert io request) :=
  Ensures.bind (h.upsertWithRuntimeSecrets hd hw hid) fun _ => (sameData_pure _).keepsData

theorem upsertImportedConnection (hid : (importedId io connection).Ensures (fun s => s.data = d₀)
      (fun id s => s.data = d₀ ∧ Q id) fun s => I s.data) :
    FromData d₀ I (upsertImportedConnection io connection) := by
  have herror : ∀ s : ConnectionStore, s.data = d₀ → I s.data := fun s hs => of_data hd hs
  refine Ensures.lift_bind herror fun group hgroup => ?_
  refine Ensures.bind ((preparing_clock io).sameData.holds hd) fun now => ?_
  refine Ensures.bind hid fun id => ?_
  refine Ensures.assuming fun hid => ?_
  refine Ensures.bind (sameData_getThe.holds hd) fun s => ?_
  refine Ensures.lift_bind herror fun name _ => ?_
  refine Ensures.lift_bind herror fun host _ => ?_
  refine Ensures.lift_bind herror fun username _ => ?_
  refine Ensures.bind ((preparing_materializeAuthAlone io _ _).sameData.holds hd)
    fun auth => ?_
  refine Ensures.bind ((preparing_materializeProxyChainAlone io _).sameData.holds hd)
    fun proxyChain => ?_
  refine Ensures.bind
    ((preparing_materializeUpstreamProxyPolicyAlone io _ _).sameData.holds hd)
    fun upstreamProxy => ?_
  refine Ensures.bind (h.putAndSave hw hgroup hid) fun _ => ?_
  refine Ensures.bind (sameData_deleteStale io _ _).keepsData fun _ => ?_
  exact (sameData_savedInfo id).keepsData

theorem duplicate {id : Str} (happend : ∀ k (copy : SavedConnection), copy.id = io.uuid k →
      W { d₀ with connections := d₀.connections ++ [copy] }) : FromData d₀ I (duplicate io id) := by
  refine Ensures.bind (sameData_getThe.holds hd) fun s => ?_
  split
  · exact Ensures.pure fun s hs => of_data hd hs
  · next original _ =>
      refine Ensures.bind (M := fun id s => s.data = d₀ ∧ ∃ k, id = io.uuid k)
        (fun s hs => ⟨hs, s.calls, rfl⟩) fun duplicateId => ?_
      refine Ensures.assuming ?_
      rintro ⟨k, rfl⟩
      refine Ensures.bind ((preparing_clock io).sameData.holds hd) fun createdAt => ?_
      refine Ensures.bind ((preparing_clock io).sameData.holds hd) fun updatedAt => ?_
      refine Ensures.bind ((preparing_cloneAuthSecret io _).sameData.holds hd)
        fun auth => ?_
      refine Ensures.bind
        ((Preparing.each fun hop _ => preparing_cloneProxyHop io hop).sameData.holds hd)
        fun proxyChain => ?_
      refine Ensures.bind (M := fun _ s => W s.data) ?_ fun _ => ?_
      · refine Ensures.modify ?_
        rintro s rfl
        exact happend k _ rfl
      refine h.normalize_bind fun _ => ?_
      refine Ensures.bind (sameData_save io).keepsData fun _ => ?_
      exact Ensures.bind sameData_getThe.keepsData fun _ => (sameData_pure _).keepsData

omit hd hw

section

variable
  (hid : (importedId io connection).Ensures (fun s => W s.data) (fun id s => W s.data ∧ Q id) fun _ => True)

include hid

theorem stageImportedConnection : CarriesData W (stageImportedConnection io connection) := by
  refine Ensures.lift_bind (fun _ _ => trivial) fun group hgroup => ?_
  refine Ensures.bind (preparing_clock io).sameData.carriesData fun now => ?_
  refine Ensures.bind hid fun id => ?_
  refine Ensures.assuming fun hid => ?_
  refine Ensures.bind sameData_getThe.carriesData fun s => ?_
  refine Ensures.lift_bind (fun _ _ => trivial) fun name _ => ?_
  refine Ensures.lift_bind (fun _ _ => trivial) fun host _ => ?_
  refine Ensures.lift_bind (fun _ _ => trivial) fun username _ => ?_
  refine Ensures.bind (SameData.each fun hop _ => sameData_lift _).carriesData fun _ => ?_
  refine Ensures.bind (preparing_materializeAuthAlone io _ _).sameData.carriesData
    fun auth => ?_
  refine Ensures.bind (preparing_materializeProxyChainAlone io _).sameData.carriesData
    fun proxyChain => ?_
  refine Ensures.bind
    (preparing_materializeUpstreamProxyPolicyAlone io _ _).sameData.carriesData
    fun upstreamProxy => ?_
  refine Ensures.bind (preparing_materializePrivilegeCredentials io id _).sameData.carriesData
    fun ⟨credentials, touched⟩ => ?_
  refine Ensures.bind (M := fun _ s => W s.data) ?_ fun _ => ?_
  · exact Ensures.modify fun s hs => h.put _ _ hid hs
  exact Ensures.bind (h.group _ _ hgroup _) fun _ => Ensures.pure fun _ hs => hs

theorem importConnection : BatchCarries W (importConnection io connection) := by
  refine Ensures.bind (M := fun _ s => W s.1.data)
    (Ensures.onFst fun _ => h.stageImportedConnection hid) fun staged => ?_
  exact Ensures.bind (M := fun _ s => W s.1.data) (fun s hs => hs)
    fun _ => Ensures.pure fun _ hs => hs

end

theorem importManagedKey (managedKey : ImportedManagedSshKey) :
    BatchCarries W (importManagedKey io managedKey) := by
  refine Ensures.bind (M := fun _ s => W s.1.data) (fun s hs => hs) fun _ => ?_
  refine Ensures.bind (M := fun _ s => W s.1.data) (Ensures.onFst fun _ =>
    (preparing_storeManagedSshKeySecret io _ _).sameData.carriesData) fun created => ?_
  refine Ensures.bind (M := fun _ s => W s.1.data) (fun s hs => hs) fun _ => ?_
  exact Ensures.onFst fun _ => Ensures.modify fun s hs => h.keys _ _ hs

variable (managedKeys : List ImportedManagedSshKey)
variable (hid : ∀ connection ∈ connections,
  (importedId io connection).Ensures (fun s => W s.data) (fun id s => W s.data ∧ Q id)
    fun _ => True)
include hid

theorem importBatch :
    (importBatch io connections managedKeys).Ensures (fun s => W s.1.data)
      (fun _ s => I s.1.data) fun _ => True := by
  refine Ensures.bind (Ensures.each fun key _ => h.importManagedKey key) fun _ => ?_
  refine Ensures.bind
    (Ensures.each fun conn hconn => h.importConnection (hid conn hconn)) fun ids => ?_
  refine Ensures.bind (M := fun _ s => I s.1.data) ?_ fun _ => ?_
  · exact Ensures.onFst fun _ s hs => h.normalize s.calls _ hs
  · refine Ensures.bind (M := fun _ s => I s.1.data) ?_ fun _ => ?_
    · exact Ensures.onFst fun _ => (sameData_save io).carriesData
    · exact Ensures.pure fun _ hs => hs

include hd hw in
theorem importTransaction :
    FromData d₀ I
      (upsertImportedConnectionsAndManagedKeysTransaction io connections managedKeys) := by
  refine Ensures.getThe_bind fun s₀ hs₀ => ?_
  -- the checkpoints are read off the data the call began with
  subst hs₀
  refine Ensures.weaken ?_ (fun s h => congrArg data h) (fun _ _ h => h) fun _ h => h
  refine Ensures.bind ((preparing_snapshotKeychainEntries io s₀.data).sameData.holds hd)
    fun originalKeychain => ?_
  refine Ensures.bind ((preparing_snapshotPrivilegeKeychainEntries io s₀.data).sameData.holds hd)
    fun originalPrivilegeKeychain => ?_
  refine Ensures.bind ((preparing_snapshotManagedKeychainEntries io s₀.data).sameData.holds hd)
    fun originalManagedKeychain => ?_
  refine Ensures.getThe_bind fun s (hs : s.data = s₀.data) => ?_
  split
  · next ids s' touched hrun =>
      have hs' : I s'.data := (h.importBatch managedKeys hid).ok (s := (s, {})) (hs ▸ hw) hrun
      refine Ensures.bind (M := fun _ s => I s.data) (fun _ _ => hs') fun _ => ?_
      refine Ensures.bind (sameData_attemptEach _ (sameData_keychainDelete io)).keepsData
        fun _ => ?_
      exact Ensures.bind sameData_getThe.keepsData fun _ => (sameData_pure _).keepsData
  · next e s' touched hrun =>
      refine Ensures.bind (M := fun _ _ => True) (fun _ _ => trivial) fun _ => ?_
      refine Ensures.bind (M := fun _ s => I s.data) (fun s _ => ?_) fun _ => ?_
      · have hdata := rollbackImport_data io s₀.data originalKeychain originalPrivilegeKeychain
          originalManagedKeychain touched s
        rcases hroll : rollbackImport io s₀.data originalKeychain originalPrivilegeKeychain
          originalManagedKeychain touched s with ⟨e | u, s''⟩ <;>
          (rw [hroll] at hdata; exact of_data hd hdata)
      · exact Ensures.throw fun _ hs => hs

end MadeGood

/-! ## 3. Deletions and snapshots -/

variable {strategy : SavedConnectionsConflictStrategy}

theorem keepsData_delete {id : Str} (hnormalize : KeepsData I (normalize io))
    (hremove : ∀ now, KeepsData I (removeConnectionWithTombstoneAt io id now)) :
    KeepsData I (delete io id) := by
  refine Ensures.bind sameData_getThe.keepsData fun s => ?_
  refine Ensures.bind (preparing_clock io).sameData.keepsData fun now => ?_
  refine Ensures.bind (hremove now) fun removed => ?_
  cases removed with
  | none => exact (sameData_pure _).keepsData
  | some removed =>
    refine Ensures.bind hnormalize fun _ => ?_
    refine Ensures.bind (sameData_save io).keepsData fun _ => ?_
    refine Ensures.bind (sameData_attemptEach _ (sameData_keychainDelete io)).keepsData
      fun _ => ?_
    exact Ensures.bind (sameData_attemptEach _ (sameData_privilegeKeychainDelete io)).keepsData
      fun _ => (sameData_pure _).keepsData

theorem applyKeepsData_applyRecord (hdeletion : ∀ before id recordUpdatedAt,
      ApplyKeepsData I (applyDeletion io before id recordUpdatedAt))
    (hconnection : ∀ id payload options recordUpdatedAt,
      ApplyKeepsData I (applyConnection io strategy id payload options recordUpdatedAt))
    (before : BeforeSnapshot) (rec : SavedConnectionSyncRecord) :
    ApplyKeepsData I (applyRecord io strategy before rec) := by
  refine Ensures.lift_bind (fun _ hs => hs) fun recordUpdatedAt _ => ?_
  split
  · exact hdeletion before _ _
  · split
    · exact fun _ hs => hs
    · split
      · exact fun _ hs => hs
      · exact hconnection _ _ _ _

variable (hnormalize : KeepsData I (normalize io))
  (hrecord : ∀ before rec, ApplyKeepsData I (applyRecord io strategy before rec))
include hnormalize hrecord

theorem applyKeepsData_applyRecords (records : List SavedConnectionSyncRecord) :
    ApplyKeepsData I (applyRecords io strategy records) := by
  refine Ensures.bind (KeepsData.inApply sameData_getThe.keepsData) fun s => ?_
  refine Ensures.bind (KeepsData.inApply (preparing_clock io).sameData.keepsData) fun now => ?_
  refine Ensures.bind (Ensures.each fun rec _ => hrecord _ rec) fun _ => ?_
  refine Ensures.bind (KeepsData.inApply hnormalize) fun _ => ?_
  have hread : ApplyKeepsData I (getThe Applying) := fun s hs => hs
  refine Ensures.bind hread fun ⟨_, notes⟩ => ?_
  dsimp only
  by_cases happlied : 0 < notes.applied
  · rw [if_pos happlied]
    exact KeepsData.inApply (sameData_save io).keepsData
  · rw [if_neg happlied]
    exact Ensures.pure fun _ hs => hs

omit hnormalize hrecord in
theorem keepsData_restoreCheckpoint {checkpoint : ConnectionStoreCheckpoint}
    (h : I checkpoint.originalData) : KeepsData I (restoreCheckpoint io checkpoint) := by
  refine Ensures.bind sameData_getThe.keepsData fun s => ?_
  have hmodify : KeepsData I (modifyData fun _ => checkpoint.originalData) :=
    keepsData_modifyData fun _ _ => h
  dsimp only
  split
  · refine Ensures.bind (SameData.keepsData ?_) fun _ => hmodify
    exact sameData_outside io fun _ => rfl
  · exact hmodify

theorem keepsData_prepareSnapshot (snapshot : SavedConnectionsSyncSnapshot) :
    KeepsData I (prepareSavedConnectionsSnapshot io snapshot strategy) := by
  refine Ensures.bind
    (M := fun checkpoint s => I s.data ∧ I checkpoint.originalData) ?_ fun checkpoint => ?_
  · refine Ensures.bind (SameData.keepsData (sameData_outside io fun _ => rfl)) fun _ => ?_
    refine Ensures.getThe_bind fun s hs => Ensures.pure ?_
    rintro _ rfl
    exact ⟨hs, hs⟩
  refine Ensures.getThe_bind fun s hs => ?_
  have happly := applyKeepsData_applyRecords io hnormalize hrecord snapshot.records
  split
  · next e s' notes hrun =>
      have hs' : I s'.data := happly.error (s := (s, {})) hs.1 hrun
      refine Ensures.bind (M := fun _ s => I s.data) (fun _ _ => hs') fun _ => ?_
      refine Ensures.bind (keepsData_restoreCheckpoint io hs.2) fun _ => ?_
      exact (sameData_throw e).keepsData
  · next s' notes hrun =>
      have hs' : I s'.data := happly.ok (s := (s, {})) hs.1 hrun
      exact Ensures.bind (M := fun _ s => I s.data) (fun _ _ => hs') fun _ =>
        (sameData_pure _).keepsData

omit hnormalize hrecord in
theorem sameData_deletePending (ids : List Str) {delete : Str → StoreM Unit}
    (h : ∀ id, SameData (delete id)) : SameData (deletePending ids delete) := by
  refine SameData.bind (SameData.each fun id _ => ?_) fun _ => sameData_pure _
  exact (sameData_attempt (h id)).bind fun _ => sameData_pure _

theorem keepsData_applySnapshot (hpending : ∀ d ids privilegeIds, I d →
      I { d with pendingKeychainCleanup := ids, pendingPrivilegeKeychainCleanup := privilegeIds })
    (snapshot : SavedConnectionsSyncSnapshot) :
    KeepsData I (applySavedConnectionsSnapshot io snapshot strategy) := by
  refine Ensures.bind (keepsData_prepareSnapshot io hnormalize hrecord snapshot)
    fun prepared => ?_
  refine Ensures.bind (M := fun _ s => I s.data) (Ensures.attempt ?_) fun _ =>
    (sameData_pure _).keepsData
  refine Ensures.bind sameData_getThe.keepsData fun s => ?_
  refine Ensures.bind (sameData_deletePending _ (sameData_keychainDelete io)).keepsData
    fun failed => ?_
  refine Ensures.bind (sameData_deletePending _ (sameData_privilegeKeychainDelete io)).keepsData
    fun failedPrivilege => ?_
  refine Ensures.bind (keepsData_modifyData fun d hd => hpending d _ _ hd) fun _ => ?_
  exact Ensures.bind (sameData_save io).keepsData fun _ => (sameData_pure _).keepsData

end ConnectionStore

end Hapcli.Connections
