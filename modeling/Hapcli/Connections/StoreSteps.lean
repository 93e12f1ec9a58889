/-
  Subject:   What the steps of the store's operations do to it, said once.

  * `Tidied` -- the data in its kept form; **`tidying_normalize`**, **`tidying_ensureGroup`** -- the
    steps after it.
-/
import Hapcli.Connections.Sync

namespace Hapcli.Connections

open Hapcli.Lib Hapcli.Rust
open Lib.Action (Keeps lift attempt each)

namespace ConnectionStore

variable (io : Io)

/-! ## 1. Before the data is touched -/

/-- Secrets may have been stored; the data is as it was and no entry is gone. -/
structure Prepares (s s' : ConnectionStore) : Prop where
  data : s'.data = s.data
  entries : ∀ id ∈ s.keychain.keySet, id ∈ s'.keychain.keySet
  calls : s.calls ≤ s'.calls

theorem Prepares.refl (s : ConnectionStore) : Prepares s s := ⟨rfl, fun _ h => h, le_rfl⟩

variable {a b c : ConnectionStore}

theorem Prepares.trans (h : Prepares a b) (h' : Prepares b c) : Prepares a c :=
  ⟨h'.data.trans h.data, fun id hid => h'.entries id (h.entries id hid), h.calls.trans h'.calls⟩

/-- Code that only prepares. -/
abbrev Preparing {α : Type} (act : StoreM α) : Prop := Keeps Prepares act

variable {store : Str → Secret → StoreM Unit}

variable {α β : Type} {act : StoreM α}

section Preparing

theorem Preparing.bind {f : α → StoreM β} (hact : Preparing act) (hf : ∀ a, Preparing (f a)) :
    Preparing (act >>= f) :=
  Keeps.bind Prepares.trans hact hf

theorem preparing_pure (a : α) : Preparing (pure a : StoreM α) := Keeps.pure Prepares.refl a

theorem preparing_lift (r : Except StoreError α) : Preparing (lift r) :=
  Keeps.lift Prepares.refl r

theorem preparing_bail (text : Str) : Preparing (bail text : StoreM α) :=
  Keeps.throw Prepares.refl _

theorem preparing_getThe : Preparing (getThe ConnectionStore) :=
  Keeps.getThe Prepares.refl

theorem Preparing.each {xs : List β} {body : β → StoreM α} (h : ∀ x ∈ xs, Preparing (body x)) :
    Preparing (each xs body) :=
  Keeps.each Prepares.refl Prepares.trans h

theorem preparing_clock : Preparing (clock io) := fun _ => ⟨rfl, fun _ h => h, Nat.le_succ _⟩

theorem preparing_newUuid : Preparing (newUuid io) := fun _ => ⟨rfl, fun _ h => h, Nat.le_succ _⟩

variable {change : ConnectionStore → ConnectionStore} {new : StoreM Str}

theorem preparing_outside (h : ∀ s, Prepares s (change s)) : Preparing (outside io change) := by
  intro s
  unfold outside
  split
  · exact ⟨rfl, fun _ h => h, Nat.le_succ _⟩
  · exact ⟨(h s).data, (h s).entries, Nat.le_succ _⟩

variable (id : Str)

theorem preparing_keychainStore (secret : Secret) : Preparing (keychainStore io id secret) :=
  preparing_outside io fun _ =>
    ⟨rfl, fun _ h => by rw [Map.keySet_insert]; exact Finset.mem_insert_of_mem h, le_rfl⟩

theorem preparing_keychainGetOptional : Preparing (keychainGetOptional io id) :=
  (preparing_outside io Prepares.refl).bind fun _ =>
    (preparing_getThe).bind fun _ => preparing_pure _

theorem preparing_keychainGet : Preparing (keychainGet io id) := by
  refine (preparing_keychainGetOptional io id).bind fun secret => ?_
  cases secret with
  | some secret => exact preparing_pure secret
  | none => exact preparing_bail _

theorem preparing_newKeychainId (kind : String) : Preparing (newKeychainId io kind) :=
  (preparing_newUuid io).bind fun _ => preparing_pure _

theorem preparing_orNewId (id : Option Str) (h : Preparing new) : Preparing (orNewId id new) := by
  cases id with
  | some id => exact preparing_pure id
  | none => exact h

theorem preparing_storeSecret (id : Option Str) (h : Preparing new) (secret : Secret) :
    Preparing (storeSecret io id new secret) :=
  (preparing_orNewId id h).bind fun _ =>
    (preparing_keychainStore io _ secret).bind fun _ => preparing_pure _

theorem preparing_cloneSecret (keychainId : Str) (h : Preparing new) :
    Preparing (cloneSecret io keychainId new) :=
  (preparing_keychainGet io keychainId).bind fun _ => h.bind fun _ =>
    (preparing_keychainStore io _ _).bind fun _ => preparing_pure _

theorem preparing_materializeAuth (auth : SavedAuth) (existingAuth : Option SavedAuth) :
    Preparing (materializeAuthWithRuntimeSecret io auth existingAuth) := by
  have hstore := fun id kind secret =>
    preparing_storeSecret io id (preparing_newKeychainId io kind) secret
  cases auth with
  | password keychainId plaintext =>
    cases plaintext with
    | none => exact preparing_pure _
    | some password => exact (hstore _ _ password).bind fun _ => preparing_pure _
  | key keyPath hasPassphrase keychainId plaintext =>
    cases plaintext with
    | none =>
      simp only [materializeAuthWithRuntimeSecret]
      split <;> exact preparing_pure _
    | some passphrase => exact (hstore _ _ passphrase).bind fun _ => preparing_pure _
  | certificate keyPath certPath hasPassphrase keychainId plaintext =>
    cases plaintext with
    | none =>
      simp only [materializeAuthWithRuntimeSecret]
      split <;> exact preparing_pure _
    | some passphrase => exact (hstore _ _ passphrase).bind fun _ => preparing_pure _
  | managedKey keyId keychainId plaintext =>
    cases plaintext with
    | none => exact preparing_pure _
    | some passphrase => exact (hstore _ _ passphrase).bind fun _ => preparing_pure _
  | keyboardInteractive => exact preparing_pure _
  | agent => exact preparing_pure _

theorem preparing_materializeProxyHop (hop : SavedProxyHop) :
    Preparing (materializeProxyHop io hop) :=
  (preparing_materializeAuth io hop.auth none).bind fun _ =>
    (preparing_lift _).bind fun _ => (preparing_lift _).bind fun _ => preparing_pure _

theorem preparing_materializeProxyChain (proxyChain : List SavedProxyHop) :
    Preparing (materializeProxyChainWithRuntimeSecrets io proxyChain) :=
  (Preparing.each fun hop _ => preparing_materializeProxyHop io hop).bind fun _ =>
    preparing_pure _

theorem preparing_materializeUpstreamProxyAuth (auth : SavedUpstreamProxyAuth)
    (existingPolicy : Option SavedUpstreamProxyPolicy) :
    Preparing (materializeUpstreamProxyAuthWithRuntimeSecret io auth existingPolicy) := by
  cases auth with
  | none => exact preparing_pure _
  | password username keychainId plaintext =>
    refine (preparing_lift _).bind fun _ => ?_
    cases plaintext with
    | none => exact preparing_pure _
    | some password =>
      exact (preparing_storeSecret io _ (preparing_newKeychainId io _) password).bind
        fun _ => preparing_pure _

theorem preparing_materializeUpstreamProxyPolicy (policy : SavedUpstreamProxyPolicy)
    (existingPolicy : Option SavedUpstreamProxyPolicy) :
    Preparing (materializeUpstreamProxyPolicyWithRuntimeSecret io policy existingPolicy) := by
  cases policy with
  | useGlobal => exact preparing_pure _
  | direct => exact preparing_pure _
  | custom proxy =>
    exact (preparing_materializeUpstreamProxyAuth io proxy.auth existingPolicy).bind fun _ =>
      (preparing_lift _).bind fun _ => preparing_pure _

theorem preparing_privilegeKeychainStore (secret : Secret) :
    Preparing (privilegeKeychainStore io id secret) :=
  preparing_outside io fun _ => ⟨rfl, fun _ h => h, le_rfl⟩

theorem preparing_materializePrivilegeCredential (connectionId : Str)
    (credential : SavedPrivilegeCredential) :
    Preparing (materializePrivilegeCredential io connectionId credential) := by
  unfold materializePrivilegeCredential
  dsimp only
  split
  · exact preparing_pure _
  · exact (preparing_privilegeKeychainStore io _ _).bind fun _ => preparing_pure _

theorem preparing_materializePrivilegeCredentials (connectionId : Str)
    (credentials : List SavedPrivilegeCredential) :
    Preparing (materializePrivilegeCredentials io connectionId credentials) :=
  (Preparing.each fun credential _ =>
    preparing_materializePrivilegeCredential io connectionId credential).bind fun _ =>
      preparing_pure _

theorem preparing_cloneAuthSecret (auth : SavedAuth) : Preparing (cloneAuthSecret io auth) := by
  unfold cloneAuthSecret
  split
  all_goals first
    | exact preparing_pure _
    | exact (preparing_cloneSecret io _ (preparing_newKeychainId io _)).bind fun _ =>
      preparing_pure _

theorem preparing_elsewhere (hdata : ∀ s, (change s).data = s.data)
    (hkeychain : ∀ s, (change s).keychain = s.keychain) : Preparing (outside io change) := by
  intro s
  unfold outside
  split
  · exact ⟨rfl, fun _ h => h, Nat.le_succ _⟩
  · exact ⟨hdata s, fun _ h => (hkeychain s).symm ▸ h, Nat.le_succ _⟩

theorem Preparing.attempt (h : Preparing act) : Preparing act.attempt := Keeps.attempt h

theorem preparing_privilegeKeychainDelete : Preparing (privilegeKeychainDelete io id) :=
  preparing_elsewhere io (fun _ => rfl) fun _ => rfl

theorem preparing_storeManagedSshKeySecret (secret : Secret) :
    Preparing (storeManagedSshKeySecret io id secret) := by
  refine Preparing.bind (Preparing.attempt ?_) fun stored => ?_
  · exact preparing_elsewhere io (fun _ => rfl) fun _ => rfl
  split
  · exact preparing_pure _
  · refine Preparing.bind (Preparing.attempt ?_) fun _ => ?_
    · exact preparing_elsewhere io (fun _ => rfl) fun _ => rfl
    refine Preparing.bind ?_ fun _ => ?_
    · refine (preparing_getThe).bind fun _ => ?_
      refine Preparing.bind ?_ fun _ => preparing_pure _
      exact preparing_elsewhere io (fun _ => rfl) fun _ => rfl
    · refine Preparing.bind ?_ fun _ => preparing_pure _
      exact preparing_elsewhere io (fun _ => rfl) fun _ => rfl

theorem preparing_deleteManagedSshKeySecret : Preparing (deleteManagedSshKeySecret io id) := by
  refine Preparing.bind (Preparing.attempt ?_) fun _ => ?_ <;>
    exact preparing_elsewhere io (fun _ => rfl) fun _ => rfl

theorem preparing_getManagedSshKeySecret : Preparing (getManagedSshKeySecret io id) := by
  refine Preparing.bind (Preparing.attempt ?_) fun readable => ?_
  · exact preparing_elsewhere io (fun _ => rfl) fun _ => rfl
  refine (preparing_getThe).bind fun s => ?_
  split
  · exact preparing_pure _
  · refine (preparing_elsewhere io (fun _ => rfl) fun _ => rfl).bind fun _ => ?_
    dsimp only
    by_cases hkey : (!s.configKey) = true
    · rw [if_pos hkey]
      refine (preparing_bail _).bind fun _ => ?_
      split
      · exact preparing_pure _
      · exact preparing_bail _
    · rw [if_neg hkey]
      split
      · exact preparing_pure _
      · exact preparing_bail _

theorem preparing_snapshotEntries {read : Str → StoreM (Option Secret)} (ids : List Str)
    (h : ∀ id, Preparing (read id)) : Preparing (snapshotEntries ids read) :=
  Preparing.each fun id _ => (h id).bind fun _ => preparing_pure _

variable (data : ConnectionStoreData)

theorem preparing_snapshotKeychainEntries : Preparing (snapshotKeychainEntries io data) :=
  preparing_snapshotEntries _ (preparing_keychainGetOptional io)

theorem preparing_snapshotPrivilegeKeychainEntries :
    Preparing (snapshotPrivilegeKeychainEntries io data) :=
  preparing_snapshotEntries _ fun _ => (preparing_outside io Prepares.refl).bind fun _ =>
    (preparing_getThe).bind fun _ => preparing_pure _

theorem preparing_snapshotManagedKeychainEntries :
    Preparing (snapshotManagedKeychainEntries io data) :=
  preparing_snapshotEntries _ fun id =>
    (preparing_getManagedSshKeySecret io id).bind fun _ => preparing_pure _

theorem preparing_rollbackEntries {delete : Str → StoreM Unit}
    (touched : List Str) (original : List (Str × Option Secret))
    (hstore : ∀ id secret, Preparing (store id secret)) (hdelete : ∀ id, Preparing (delete id)) :
    Preparing (rollbackEntries touched original store delete) := by
  refine Preparing.bind (Preparing.each fun id _ => ?_) fun done => ?_
  · split
    · exact (hstore _ _).attempt
    · exact (hdelete _).attempt
  · split
    · exact preparing_pure _
    · exact Keeps.throw Prepares.refl _

end Preparing

/-! ## 2. The data in its kept form -/

/-- The same connections up to their order and the place of their command, no tombstone more. -/
structure Tidied (d d' : ConnectionStoreData) : Prop where
  connections :
    (d'.connections.map movePostConnectCommand).Perm (d.connections.map movePostConnectCommand)
  tombstones : d'.connectionTombstones.Sublist d.connectionTombstones
  pending : d'.pendingKeychainCleanup = d.pendingKeychainCleanup

theorem Tidied.refl (d : ConnectionStoreData) : Tidied d d := ⟨.refl _, .refl _, rfl⟩

theorem Tidied.trans {a b c : ConnectionStoreData} (h : Tidied a b) (h' : Tidied b c) :
    Tidied a c :=
  ⟨h'.connections.trans h.connections, h'.tombstones.trans h.tombstones,
    h'.pending.trans h.pending⟩

theorem Tidied.map_perm {d d' : ConnectionStoreData} (h : Tidied d d')
    {f : SavedConnection → β} (hf : ∀ conn, f (movePostConnectCommand conn) = f conn) :
    (d'.connections.map f).Perm (d.connections.map f) := by
  have hperm := h.connections.map f
  rwa [List.map_map, List.map_map, show f ∘ movePostConnectCommand = f from funext hf] at hperm

theorem movePostConnectCommand_idem (conn : SavedConnection) :
    movePostConnectCommand (movePostConnectCommand conn) = movePostConnectCommand conn := by
  simp [movePostConnectCommand]

theorem sortByLowercase_perm (name : α → Str) (l : List α) :
    (sortByLowercase io name l).Perm l :=
  List.perm_insertionSort _ l

theorem normalizeData_tidied (now : Time) (d : ConnectionStoreData) :
    Tidied d (normalizeData io now d) where
  connections := by
    have hperm := (sortByLowercase_perm io (·.name) (d.connections.map movePostConnectCommand)).map
      movePostConnectCommand
    rwa [List.map_map, show movePostConnectCommand ∘ movePostConnectCommand =
      movePostConnectCommand from funext movePostConnectCommand_idem] at hperm
  tombstones := List.filter_sublist
  pending := rfl

/-- The data is tidied, the keychains as they were; calls may have been made. -/
structure Tidies (s s' : ConnectionStore) : Prop where
  data : Tidied s.data s'.data
  keychain : s'.keychain = s.keychain
  privilegeKeychain : s'.privilegeKeychain = s.privilegeKeychain
  managedKeychain : s'.managedKeychain = s.managedKeychain
  calls : s.calls ≤ s'.calls

theorem Tidies.refl (s : ConnectionStore) : Tidies s s := ⟨.refl _, rfl, rfl, rfl, le_rfl⟩

theorem Tidies.trans (h : Tidies a b) (h' : Tidies b c) : Tidies a c :=
  ⟨h.data.trans h'.data, h'.keychain.trans h.keychain,
    h'.privilegeKeychain.trans h.privilegeKeychain, h'.managedKeychain.trans h.managedKeychain,
    h.calls.trans h'.calls⟩

/-- Code that only tidies. -/
abbrev Tidying {α : Type} (act : StoreM α) : Prop := Keeps Tidies act

theorem Tidying.bind {f : α → StoreM β} (hact : Tidying act)
    (hf : ∀ a, Tidying (f a)) : Tidying (act >>= f) :=
  Keeps.bind Tidies.trans hact hf

theorem tidying_pure (a : α) : Tidying (pure a : StoreM α) :=
  Keeps.pure Tidies.refl a

theorem tidying_clock : Tidying (clock io) := fun _ =>
  ⟨.refl _, rfl, rfl, rfl, Nat.le_succ _⟩

theorem tidying_modifyData {f : ConnectionStoreData → ConnectionStoreData}
    (h : ∀ d, Tidied d (f d)) : Tidying (modifyData f) :=
  fun s => ⟨h s.data, rfl, rfl, rfl, le_rfl⟩

theorem tidying_normalize : Tidying (normalize io) :=
  (tidying_clock io).bind fun _ => tidying_modifyData fun d => normalizeData_tidied io _ d

theorem tidying_ensureGroup (name : Str) : Tidying (ensureGroup io name) := by
  refine Tidying.bind (Keeps.lift Tidies.refl _) fun name => ?_
  refine Tidying.bind (Keeps.getThe Tidies.refl) fun s => ?_
  split
  · exact tidying_pure _
  · refine Tidying.bind ?_ fun _ => tidying_normalize io
    exact tidying_modifyData fun _ => ⟨.refl _, .refl _, rfl⟩

theorem tidying_ensureOptionalGroup (group : Option Str) :
    Tidying (ensureOptionalGroup io group) := by
  cases group with
  | none => exact tidying_pure _
  | some group => exact tidying_ensureGroup io group

theorem tidying_save : Tidying (save io) := by
  intro s
  unfold save outside
  split <;> exact ⟨.refl _, rfl, rfl, rfl, Nat.le_succ _⟩

theorem putAndSave_tidies (connection : SavedConnection) (s : ConnectionStore) :
    Tidies { s with
      data := { s.data with connections := putConnection s.data.connections connection } }
      (putAndSave io connection s).2 := by
  have htail : Tidying (do
      ensureOptionalGroup io connection.group
      normalize io
      save io) :=
    (tidying_ensureOptionalGroup io _).bind fun _ =>
      (tidying_normalize io).bind fun _ => tidying_save io
  exact htail _

/-! ## 3. The data left alone -/

/-- Code that leaves the data alone. -/
abbrev SameData {α : Type} (act : StoreM α) : Prop :=
  Keeps (fun s s' : ConnectionStore => s'.data = s.data) act

section SameData

theorem sameData_trans (h : b.data = a.data) (h' : c.data = b.data) : c.data = a.data := h'.trans h

theorem SameData.bind {f : α → StoreM β} (hact : SameData act) (hf : ∀ a, SameData (f a)) :
    SameData (act >>= f) :=
  Keeps.bind sameData_trans hact hf

theorem SameData.each {xs : List β} {body : β → StoreM α} (h : ∀ x ∈ xs, SameData (body x)) :
    SameData (each xs body) :=
  Keeps.each (R := fun s s' : ConnectionStore => s'.data = s.data) (fun _ => rfl)
    sameData_trans h

theorem Preparing.sameData (h : Preparing act) : SameData act := Keeps.weaken h (·.data)

theorem sameData_pure (a : α) : SameData (pure a : StoreM α) := fun _ => rfl

theorem sameData_throw (e : StoreError) : SameData (throw e : StoreM α) := fun _ => rfl

theorem sameData_getThe : SameData (getThe ConnectionStore) := fun _ => rfl

theorem sameData_lift (r : Except StoreError α) : SameData (lift r) := fun _ => rfl

theorem sameData_outside {change : ConnectionStore → ConnectionStore}
    (h : ∀ s, (change s).data = s.data) : SameData (outside io change) := by
  intro s
  unfold outside
  split
  · rfl
  · exact h s

theorem sameData_save : SameData (save io) := sameData_outside io fun _ => rfl

variable (id : Str)

theorem sameData_keychainDelete : SameData (keychainDelete io id) :=
  sameData_outside io fun _ => rfl

theorem sameData_privilegeKeychainDelete : SameData (privilegeKeychainDelete io id) :=
  sameData_outside io fun _ => rfl

theorem sameData_attempt (h : SameData act) : SameData act.attempt := Keeps.attempt h

variable {delete : Str → StoreM Unit}

theorem sameData_attemptEach (ids : List Str) (h : ∀ id, SameData (delete id)) :
    SameData (each ids fun id => attempt (delete id)) :=
  SameData.each fun id _ => sameData_attempt (h id)

theorem sameData_deleteStale (old next : List Str) :
    SameData (deleteStaleKeychainEntries io old next) :=
  (sameData_attemptEach _ (sameData_keychainDelete io)).bind fun _ => sameData_pure _

theorem sameData_savedInfo : SameData (savedInfo id) := by
  refine SameData.bind sameData_getThe fun s => ?_
  split
  · exact sameData_pure _
  · exact sameData_throw _

theorem sameData_rollbackEntries (touched : List Str) (original : List (Str × Option Secret))
    (hstore : ∀ id secret, SameData (store id secret)) (hdelete : ∀ id, SameData (delete id)) :
    SameData (rollbackEntries touched original store delete) := by
  refine SameData.bind (SameData.each fun id _ => ?_) fun done => ?_
  · split
    · exact sameData_attempt (hstore _ _)
    · exact sameData_attempt (hdelete _)
  · split
    · exact sameData_pure _
    · exact sameData_throw _

end SameData

theorem rollbackImport_data (originalData : ConnectionStoreData)
    (originalKeychain originalPrivilegeKeychain originalManagedKeychain :
      List (Str × Option Secret)) (touched : Touched) (s : ConnectionStore) :
    (rollbackImport io originalData originalKeychain originalPrivilegeKeychain
      originalManagedKeychain touched s).2.data = originalData := by
  have hkeychain := sameData_rollbackEntries touched.keychainIds.dedup originalKeychain
    (fun id secret => (preparing_keychainStore io id secret).sameData) (sameData_keychainDelete io)
  have hprivilege := (preparing_rollbackEntries touched.privilegeKeychainIds.dedup
    originalPrivilegeKeychain (preparing_privilegeKeychainStore io)
    (preparing_privilegeKeychainDelete io)).sameData
  have hmanaged := (preparing_rollbackEntries touched.managedSecretIds.dedup
    originalManagedKeychain (fun id secret =>
      (preparing_storeManagedSshKeySecret io id secret).bind fun _ => preparing_pure ())
    (preparing_deleteManagedSshKeySecret io)).sameData
  have hconfig : SameData (do
      if touched.createdConfigKey then
        let _ ← attempt (outside io fun s => { s with configKey := false })
        pure ()) := by
    split
    · refine SameData.bind (sameData_attempt ?_) fun _ => sameData_pure _
      exact sameData_outside io fun _ => rfl
    · exact sameData_pure _
  have hrest := (sameData_attempt (sameData_save io)).bind fun _ =>
    (sameData_attempt hkeychain).bind fun _ => (sameData_attempt hprivilege).bind fun _ =>
      (sameData_attempt hmanaged).bind fun _ => hconfig
  exact hrest { s with data := originalData }

end ConnectionStore

/-! ## 4. A connection from a record -/

theorem except_bind_ok {ε α β : Type} {r : Except ε α} {f : α → Except ε β} {b : β}
    (h : (r >>= f) = .ok b) : ∃ a, r = .ok a ∧ f a = .ok b := by
  cases r with
  | error e => cases h
  | ok a => exact ⟨a, rfl, h⟩

/-- What is said of a connection that was built from a record. -/
structure Synced (payload : ConnectionInfo) (syncedOptions : Option ConnectionOptions)
    (recordUpdatedAt : Time) (existing : Option SavedConnection) (preserveAuth : Bool)
    (next : SavedConnection) : Prop where
  id : next.id = payload.id
  name : next.name = trim payload.name
  group : ConnectionStore.normalizeOptionalGroupName payload.group = .ok next.group
  updatedAt : next.updatedAt = some recordUpdatedAt
  auth : next.auth = syncedAuth payload existing preserveAuth
  proxyChain : next.proxyChain = payload.proxyChain.map (buildSyncedProxyHop existing preserveAuth)
  upstreamProxy : next.upstreamProxy = payload.upstreamProxy
  postConnectCommand : next.postConnectCommand = none

theorem nonEmpty_ok {value result : Str} {label : String}
    (h : ConnectionStore.nonEmpty value label = .ok result) : result = value := by
  unfold ConnectionStore.nonEmpty at h
  split at h
  · cases h
  · exact (Except.ok.inj h).symm

theorem synced_of_ok {payload : ConnectionInfo} {syncedOptions : Option ConnectionOptions}
    {recordUpdatedAt : Time} {existing : Option SavedConnection} {preserveAuth : Bool}
    {next : SavedConnection}
    (h : buildSavedConnectionFromSyncPayload payload syncedOptions recordUpdatedAt existing
      preserveAuth = .ok next) :
    Synced payload syncedOptions recordUpdatedAt existing preserveAuth next := by
  unfold buildSavedConnectionFromSyncPayload at h
  obtain ⟨name, hname, h⟩ := except_bind_ok h
  obtain ⟨group, hgroup, h⟩ := except_bind_ok h
  obtain ⟨host, -, h⟩ := except_bind_ok h
  obtain ⟨username, -, h⟩ := except_bind_ok h
  obtain ⟨createdAt, -, h⟩ := except_bind_ok h
  obtain ⟨lastUsedAt, -, h⟩ := except_bind_ok h
  cases h
  exact ⟨rfl, nonEmpty_ok hname, hgroup, rfl, rfl, rfl, rfl, rfl⟩

end Hapcli.Connections
