/-
  Subject:   Which saved connection an entry of the keychain belongs to, over one operation.

  * `Owned` -- no entry is referred to by two connections, and none that waits for deletion by any;
    `Owners` -- the same of a store, with the entries it still has and those about to be deleted;
  * `ClaimableBy`, `owned_put` -- an entry that a connection may take over;
  * `keepsOwners_deleteEach` -- the deletions at the end of an operation;
  * `ownersOk_upsert`, `ownersOk_duplicate`, `ownersOk_delete` and the others -- the operations on
    one connection.
-/
import Hapcli.Connections.KeychainEntries

namespace Hapcli.Connections

open Hapcli.Lib Hapcli.Rust
open Lib.Action (Ensures Keeps attempt each)

/-! ## 1. Owners -/

/-- The entries the connections refer to. -/
def referredEntries (d : ConnectionStoreData) : List Str :=
  d.connections.flatMap collectConnectionKeychainIds

/-- **An entry has one owner**: no two connections refer to it, and none that waits for deletion is
    referred to. -/
structure Owned (d : ConnectionStoreData) : Prop where
  live : (liveIds d).Nodup
  apart : ∀ a ∈ d.connections, ∀ b ∈ d.connections, ∀ K ∈ collectConnectionKeychainIds a,
    K ∈ collectConnectionKeychainIds b → a.id = b.id
  pending : ∀ K ∈ referredEntries d, K ∉ d.pendingKeychainCleanup

/-- An entry that no other connection refers to and that does not wait for deletion. -/
structure ClaimableBy (d : ConnectionStoreData) (owner : Option Str) (K : Str) : Prop where
  alone : ∀ conn ∈ d.connections, K ∈ collectConnectionKeychainIds conn → owner = some conn.id
  kept : K ∉ d.pendingKeychainCleanup

/-- The texts of a store that a UUID could meet. -/
def knownTexts (d : ConnectionStoreData) : List Str :=
  referredEntries d ++ (d.pendingKeychainCleanup ++ liveIds d)

variable {io : Io} {d d₀ d' : ConnectionStoreData}

variable {K : Str} {conn connection : SavedConnection} {l : List SavedConnection}

theorem mem_referredEntries :
    K ∈ referredEntries d ↔ ∃ conn ∈ d.connections, K ∈ collectConnectionKeychainIds conn :=
  List.mem_flatMap

theorem eq_of_live (h : (l.map (·.id)).Nodup) {a b : SavedConnection} (ha : a ∈ l) (hb : b ∈ l)
    (hid : a.id = b.id) : a = b :=
  List.inj_on_of_nodup_map h ha hb hid

theorem Owned.claimable (h : Owned d) (hconn : conn ∈ d.connections)
    (hK : K ∈ collectConnectionKeychainIds conn) : ClaimableBy d (some conn.id) K where
  alone other hother hK' := congrArg some (h.apart conn hconn other hother K hK hK')
  kept := h.pending K ((mem_referredEntries).mpr ⟨conn, hconn, hK⟩)

theorem claimable_of_unknown {owner : Option Str} (hrefs : K ∉ referredEntries d)
    (hpending : K ∉ d.pendingKeychainCleanup) : ClaimableBy d owner K where
  alone conn hconn hK := absurd ((mem_referredEntries).mpr ⟨conn, hconn, hK⟩) hrefs
  kept := hpending

theorem mem_tidied (h : ConnectionStore.Tidied d d') (hconn : conn ∈ d'.connections) :
    ∃ conn₀ ∈ d.connections,
      ConnectionStore.movePostConnectCommand conn₀ =
        ConnectionStore.movePostConnectCommand conn := by
  have hmem := h.connections.mem_iff.mp (List.mem_map_of_mem hconn)
  exact List.mem_map.mp hmem

theorem entries_of_moved {a b : SavedConnection}
    (h : ConnectionStore.movePostConnectCommand a = ConnectionStore.movePostConnectCommand b) :
    a.id = b.id ∧ collectConnectionKeychainIds a = collectConnectionKeychainIds b := by
  have hid := congrArg SavedConnection.id h
  have hentries := congrArg collectConnectionKeychainIds h
  exact ⟨hid, hentries⟩

theorem referred_tidied (h : ConnectionStore.Tidied d d') (hK : K ∈ referredEntries d') :
    K ∈ referredEntries d := by
  obtain ⟨conn, hconn, hK⟩ := (mem_referredEntries).mp hK
  obtain ⟨conn₀, hconn₀, heq⟩ := mem_tidied h hconn
  exact (mem_referredEntries).mpr ⟨conn₀, hconn₀, (entries_of_moved heq).2 ▸ hK⟩

theorem Owned.tidied (h : Owned d) (ht : ConnectionStore.Tidied d d') : Owned d' where
  live := (liveIds_tidied ht).nodup_iff.mpr h.live
  apart a ha b hb K hKa hKb := by
    obtain ⟨a₀, ha₀, heqa⟩ := mem_tidied ht ha
    obtain ⟨b₀, hb₀, heqb⟩ := mem_tidied ht hb
    obtain ⟨hida, hentriesa⟩ := entries_of_moved heqa
    obtain ⟨hidb, hentriesb⟩ := entries_of_moved heqb
    rw [← hida, ← hidb]
    exact h.apart a₀ ha₀ b₀ hb₀ K (hentriesa ▸ hKa) (hentriesb ▸ hKb)
  pending K hK := ht.pending ▸ h.pending K (referred_tidied ht hK)

/-! ## 2. A connection is put -/

theorem mem_putConnection (h : (l.map (·.id)).Nodup)
    (hconn : conn ∈ ConnectionStore.putConnection l connection) :
    conn = connection ∨ (conn ∈ l ∧ conn.id ≠ connection.id) := by
  unfold ConnectionStore.putConnection at hconn
  cases hindex : l.findIdx? (·.id == connection.id) with
  | none =>
    rw [hindex] at hconn
    rcases List.mem_append.mp hconn with hconn | hconn
    · have hne := List.findIdx?_eq_none_iff.mp hindex conn hconn
      exact .inr ⟨hconn, by simpa using hne⟩
    · exact .inl (List.mem_singleton.mp hconn)
  | some index =>
    rw [hindex] at hconn
    obtain ⟨hlt, heq, -⟩ := List.findIdx?_eq_some_iff_getElem.mp hindex
    obtain ⟨i, hi, rfl⟩ := List.mem_iff_getElem.mp hconn
    rw [List.getElem_set]
    split
    · exact .inl rfl
    · next hne =>
        have hi' : i < l.length := by simpa using hi
        refine .inr ⟨List.getElem_mem hi', fun hid => hne ?_⟩
        have hsame : l[index] = l[i] :=
          eq_of_live h (List.getElem_mem hlt) (List.getElem_mem hi')
            (by rw [hid]; simpa using heq)
        exact (List.Nodup.getElem_inj_iff h.of_map).mp hsame

theorem owned_put (h : Owned d)
    (hclaim : ∀ K ∈ collectConnectionKeychainIds connection, ClaimableBy d (some connection.id) K) :
    Owned { d with connections := ConnectionStore.putConnection d.connections connection } where
  live := ConnectionStore.nodup_putConnection_ids h.live
  apart a ha b hb K hKa hKb := by
    rcases mem_putConnection h.live ha with rfl | ⟨ha', -⟩
    · rcases mem_putConnection h.live hb with rfl | ⟨hb', -⟩
      · rfl
      · exact Option.some.inj ((hclaim K hKa).alone b hb' hKb)
    · rcases mem_putConnection h.live hb with rfl | ⟨hb', -⟩
      · exact (Option.some.inj ((hclaim K hKb).alone a ha' hKa)).symm
      · exact h.apart a ha' b hb' K hKa hKb
  pending K hK := by
    obtain ⟨conn, hconn, hKc⟩ := (mem_referredEntries).mp hK
    rcases mem_putConnection h.live hconn with rfl | ⟨hconn', -⟩
    · exact (hclaim K hKc).kept
    · exact h.pending K ((mem_referredEntries).mpr ⟨conn, hconn', hKc⟩)

theorem put_new (h : connection.id ∉ l.map (·.id)) :
    ConnectionStore.putConnection l connection = l ++ [connection] := by
  have hnone : l.findIdx? (·.id == connection.id) = none := by
    refine List.findIdx?_eq_none_iff.mpr fun conn hconn => ?_
    exact beq_false_of_ne fun hid => h (hid ▸ List.mem_map_of_mem hconn)
  simp only [ConnectionStore.putConnection, hnone]

/-- After a put the entries that the connection of the id had and has no longer are nobody's. -/
theorem stale_put {existing : SavedConnection} (h : Owned d) (hexisting : existing ∈ d.connections)
    (hid : existing.id = connection.id) (hK : K ∈ collectConnectionKeychainIds existing)
    (hnext : K ∉ collectConnectionKeychainIds connection) :
    K ∉ referredEntries
      { d with connections := ConnectionStore.putConnection d.connections connection } := by
  intro href
  obtain ⟨conn, hconn, hKc⟩ := (mem_referredEntries).mp href
  rcases mem_putConnection h.live hconn with rfl | ⟨hconn, hne⟩
  · exact hnext hKc
  · exact hne ((h.apart existing hexisting conn hconn K hK hKc).symm.trans hid)

namespace ConnectionStore

/-! ## 3. What a call does to the owners -/

/-- Entries have one owner; those of the beginning that are referred to are there; those about to be
    deleted are not referred to. -/
structure Owners (keys : Finset Str) (stale : List Str) (s : ConnectionStore) : Prop where
  owned : Owned s.data
  safe : ∀ K ∈ referredEntries s.data, K ∈ keys → K ∈ s.keychain.keySet
  stale : ∀ K ∈ stale, K ∉ referredEntries s.data

/-- Owners are kept, whatever comes of the call. -/
abbrev KeepsOwners {α : Type} (keys : Finset Str) (stale : List Str) (act : StoreM α) : Prop :=
  act.Ensures (Owners keys stale) (fun _ => Owners keys stale) (Owners keys stale)

/-- An operation ends with one owner each, whatever comes of it. -/
abbrev OwnersOk (keys : Finset Str) (s : ConnectionStore) : Prop := Owners keys [] s

variable {keys : Finset Str} {stale : List Str} {first : Nat} {found : Nat → Prop}

variable {s s' : ConnectionStore}

theorem Owners.forget (h : Owners keys stale s) : OwnersOk keys s :=
  ⟨h.owned, h.safe, fun _ hK => absurd hK List.not_mem_nil⟩

theorem Owners.tidied (h : Owners keys stale s) (ht : Tidies s s') :
    Owners keys stale s' where
  owned := h.owned.tidied ht.data
  safe K hK hkey := ht.keychain ▸ h.safe K (referred_tidied ht.data hK) hkey
  stale K hK href := h.stale K hK (referred_tidied ht.data href)

theorem Owners.prepared (h : Owners keys stale s) (hp : Prepares s s') :
    Owners keys stale s' where
  owned := hp.data ▸ h.owned
  safe K hK hkey := hp.entries K (h.safe K (hp.data ▸ hK) hkey)
  stale K hK href := h.stale K hK (hp.data ▸ href)

theorem Ready.owners (hs : Ready d₀ keys first found s) (hd : Owned d₀) :
    OwnersOk keys s where
  owned := hs.data ▸ hd
  safe K _ hkey := hs.entries K hkey
  stale _ hK := absurd hK List.not_mem_nil

section Steps

variable {α β : Type} {act : StoreM α}

theorem Tidying.keepsOwners (h : Tidying act) : KeepsOwners keys stale act :=
  h.ensures fun htidies hs => hs.tidied htidies

theorem Preparing.keepsOwners (h : Preparing act) : KeepsOwners keys stale act :=
  h.ensures fun hprep hs => hs.prepared hprep

theorem KeepsOwners.bind {f : α → StoreM β} (hact : KeepsOwners keys stale act)
    (hf : ∀ a, KeepsOwners keys stale (f a)) : KeepsOwners keys stale (act >>= f) :=
  Ensures.bind hact hf

theorem keepsOwners_pure (a : α) : KeepsOwners keys stale (pure a : StoreM α) :=
  (preparing_pure a).keepsOwners

theorem KeepsOwners.done (h : KeepsOwners keys stale act) :
    act.Ensures (Owners keys stale) (fun _ => OwnersOk keys) (OwnersOk keys) :=
  h.weaken (fun _ h => h) (fun _ _ h => h.forget) fun _ h => h.forget

end Steps

variable (io)

theorem ensures_outside {change : ConnectionStore → ConnectionStore}
    {P Q E : ConnectionStore → Prop} (hdone : ∀ s, P s → Q { change s with calls := s.calls + 1 })
    (hrefused : ∀ s, P s → E { s with calls := s.calls + 1 }) :
    (outside io change).Ensures P (fun _ => Q) E := by
  intro s hs
  unfold outside
  cases hrefuse : io.refuses s.calls with
  | true => exact hrefused s hs
  | false => exact hdone s hs

theorem keepsOwners_keychainDelete (hK : K ∈ stale) :
    KeepsOwners keys stale (keychainDelete io K) := by
  refine ensures_outside io (fun s hs => ?_) fun s hs => ⟨hs.owned, hs.safe, hs.stale⟩
  refine ⟨hs.owned, fun K' href hkey => ?_, hs.stale⟩
  have hne : K' ≠ K := fun heq => hs.stale K hK (heq ▸ href)
  rw [Map.keySet_erase]
  exact Finset.mem_erase.mpr ⟨hne, hs.safe K' href hkey⟩

theorem keepsOwners_deleteEach {ids : List Str} (hids : ∀ K ∈ ids, K ∈ stale) :
    KeepsOwners keys stale
      (each ids fun keychainId => attempt (keychainDelete io keychainId)) :=
  Ensures.each fun K hK => (keepsOwners_keychainDelete io (hids K hK)).attempt

theorem keepsOwners_deleteStale {old next : List Str} (h : ∀ K ∈ old, K ∉ next → K ∈ stale) :
    KeepsOwners keys stale (deleteStaleKeychainEntries io old next) := by
  refine KeepsOwners.bind (keepsOwners_deleteEach io fun K hK => ?_) fun _ => keepsOwners_pure _
  obtain ⟨hold, hnext⟩ := List.mem_filter.mp hK
  exact h K hold (by simpa using hnext)

theorem preparing_savedInfo (id : Str) : Preparing (savedInfo id) := by
  refine preparing_getThe.bind fun s => ?_
  split
  · exact preparing_pure _
  · exact Keeps.throw Prepares.refl _

variable {io}

/-! ## 4. A connection saved -/

variable {entries kept : List Str} {id : Str} {owner : Option Str}

theorem claimable_entries {m : Nat} (hfresh : FreshUuids io (knownTexts d₀))
    (howner : ∀ conn ∈ d₀.connections, owner = some conn.id → id = conn.id)
    (hkept : ∀ K ∈ kept, ClaimableBy d₀ owner K) (hentries : EntriesFrom io first kept entries m) :
    ∀ K ∈ entries, ClaimableBy d₀ (some id) K := by
  intro K hK
  rcases hentries K hK with hold | hnew
  · exact ⟨fun conn hconn hK => congrArg some (howner conn hconn ((hkept K hold).alone conn hconn hK)),
      (hkept K hold).kept⟩
  · have hunknown := hnew.not_known hfresh
    exact claimable_of_unknown (fun h => hunknown (List.mem_append_left _ h))
      fun h => hunknown (List.mem_append_right _ (List.mem_append_left _ h))

/-- What the connection of an id referred to. -/
def entriesOf (d : ConnectionStoreData) (id : Str) : List Str :=
  ((d.connections.find? (·.id == id)).map collectConnectionKeychainIds).getD []

theorem mem_entriesOf (h : K ∈ entriesOf d id) :
    ∃ conn ∈ d.connections, conn.id = id ∧ K ∈ collectConnectionKeychainIds conn := by
  unfold entriesOf at h
  cases hfind : d.connections.find? (·.id == id) with
  | none =>
    rw [hfind] at h
    exact absurd h List.not_mem_nil
  | some conn =>
    rw [hfind] at h
    exact ⟨conn, List.mem_of_find?_eq_some hfind, by simpa using List.find?_some hfind, h⟩

variable (io)

/-- A connection whose entries may be claimed is put: the old ones that it drops are nobody's. -/
theorem owners_modify_put (hd : Owned d₀)
    (hclaim : ∀ K ∈ collectConnectionKeychainIds connection, ClaimableBy d₀ (some connection.id) K)
    (hs : Ready d₀ keys first found s) (hstale : ∀ K ∈ stale, K ∈ entriesOf d₀ connection.id ∧
      K ∉ collectConnectionKeychainIds connection) : Owners keys stale { s with data :=
      { s.data with connections := putConnection s.data.connections connection } } := by
  have hdata := hs.data
  refine ⟨?_, fun K _ hkey => hs.entries K hkey, fun K hK => ?_⟩
  · rw [hdata]
    exact owned_put hd hclaim
  · obtain ⟨hold, hnext⟩ := hstale K hK
    obtain ⟨conn, hconn, hid, hKc⟩ := mem_entriesOf hold
    rw [hdata]
    exact stale_put hd hconn hid hKc hnext

theorem owners_putAndSave (hd : Owned d₀)
    (hclaim : ∀ m, found m → ∀ K ∈ collectConnectionKeychainIds connection,
      ClaimableBy d₀ (some connection.id) K) :
    (putAndSave io connection).Ensures (Ready d₀ keys first found)
      (fun _ => Owners keys ((entriesOf d₀ connection.id).filter
        (· ∉ collectConnectionKeychainIds connection))) (OwnersOk keys) := by
  refine Ensures.bind
    (M := fun _ => Owners keys ((entriesOf d₀ connection.id).filter
      (· ∉ collectConnectionKeychainIds connection))) ?_ fun _ => ?_
  · refine Ensures.modify fun s hs => ?_
    refine owners_modify_put hd (hclaim _ hs.found) hs fun K hK => ?_
    obtain ⟨hold, hnext⟩ := List.mem_filter.mp hK
    exact ⟨hold, by simpa using hnext⟩
  · have htail : Tidying (do
        ensureOptionalGroup io connection.group
        normalize io
        save io) :=
      (tidying_ensureOptionalGroup io _).bind fun _ =>
        (tidying_normalize io).bind fun _ => tidying_save io
    exact htail.keepsOwners.weaken (fun _ h => h) (fun _ _ h => h) fun _ h => h.forget

theorem ready_orNewUuid {id : Option Str} (hfound : Lasting found) :
    (orNewUuid io id).Ensures (Ready d₀ keys first found)
      (fun id' s => Ready d₀ keys first found s ∧
        (id = some id' ∨ id = none ∧ ∃ k, id' = io.uuid k)) (Ready d₀ keys first found) := by
  cases id with
  | some given => exact Ensures.pure fun s hs => ⟨hs, .inl rfl⟩
  | none =>
    exact fun s hs => ⟨hs.step hfound (preparing_newUuid io s), .inr ⟨rfl, s.calls, rfl⟩⟩

theorem lasting_true : Lasting fun _ => True := fun _ _ _ _ => trivial

/-- The connection a saved one takes the place of. -/
def existingFor (d : ConnectionStoreData) (owner : Option Str) : Option SavedConnection :=
  owner.bind fun id => d.connections.find? (·.id == id)

theorem get_existingFor (hfresh : FreshUuids io (knownTexts s.data))
    (hid : owner = some id ∨ owner = none ∧ ∃ k, id = io.uuid k) :
    s.get id = existingFor s.data owner := by
  rcases hid with rfl | ⟨rfl, k, rfl⟩
  · rfl
  · refine List.find?_eq_none.mpr fun conn hconn heq => ?_
    refine hfresh.unseen k [] (List.mem_append_right _ (List.mem_append_right _ ?_))
    exact (beq_iff_eq.mp heq) ▸ List.mem_map_of_mem hconn

theorem owner_id (hid : owner = some id ∨ owner = none ∧ ∃ k, id = io.uuid k) :
    ∀ conn ∈ d₀.connections, owner = some conn.id → id = conn.id := by
  rintro conn hconn howner
  rcases hid with h | ⟨h, -⟩
  · exact Option.some.inj (h.symm.trans howner)
  · rw [h] at howner
    cases howner

/-- The entries a request takes over. -/
def requestEntries (d : ConnectionStoreData) (request : SaveConnectionRequest) : List Str :=
  keptEntries request.auth request.proxyChain request.upstreamProxy (existingFor d request.id)

/-- Code that adds to what was found that its result refers to entries taken over or new ones. -/
def FindsEntries {α : Type} (d₀ : ConnectionStoreData) (keys : Finset Str) (first : Nat)
    (act : StoreM α) (kept : List Str) (entries : α → List Str) : Prop :=
  ∀ found, Lasting found → act.Ensures (Ready d₀ keys first found)
    (fun a => Ready d₀ keys first fun m => found m ∧ EntriesFrom io first kept (entries a) m)
    (Ready d₀ keys first found)

theorem finds_materializeAuth (auth : SavedAuth) (existingAuth : Option SavedAuth) :
    FindsEntries io d₀ keys first (materializeAuthWithRuntimeSecret io auth existingAuth)
      (authEntry auth existingAuth).toList fun result => collectKeychainIdsForAuth result.1 := by
  intro found hfound
  refine (preparing_materializeAuth io auth existingAuth).finds hfound
    fun s result s' hcalls hrun K hK => ?_
  exact (materializeAuth_ok io hrun K hK).imp Option.mem_toList.mpr
    fun hnew => hnew.widen hcalls le_rfl

theorem finds_materializeProxyChain (proxyChain : List SavedProxyHop) :
    FindsEntries io d₀ keys first (materializeProxyChainWithRuntimeSecrets io proxyChain)
      (proxyChain.filterMap (authEntry ·.auth none))
      fun result => result.1.flatMap (collectKeychainIdsForAuth ·.auth) := by
  intro found hfound
  refine (preparing_materializeProxyChain io proxyChain).finds hfound
    fun s result s' hcalls hrun K hK => ?_
  exact (materializeProxyChain_ok io hrun K hK).imp_right fun hnew => hnew.widen hcalls le_rfl

theorem finds_materializeUpstreamProxyPolicy (policy : SavedUpstreamProxyPolicy)
    (existingPolicy : Option SavedUpstreamProxyPolicy) :
    FindsEntries io d₀ keys first
      (materializeUpstreamProxyPolicyWithRuntimeSecret io policy existingPolicy)
      (upstreamEntry policy existingPolicy).toList
      fun result => collectKeychainIdsForUpstreamProxy result.1 := by
  intro found hfound
  refine (preparing_materializeUpstreamProxyPolicy io policy existingPolicy).finds hfound
    fun s result s' hcalls hrun K hK => ?_
  exact (materializeUpstreamProxyPolicy_ok io hrun K hK).imp Option.mem_toList.mpr
    fun hnew => hnew.widen hcalls le_rfl

theorem FindsEntries.fst {A B : Type} {act : StoreM (A × B)} {entries : A → List Str}
    (h : FindsEntries io d₀ keys first act kept fun result => entries result.1) :
    FindsEntries io d₀ keys first (act >>= fun result => pure result.1) kept entries :=
  fun found hfound => Ensures.bind (h found hfound) fun _ => Ensures.pure fun _ hs => hs

theorem ready_error {α : Type} {act : StoreM α} {P : ConnectionStore → Prop}
    {M : α → ConnectionStore → Prop} (hd : Owned d₀)
    (h : act.Ensures P M (Ready d₀ keys first found)) : act.Ensures P M (OwnersOk keys) :=
  h.weaken (fun _ h => h) (fun _ _ h => h) fun _ h => h.owners hd

/-- What a failure before the data is touched may be taken for. -/
def BeforeData (d₀ : ConnectionStoreData) (keys : Finset Str) (first : Nat)
    (E : ConnectionStore → Prop) : Prop :=
  ∀ found s, Ready d₀ keys first found s → E s

theorem beforeData_owners (hd : Owned d₀) : BeforeData d₀ keys first (OwnersOk keys) :=
  fun _ _ h => h.owners hd

/-- The parts of a connection are made, then what follows has them with their entries. -/
theorem ready_parts {auth : SavedAuth} {proxyChain : List SavedProxyHop}
    {upstreamProxy : SavedUpstreamProxyPolicy} (existing : Option SavedConnection) {A C U β : Type}
    {makeAuth : StoreM A} {makeChain : StoreM C} {makeUpstream : StoreM U} (authOf : A → SavedAuth)
    (chainOf : C → List SavedProxyHop) (upstreamOf : U → SavedUpstreamProxyPolicy)
    {E : ConnectionStore → Prop} (hE : BeforeData d₀ keys first E) (hfound : Lasting found)
    (hauth : FindsEntries io d₀ keys first makeAuth
      (authEntry auth (existing.map SavedConnection.auth)).toList
      fun a => collectKeychainIdsForAuth (authOf a))
    (hchain : FindsEntries io d₀ keys first makeChain
      (proxyChain.filterMap (authEntry ·.auth none))
      fun c => (chainOf c).flatMap (collectKeychainIdsForAuth ·.auth))
    (hupstream : FindsEntries io d₀ keys first makeUpstream
      (upstreamEntry upstreamProxy (existing.map SavedConnection.upstreamProxy)).toList
      fun u => collectKeychainIdsForUpstreamProxy (upstreamOf u)) {next : A → C → U → StoreM β}
    {Q : β → ConnectionStore → Prop}
    (hnext : ∀ a c u, (next a c u).Ensures (Ready d₀ keys first fun m => found m ∧
      EntriesFrom io first (keptEntries auth proxyChain upstreamProxy existing)
        (collectKeychainIdsForParts (authOf a) (chainOf c) (upstreamOf u)) m) Q E) :
    (do
      let a ← makeAuth
      let c ← makeChain
      let u ← makeUpstream
      next a c u).Ensures (Ready d₀ keys first found) Q E := by
  refine Ensures.bind ((hauth _ hfound).weaken (fun _ h => h) (fun _ _ h => h)
    (hE _)) fun a => ?_
  refine Ensures.bind ((hchain _ ?_).weaken (fun _ h => h) (fun _ _ h => h)
    (hE _)) fun c => ?_
  · exact hfound.and (lasting_entriesFrom io first _ _)
  refine Ensures.bind ((hupstream _ ?_).weaken (fun _ h => h) (fun _ _ h => h)
    (hE _)) fun u => ?_
  · exact (hfound.and (lasting_entriesFrom io first _ _)).and (lasting_entriesFrom io first _ _)
  refine (hnext a c u).weaken (fun s hs => ⟨hs.data, hs.entries, hs.calls, ?_⟩) (fun _ _ h => h)
    fun _ h => h
  obtain ⟨⟨⟨hknown, hfrom⟩, hfrom'⟩, hfrom''⟩ := hs.found
  exact ⟨hknown, parts_of_materialize io hfrom hfrom' hfrom''⟩

section

variable (hd : Owned d₀) (hfresh : FreshUuids io (knownTexts d₀))
  (hclaim : ∀ K ∈ requestEntries d₀ request, ClaimableBy d₀ request.id K)

include hd hfresh hclaim

theorem ownersOk_upsertWithRuntimeSecrets :
    (upsertWithRuntimeSecrets io request).Ensures (Ready d₀ keys first fun _ => True)
      (fun _ => OwnersOk keys) (OwnersOk keys) := by
  have herror : ∀ s, Ready d₀ keys first (fun _ => True) s → OwnersOk keys s :=
    fun s hs => hs.owners hd
  refine Ensures.lift_bind herror fun group _ => ?_
  refine Ensures.bind (ready_error hd ((preparing_clock io).ready lasting_true))
    fun now => ?_
  refine Ensures.bind (ready_error hd (ready_orNewUuid io lasting_true)) fun id => ?_
  refine Ensures.assuming fun hid => ?_
  refine Ensures.getThe_keeps fun s hs => ?_
  obtain rfl := hs.data
  have hexisting := get_existingFor io hfresh hid
  have hentries : ((s.get id).map collectConnectionKeychainIds).getD [] = entriesOf s.data id := rfl
  dsimp only
  rw [hentries, hexisting]
  refine ready_parts io _ Prod.fst Prod.fst Prod.fst (beforeData_owners hd) lasting_true
    (finds_materializeAuth io _ _) (finds_materializeProxyChain io _)
    (finds_materializeUpstreamProxyPolicy io _ _) fun a c u => ?_
  refine Ensures.lift_bind (fun _ h => h.owners hd) fun name _ => ?_
  refine Ensures.lift_bind (fun _ h => h.owners hd) fun host _ => ?_
  refine Ensures.lift_bind (fun _ h => h.owners hd) fun username _ => ?_
  refine Ensures.bind (owners_putAndSave io hd fun m hm => ?_) fun _ => ?_
  · exact claimable_entries hfresh (owner_id io hid) hclaim hm.2
  refine Ensures.bind (KeepsOwners.done (keepsOwners_deleteStale io fun K hold hnext => ?_))
    fun _ => ?_
  · exact List.mem_filter.mpr ⟨hold, decide_eq_true hnext⟩
  exact (preparing_savedInfo id).keepsOwners.bind fun _ => keepsOwners_pure _

theorem ownersOk_upsert : (upsert io request).Ensures (Ready d₀ keys first fun _ => True)
      (fun _ => OwnersOk keys) (OwnersOk keys) :=
  Ensures.bind (ownersOk_upsertWithRuntimeSecrets io hd hfresh hclaim)
    fun _ => keepsOwners_pure _

end

/-! ## 5. A connection imported -/

/-- The id an import goes by: its own where it is not blank. -/
def importOwner (connection : SavedConnection) : Option Str :=
  if (trim connection.id).isEmpty then none else some connection.id

/-- The entries an import takes over. -/
def importEntries (d : ConnectionStoreData) (connection : SavedConnection) : List Str :=
  keptEntries connection.auth connection.proxyChain connection.upstreamProxy
    (existingFor d (importOwner connection))

theorem ready_importedId (hfound : Lasting found) :
    (importedId io connection).Ensures (Ready d₀ keys first found)
      (fun id s => Ready d₀ keys first found s ∧
        (importOwner connection = some id ∨ importOwner connection = none ∧ ∃ k, id = io.uuid k))
      (Ready d₀ keys first found) := by
  unfold importedId importOwner
  split
  · exact fun s hs => ⟨hs.step hfound (preparing_newUuid io s), .inr ⟨rfl, s.calls, rfl⟩⟩
  · exact Ensures.pure fun s hs => ⟨hs, .inl rfl⟩

theorem ownersOk_upsertImportedConnection (hd : Owned d₀) (hfresh : FreshUuids io (knownTexts d₀))
    (hclaim : ∀ K ∈ importEntries d₀ connection, ClaimableBy d₀ (importOwner connection) K) :
    (upsertImportedConnection io connection).Ensures (Ready d₀ keys first fun _ => True)
      (fun _ => OwnersOk keys) (OwnersOk keys) := by
  have herror : ∀ s, Ready d₀ keys first (fun _ => True) s → OwnersOk keys s :=
    fun s hs => hs.owners hd
  refine Ensures.lift_bind herror fun group _ => ?_
  refine Ensures.bind (ready_error hd ((preparing_clock io).ready lasting_true))
    fun now => ?_
  refine Ensures.bind (ready_error hd (ready_importedId io lasting_true)) fun id => ?_
  refine Ensures.assuming fun hid => ?_
  refine Ensures.getThe_keeps fun s hs => ?_
  obtain rfl := hs.data
  have hexisting := get_existingFor io hfresh hid
  have hentries : ((s.get id).map collectConnectionKeychainIds).getD [] = entriesOf s.data id := rfl
  dsimp only
  rw [hentries, hexisting]
  refine Ensures.lift_bind herror fun name _ => ?_
  refine Ensures.lift_bind herror fun host _ => ?_
  refine Ensures.lift_bind herror fun username _ => ?_
  refine ready_parts io _ (fun a => a) (fun c => c) (fun u => u) (beforeData_owners hd)
    lasting_true (finds_materializeAuth io _ _).fst (finds_materializeProxyChain io _).fst
    (finds_materializeUpstreamProxyPolicy io _ _).fst fun a c u => ?_
  refine Ensures.bind (owners_putAndSave io hd fun m hm => ?_) fun _ => ?_
  · exact claimable_entries hfresh (owner_id io hid) hclaim hm.2
  refine Ensures.bind (KeepsOwners.done (keepsOwners_deleteStale io fun K hold hnext => ?_))
    fun _ => ?_
  · exact List.mem_filter.mpr ⟨hold, decide_eq_true hnext⟩
  exact (preparing_savedInfo _).keepsOwners

/-- Room for a connection with a new id: nobody refers to its entries. -/
structure Room (keys : Finset Str) (id : Str) (entries : List Str) (s : ConnectionStore) :
    Prop where
  owned : Owned s.data
  keychain : ∀ K ∈ keys, K ∈ s.keychain.keySet
  id : id ∉ liveIds s.data
  entries : ∀ K ∈ entries, ClaimableBy s.data none K

variable {io}

theorem Room.owners (h : Room keys id entries s) : OwnersOk keys s :=
  ⟨h.owned, fun K _ hkey => h.keychain K hkey, fun _ hK => absurd hK List.not_mem_nil⟩

theorem Room.tidied (h : Room keys id entries s) (ht : Tidies s s') : Room keys id entries s' where
  owned := h.owned.tidied ht.data
  keychain K hkey := ht.keychain ▸ h.keychain K hkey
  id hid := h.id ((liveIds_tidied ht.data).mem_iff.mp hid)
  entries K hK := by
    refine ⟨fun conn hconn hKc => ?_, ht.data.pending ▸ (h.entries K hK).kept⟩
    obtain ⟨conn₀, hconn₀, heq⟩ := mem_tidied ht.data hconn
    cases (h.entries K hK).alone conn₀ hconn₀ ((entries_of_moved heq).2 ▸ hKc)

theorem Room.append (h : Room keys connection.id (collectConnectionKeychainIds connection) s) :
    OwnersOk keys { s with data :=
      { s.data with connections := s.data.connections ++ [connection] } } := by
  rw [← put_new h.id]
  refine ⟨owned_put h.owned fun K hK => ?_, fun K _ hkey => h.keychain K hkey,
    fun _ hK => absurd hK List.not_mem_nil⟩
  exact ⟨fun conn hconn hKc => absurd ((h.entries K hK).alone conn hconn hKc) (by simp),
    (h.entries K hK).kept⟩

theorem Ready.room {k : Nat} (hd : Owned d₀) (hfresh : FreshUuids io (knownTexts d₀))
    (hkept : ∀ K ∈ kept, ClaimableBy d₀ none K)
    (hs : Ready d₀ keys first (EntriesFrom io first kept entries) s) :
    Room keys (io.uuid k) entries s := by
  have hdata := hs.data
  refine ⟨hdata ▸ hd, hs.entries, fun hid => ?_, fun K hK => ?_⟩
  · rw [hdata] at hid
    exact hfresh.unseen k [] (List.mem_append_right _ (List.mem_append_right _ hid))
  · rw [hdata]
    rcases hs.found K hK with hold | hnew
    · exact hkept K hold
    · have hunknown := hnew.not_known hfresh
      exact claimable_of_unknown (fun h => hunknown (List.mem_append_left _ h))
        fun h => hunknown (List.mem_append_right _ (List.mem_append_left _ h))

variable (io)

theorem ready_newUuid (hfound : Lasting found) :
    (newUuid io).Ensures (Ready d₀ keys first found)
      (fun id s => Ready d₀ keys first found s ∧ ∃ k, id = io.uuid k)
      (Ready d₀ keys first found) :=
  fun s hs => ⟨hs.step hfound (preparing_newUuid io s), s.calls, rfl⟩

theorem ownersOk_importSshConnection (hd : Owned d₀) (hfresh : FreshUuids io (knownTexts d₀))
    (hclaim : ∀ K ∈ keptEntries connection.auth connection.proxyChain connection.upstreamProxy none,
      ClaimableBy d₀ none K) :
    (importSshConnection io connection).Ensures (Ready d₀ keys first fun _ => True)
      (fun _ => OwnersOk keys) (OwnersOk keys) := by
  refine Ensures.bind (ready_error hd (ready_newUuid io lasting_true)) fun id => ?_
  refine Ensures.assuming ?_
  rintro ⟨k, rfl⟩
  refine Ensures.bind (ready_error hd ((preparing_clock io).ready lasting_true))
    fun createdAt => ?_
  refine Ensures.bind (ready_error hd ((preparing_clock io).ready lasting_true))
    fun updatedAt => ?_
  refine ready_parts io none (fun a => a) (fun c => c) (fun u => u) (beforeData_owners hd)
    lasting_true (finds_materializeAuth io _ _).fst (finds_materializeProxyChain io _).fst
    (finds_materializeUpstreamProxyPolicy io _ _).fst fun a c u => ?_
  refine Ensures.bind
    (M := fun _ => Room keys (io.uuid k) (collectKeychainIdsForParts a c u)) ?_ fun _ => ?_
  · exact ((tidying_ensureOptionalGroup io _).ensures fun ht h => h.tidied ht).weaken
      (fun s hs => Ready.room hd hfresh hclaim ⟨hs.data, hs.entries, hs.calls, hs.found.2⟩)
      (fun _ _ h => h) fun _ h => h.owners
  refine Ensures.bind (M := fun _ => OwnersOk keys) ?_ fun _ => ?_
  · exact Ensures.modify fun s hs => Room.append hs
  refine (tidying_normalize io).keepsOwners.bind fun _ => ?_
  exact (tidying_save io).keepsOwners.bind fun _ => (preparing_savedInfo _).keepsOwners

/-! ## 6. A connection copied -/

theorem ownersOk_duplicate (hd : Owned d₀) (hfresh : FreshUuids io (knownTexts d₀))
    (hclaim : ∀ original ∈ d₀.connections, original.id = id → sharedEntries original = []) :
    (duplicate io id).Ensures (Ready d₀ keys first fun _ => True)
      (fun _ => OwnersOk keys) (OwnersOk keys) := by
  refine Ensures.getThe_keeps fun s hs => ?_
  obtain rfl := hs.data
  split
  · exact Ensures.pure fun s' hs' => hs'.owners hd
  · next original hget =>
      have horiginal := get_some hget
      have hshared := hclaim original horiginal.1 horiginal.2
      have hnothing : ∀ K ∈ ([] : List Str), ClaimableBy s.data none K :=
        fun _ hK => absurd hK List.not_mem_nil
      refine Ensures.bind (ready_error hd (ready_newUuid io lasting_true))
        fun duplicateId => ?_
      refine Ensures.assuming ?_
      rintro ⟨k, rfl⟩
      refine Ensures.bind (ready_error hd ((preparing_clock io).ready lasting_true))
        fun createdAt => ?_
      refine Ensures.bind (ready_error hd ((preparing_clock io).ready lasting_true))
        fun updatedAt => ?_
      refine Ensures.bind (ready_error hd ((preparing_cloneAuthSecret io _).finds
        (V := fun auth => EntriesFrom io first (sharedAuthEntries original.auth)
          (collectKeychainIdsForAuth auth)) lasting_true
        fun s auth s' hcalls hrun K hK => ?_)) fun auth => ?_
      · exact (cloneAuthSecret_ok io hrun K hK).imp_right fun hnew => hnew.widen hcalls le_rfl
      refine Ensures.bind (ready_error hd ((Preparing.each fun hop _ =>
        preparing_cloneProxyHop io hop).finds
        (V := fun chain => EntriesFrom io first
          (original.proxyChain.flatMap (sharedAuthEntries ·.auth))
          (chain.flatMap (collectKeychainIdsForAuth ·.auth))) ?_
        fun s chain s' hcalls hrun K hK => ?_)) fun proxyChain => ?_
      · exact lasting_true.and (lasting_entriesFrom io first _ _)
      · exact (cloneProxyChain_ok io hrun K hK).imp_right fun hnew => hnew.widen hcalls le_rfl
      refine Ensures.bind (M := fun _ => OwnersOk keys) ?_ fun _ => ?_
      · refine Ensures.modify fun s' hs' => Room.append (Ready.room (k := k) hd hfresh
          hnothing ⟨hs'.data, hs'.entries, hs'.calls, fun K hK => ?_⟩)
        obtain ⟨⟨-, hauth⟩, hchain⟩ := hs'.found
        have hnone : ∀ {K}, K ∈ sharedEntries original → False :=
          fun h => absurd (hshared ▸ h) List.not_mem_nil
        rcases List.mem_append.mp hK with hK | hK
        · rcases hauth K hK with hsh | hnew
          · exact (hnone (List.mem_append_left _ hsh)).elim
          · exact .inr hnew
        · rcases List.mem_append.mp hK with hK | hK
          · rcases hchain K hK with hsh | hnew
            · exact (hnone (List.mem_append_right _ (List.mem_append_left _ hsh))).elim
            · exact .inr hnew
          · exact (hnone (List.mem_append_right _ (List.mem_append_right _ hK))).elim
      refine (tidying_normalize io).keepsOwners.bind fun _ => ?_
      refine (tidying_save io).keepsOwners.bind fun _ => ?_
      exact preparing_getThe.keepsOwners.bind fun _ => keepsOwners_pure _

/-! ## 7. A connection deleted or changed -/

theorem owned_fewer (h : Owned d) (hlive : (liveIds d').Nodup)
    (hmem : ∀ conn ∈ d'.connections, ∃ conn₀ ∈ d.connections, conn₀.id = conn.id ∧
      collectConnectionKeychainIds conn₀ = collectConnectionKeychainIds conn)
    (hpending : d'.pendingKeychainCleanup = d.pendingKeychainCleanup) : Owned d' where
  live := hlive
  apart a ha b hb K hKa hKb := by
    obtain ⟨a₀, ha₀, hida, hentriesa⟩ := hmem a ha
    obtain ⟨b₀, hb₀, hidb, hentriesb⟩ := hmem b hb
    rw [← hida, ← hidb]
    exact h.apart a₀ ha₀ b₀ hb₀ K (hentriesa ▸ hKa) (hentriesb ▸ hKb)
  pending K hK := by
    obtain ⟨conn, hconn, hKc⟩ := (mem_referredEntries).mp hK
    obtain ⟨conn₀, hconn₀, -, hentries⟩ := hmem conn hconn
    exact hpending ▸ h.pending K ((mem_referredEntries).mpr ⟨conn₀, hconn₀, hentries ▸ hKc⟩)

theorem referred_fewer (hK : K ∈ referredEntries d')
    (hmem : ∀ conn ∈ d'.connections, ∃ conn₀ ∈ d.connections, conn₀.id = conn.id ∧
      collectConnectionKeychainIds conn₀ = collectConnectionKeychainIds conn) :
    K ∈ referredEntries d := by
  obtain ⟨conn, hconn, hKc⟩ := (mem_referredEntries).mp hK
  obtain ⟨conn₀, hconn₀, -, hentries⟩ := hmem conn hconn
  exact (mem_referredEntries).mpr ⟨conn₀, hconn₀, hentries ▸ hKc⟩

theorem mem_removed (h : (liveIds d).Nodup)
    (hconn : conn ∈ (removeConnectionWithoutTombstone id d).connections) :
    conn ∈ d.connections ∧ conn.id ≠ id := by
  refine ⟨List.mem_of_mem_eraseP hconn, fun heq => ?_⟩
  have hids : (removeConnectionWithoutTombstone id d).connections.map (·.id) =
      (liveIds d).erase id := eraseP_ids d.connections
  have hmem := List.mem_map_of_mem (f := fun conn : SavedConnection => conn.id) hconn
  rw [hids, heq] at hmem
  exact h.not_mem_erase hmem

theorem owners_removed {removed : SavedConnection} (hs : OwnersOk keys s)
    (hremoved : removed ∈ s.data.connections) :
    Owners keys (collectConnectionKeychainIds removed)
      { s with data := removeConnectionWithoutTombstone removed.id s.data } := by
  have hmem : ∀ conn ∈ (removeConnectionWithoutTombstone removed.id s.data).connections,
      ∃ conn₀ ∈ s.data.connections, conn₀.id = conn.id ∧
        collectConnectionKeychainIds conn₀ = collectConnectionKeychainIds conn :=
    fun conn hconn => ⟨conn, (mem_removed hs.owned.live hconn).1, rfl, rfl⟩
  refine ⟨owned_fewer hs.owned ?_ hmem rfl, fun K hK hkey => hs.safe K (referred_fewer hK hmem) hkey,
    fun K hK href => ?_⟩
  · show ((removeConnectionWithoutTombstone removed.id s.data).connections.map (·.id)).Nodup
    rw [show (removeConnectionWithoutTombstone removed.id s.data).connections.map (·.id) =
      (liveIds s.data).erase removed.id from eraseP_ids _]
    exact hs.owned.live.erase _
  · obtain ⟨conn, hconn, hKc⟩ := (mem_referredEntries).mp href
    obtain ⟨hconn', hne⟩ := mem_removed hs.owned.live hconn
    exact hne (hs.owned.apart removed hremoved conn hconn' K hK hKc).symm

theorem keepsOwners_upsertConnectionTombstone (id : Str) (deletedAt : Time) :
    KeepsOwners keys stale (upsertConnectionTombstone io id deletedAt) := by
  refine (preparing_clock io).keepsOwners.bind fun now => ?_
  refine KeepsOwners.bind ?_ fun _ => ?_
  · exact Ensures.modify fun s hs => ⟨⟨hs.owned.live, hs.owned.apart, hs.owned.pending⟩,
      hs.safe, hs.stale⟩
  refine preparing_getThe.keepsOwners.bind fun s => ?_
  refine KeepsOwners.bind ?_ fun _ => keepsOwners_pure _
  exact Ensures.modify fun s hs => ⟨⟨hs.owned.live, hs.owned.apart, hs.owned.pending⟩,
    hs.safe, hs.stale⟩

theorem ownersOk_delete (id : Str) :
    (delete io id).Ensures (OwnersOk keys) (fun _ => OwnersOk keys) (OwnersOk keys) := by
  refine Ensures.getThe_bind fun s hs => ?_
  -- what is removed below is what was found here
  refine Ensures.bind (M := fun _ s' => OwnersOk keys s' ∧ s'.data = s.data) ?_ fun now => ?_
  · rintro s' rfl
    exact ⟨⟨hs.owned, hs.safe, hs.stale⟩, rfl⟩
  refine Ensures.bind (M := fun removed s' => removed.elim (OwnersOk keys s') fun removed =>
    Owners keys (collectConnectionKeychainIds removed) s' ∧ s.get id = some removed) ?_
    fun removed => ?_
  · refine Ensures.getThe_bind fun s' hs' => ?_
    have hget : s'.get id = s.get id := by
      unfold ConnectionStore.get
      rw [hs'.2]
    split
    · exact Ensures.pure fun s'' (h : s'' = s') => h ▸ hs'.1
    · next removed hsome =>
        have hremoved := get_some hsome
        refine Ensures.bind
          (M := fun _ => Owners keys (collectConnectionKeychainIds removed)) ?_ fun _ => ?_
        · rintro _ rfl
          rw [← hremoved.2]
          exact owners_removed hs'.1 hremoved.1
        refine Ensures.bind ((keepsOwners_upsertConnectionTombstone io _ _).weaken
          (fun _ h => h) (fun _ _ h => h) fun _ h => h.forget) fun _ => ?_
        exact Ensures.pure fun s'' h => ⟨h, hget ▸ hsome⟩
  · cases removed with
    | none => exact Ensures.pure fun _ h => h
    | some removed =>
      refine Ensures.assuming fun hget => ?_
      have hids : ((s.get id).map collectConnectionKeychainIds).getD [] =
          collectConnectionKeychainIds removed := by rw [hget]; rfl
      rw [hids]
      refine KeepsOwners.done ?_
      refine (tidying_normalize io).keepsOwners.bind fun _ => ?_
      refine (tidying_save io).keepsOwners.bind fun _ => ?_
      refine (keepsOwners_deleteEach io fun _ hK => hK).bind fun _ => ?_
      refine (Preparing.each fun id _ =>
        (preparing_privilegeKeychainDelete io id).attempt).keepsOwners.bind fun _ => ?_
      exact keepsOwners_pure _

theorem owners_modifyFirst {p : SavedConnection → Bool} {f : SavedConnection → SavedConnection}
    (hs : OwnersOk keys s) (hconn : d'.connections = modifyFirst p f s.data.connections)
    (hf : ∀ conn, (f conn).id = conn.id)
    (hentries : ∀ conn, collectConnectionKeychainIds (f conn) = collectConnectionKeychainIds conn)
    (hpending : d'.pendingKeychainCleanup = s.data.pendingKeychainCleanup) :
    OwnersOk keys { s with data := d' } := by
  have hmem : ∀ conn ∈ d'.connections, ∃ conn₀ ∈ s.data.connections, conn₀.id = conn.id ∧
      collectConnectionKeychainIds conn₀ = collectConnectionKeychainIds conn := by
    intro conn hmem
    rw [hconn] at hmem
    have hpair := List.mem_map_of_mem (f := fun c => (c.id, collectConnectionKeychainIds c)) hmem
    rw [modifyFirst_map fun c => by rw [hf, hentries]] at hpair
    obtain ⟨conn₀, hconn₀, heq⟩ := List.mem_map.mp hpair
    exact ⟨conn₀, hconn₀, congrArg Prod.fst heq, congrArg Prod.snd heq⟩
  refine ⟨owned_fewer hs.owned ?_ hmem hpending,
    fun K hK hkey => hs.safe K (referred_fewer hK hmem) hkey,
    fun _ hK => absurd hK List.not_mem_nil⟩
  rw [liveIds_modifyFirst hconn hf]
  exact hs.owned.live

theorem ownersOk_renameConnection (id name : Str) :
    (renameConnection io id name).Ensures (OwnersOk keys) (fun _ => OwnersOk keys)
      (OwnersOk keys) := by
  refine preparing_getThe.keepsOwners.bind fun s => ?_
  split
  · exact keepsOwners_pure _
  · refine Ensures.lift_bind (fun _ hs => hs) fun name _ => ?_
    refine (preparing_clock io).keepsOwners.bind fun now => ?_
    refine Ensures.bind (M := fun _ => OwnersOk keys) ?_ fun _ => ?_
    · exact Ensures.modify fun s hs =>
        owners_modifyFirst hs rfl (fun _ => rfl) (fun _ => rfl) rfl
    refine (tidying_normalize io).keepsOwners.bind fun _ => ?_
    exact (tidying_save io).keepsOwners.bind fun _ => keepsOwners_pure _

theorem ownersOk_markUsed (id : Str) :
    (markUsed io id).Ensures (OwnersOk keys) (fun _ => OwnersOk keys) (OwnersOk keys) := by
  refine preparing_getThe.keepsOwners.bind fun s => ?_
  split
  · exact keepsOwners_pure _
  · refine (preparing_clock io).keepsOwners.bind fun now => ?_
    refine Ensures.bind (M := fun _ => OwnersOk keys) ?_ fun _ => ?_
    · exact Ensures.modify fun s hs =>
        owners_modifyFirst hs rfl (fun _ => rfl) (fun _ => rfl) rfl
    exact (tidying_save io).keepsOwners.bind fun _ => keepsOwners_pure _

end ConnectionStore

end Hapcli.Connections
