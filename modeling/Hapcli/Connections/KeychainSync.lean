/-
  Subject:   Which saved connection an entry of the keychain belongs to, over the apply of a snapshot.

  A record carries the entry of its upstream proxy's password as it stands on the device it is from.

  * `ApplyOwners`, `applyOwners_applyDeletion`, `applyOwners_applyConnection`,
    **`applyOwners_applyRecord`** -- the owners inside an apply;
  * **`ownersOk_applySnapshot`** -- the apply.
-/
import Hapcli.Connections.KeychainBatch

namespace Hapcli.Connections

open Hapcli.Lib Hapcli.Rust ConnectionStore
open Lib.Action (Ensures Keeps)

/-! ## 1. What a snapshot may take over -/

/-- The connection a record is for, where it is not the record of a deletion. -/
def SavedConnectionSyncRecord.live? (rec : SavedConnectionSyncRecord) : Option ConnectionInfo :=
  if rec.deleted then none else rec.payload

/-- The entry a record carries: that of the upstream proxy. -/
def recordEntries (rec : SavedConnectionSyncRecord) : List Str :=
  (rec.live?.map fun payload => collectKeychainIdsForUpstreamProxy payload.upstreamProxy).getD []

/-- A record is for the connection of its id, and the entry it carries is nobody else's, nor any
    that waits for deletion. -/
structure SnapshotClaims (d : ConnectionStoreData) (records : List SavedConnectionSyncRecord) :
    Prop where
  ids : (records.map (·.id)).Nodup
  own : ∀ rec ∈ records, ∀ payload, rec.live? = some payload → payload.id = rec.id
  alone : ∀ rec ∈ records, ∀ K ∈ recordEntries rec, ∀ conn ∈ d.connections,
    K ∈ collectConnectionKeychainIds conn → conn.id = rec.id ∧
      ∀ other ∈ records, other.live?.map (·.name) = some conn.name → other.id = rec.id
  kept : ∀ rec ∈ records, ∀ K ∈ recordEntries rec, K ∉ d.pendingKeychainCleanup
  apart : records.Pairwise fun rec rec' => ∀ K ∈ recordEntries rec, K ∉ recordEntries rec'

variable {io : Io} {d d₀ d' : ConnectionStoreData} {keys : Finset Str}
  {records done rest : List SavedConnectionSyncRecord} {rec : SavedConnectionSyncRecord}

/-! ## 2. The same connections -/

/-- The same connections up to their order and the place of their command, and the same entries. -/
structure Rearranged (s s' : ConnectionStore) : Prop where
  connections : (s'.data.connections.map movePostConnectCommand).Perm
    (s.data.connections.map movePostConnectCommand)
  pending : s'.data.pendingKeychainCleanup = s.data.pendingKeychainCleanup
  keychain : s'.keychain = s.keychain

variable {K : Str} {a : Applying} {conn : SavedConnection} {notes' : ApplyNotes}
  {s s' : ConnectionStore}

theorem Rearranged.of_tidies (h : Tidies s s') : Rearranged s s' :=
  ⟨h.data.connections, h.data.pending, h.keychain⟩

section

variable (h : Rearranged s s')

include h

theorem Rearranged.tidied :
    Tidied s.data { s'.data with connectionTombstones := s.data.connectionTombstones } :=
  ⟨h.connections, .refl _, h.pending⟩

theorem Rearranged.owned (ho : Owned s.data) : Owned s'.data := by
  have howned := ho.tidied h.tidied
  exact ⟨howned.live, howned.apart, howned.pending⟩

theorem Rearranged.referred (hK : K ∈ referredEntries s'.data) : K ∈ referredEntries s.data :=
  referred_tidied h.tidied hK

theorem Rearranged.mem (hconn : conn ∈ s'.data.connections) :
    ∃ conn₀ ∈ s.data.connections, conn₀.id = conn.id ∧
      conn₀.name = conn.name ∧
      collectConnectionKeychainIds conn₀ = collectConnectionKeychainIds conn := by
  obtain ⟨conn₀, hconn₀, heq⟩ := mem_tidied h.tidied hconn
  obtain ⟨hid, hentries⟩ := entries_of_moved heq
  have hname := congrArg SavedConnection.name heq
  exact ⟨conn₀, hconn₀, hid, hname, hentries⟩

end

theorem rearranged_upsertConnectionTombstone (io : Io) (id : Str) (deletedAt : Time) :
    Keeps Rearranged (upsertConnectionTombstone io id deletedAt) :=
  fun _ => ⟨.refl _, rfl, rfl⟩

/-! ## 3. Inside an apply -/

/-- A connection of before that a record was for, or gave way to. -/
def Gone (done : List SavedConnectionSyncRecord) (conn : SavedConnection) : Prop :=
  conn.id ∈ done.map (·.id) ∨ ∃ rec ∈ done, rec.live?.map (·.name) = some conn.name

/-- Where an entry is from that was a connection's, and may be noted for deletion. -/
def LostBy (d₀ : ConnectionStoreData) (done : List SavedConnectionSyncRecord) (K : Str) : Prop :=
  (∃ conn ∈ d₀.connections, K ∈ collectConnectionKeychainIds conn ∧ Gone done conn) ∨
    ∃ rec ∈ done, K ∈ recordEntries rec

/-- The owners inside an apply, some records of which are done. -/
structure ApplyOwners (d₀ : ConnectionStoreData) (keys : Finset Str)
    (done : List SavedConnectionSyncRecord) (a : Applying) : Prop where
  owned : Owned a.1.data
  keychain : EntriesKept keys a.1
  pending : a.1.data.pendingKeychainCleanup = d₀.pendingKeychainCleanup
  stale : ∀ K ∈ a.2.keychainIdsToDelete, K ∉ referredEntries a.1.data
  traced : ∀ conn ∈ a.1.data.connections, ∀ K ∈ collectConnectionKeychainIds conn,
    (∃ conn₀ ∈ d₀.connections, K ∈ collectConnectionKeychainIds conn₀ ∧ conn₀.id = conn.id) ∨
      LostBy d₀ done K
  staleTraced : ∀ K ∈ a.2.keychainIdsToDelete, LostBy d₀ done K
  untouched : ∀ conn ∈ a.1.data.connections, conn.id ∈ done.map (·.id) ∨
    ∃ conn₀ ∈ d₀.connections, conn₀.id = conn.id ∧ conn₀.name = conn.name

theorem Gone.later (h : Gone done conn) (rec : SavedConnectionSyncRecord) :
    Gone (done ++ [rec]) conn := by
  rcases h with hid | ⟨rec', hrec', hname⟩
  · refine .inl ?_
    rw [List.map_append]
    exact List.mem_append_left _ hid
  · exact .inr ⟨rec', List.mem_append_left _ hrec', hname⟩

theorem LostBy.later (h : LostBy d₀ done K) (rec : SavedConnectionSyncRecord) :
    LostBy d₀ (done ++ [rec]) K := by
  rcases h with ⟨conn, hconn, hK, hgone⟩ | ⟨rec', hrec', hK⟩
  · exact .inl ⟨conn, hconn, hK, hgone.later rec⟩
  · exact .inr ⟨rec', List.mem_append_left _ hrec', hK⟩

theorem gone_id (h : conn.id = rec.id) : Gone (done ++ [rec]) conn :=
  .inl (List.mem_map.mpr ⟨rec, List.mem_append_right _ (List.mem_singleton_self rec), h.symm⟩)

theorem gone_name (h : rec.live?.map (·.name) = some conn.name) : Gone (done ++ [rec]) conn :=
  .inr ⟨rec, List.mem_append_right _ (List.mem_singleton_self rec), h⟩

theorem ApplyOwners.later (h : ApplyOwners d₀ keys done a) (rec : SavedConnectionSyncRecord) :
    ApplyOwners d₀ keys (done ++ [rec]) a where
  owned := h.owned
  keychain := h.keychain
  pending := h.pending
  stale := h.stale
  traced conn hconn K hK := (h.traced conn hconn K hK).imp_right fun hlost => hlost.later rec
  staleTraced K hK := (h.staleTraced K hK).later rec
  untouched conn hconn := (h.untouched conn hconn).imp_left fun hid => by
    rw [List.map_append]
    exact List.mem_append_left _ hid

theorem ApplyOwners.rearranged {notes : ApplyNotes} (h : ApplyOwners d₀ keys done (s, notes))
    (hr : Rearranged s s') :
    ApplyOwners d₀ keys done (s', notes) where
  owned := hr.owned h.owned
  keychain K hkey := hr.keychain ▸ h.keychain K hkey
  pending := hr.pending.trans h.pending
  stale K hK href := h.stale K hK (hr.referred href)
  traced conn hconn K hK := by
    obtain ⟨conn₀, hconn₀, hid, -, hentries⟩ := hr.mem hconn
    exact hid ▸ h.traced conn₀ hconn₀ K (hentries ▸ hK)
  staleTraced := h.staleTraced
  untouched conn hconn := by
    obtain ⟨conn₀, hconn₀, hid, hname, -⟩ := hr.mem hconn
    rw [← hid, ← hname]
    exact h.untouched conn₀ hconn₀

theorem ApplyOwners.notes {notes : ApplyNotes} (h : ApplyOwners d₀ keys done (s, notes))
    (hnotes : notes'.keychainIdsToDelete = notes.keychainIdsToDelete) :
    ApplyOwners d₀ keys done (s, notes') :=
  ⟨h.owned, h.keychain, h.pending, hnotes ▸ h.stale, h.traced, hnotes ▸ h.staleTraced, h.untouched⟩

/-- What a failure inside an apply leaves: owners, and nothing deleted yet. -/
def ApplyFailed (keys : Finset Str) (a : Applying) : Prop := Owned a.1.data ∧ EntriesKept keys a.1

theorem ApplyOwners.failed (h : ApplyOwners d₀ keys done a) : ApplyFailed keys a :=
  ⟨h.owned, h.keychain⟩

theorem not_lostBy (hrecords : records = done ++ rec :: rest) (hclaims : SnapshotClaims d₀ records)
    (hK : K ∈ recordEntries rec) : ¬ LostBy d₀ done K := by
  have hrec : rec ∈ records := by rw [hrecords]; simp
  have hdone : ∀ x ∈ done, x ∈ records := fun x hx => by
    rw [hrecords]
    exact List.mem_append_left _ hx
  have hne : ∀ x ∈ done, x.id ≠ rec.id := by
    intro x hx heq
    have hids := hclaims.ids
    rw [hrecords, List.map_append, List.map_cons] at hids
    exact (List.nodup_append.mp hids).2.2 x.id (List.mem_map_of_mem hx) rec.id List.mem_cons_self heq
  rintro (⟨conn, hconn, hKc, hgone⟩ | ⟨rec', hrec', hKr⟩)
  · obtain ⟨hid, hname⟩ := hclaims.alone rec hrec K hK conn hconn hKc
    rcases hgone with hgone | ⟨rec', hrec', hsame⟩
    · obtain ⟨rec', hrec', heq⟩ := List.mem_map.mp hgone
      exact hne rec' hrec' (heq.trans hid)
    · exact hne rec' hrec' (hname rec' (hdone rec' hrec') hsame)
  · have hpair := hclaims.apart
    rw [hrecords] at hpair
    exact (List.pairwise_append.mp hpair).2.2 rec' hrec' rec List.mem_cons_self K hKr hK

theorem ApplyOwners.record_alone (h : ApplyOwners d₀ keys done a)
    (hrecords : records = done ++ rec :: rest) (hclaims : SnapshotClaims d₀ records)
    (hK : K ∈ recordEntries rec) (hconn : conn ∈ a.1.data.connections)
    (hKc : K ∈ collectConnectionKeychainIds conn) : conn.id = rec.id := by
  have hrec : rec ∈ records := by rw [hrecords]; simp
  rcases h.traced conn hconn K hKc with ⟨conn₀, hconn₀, hK₀, hid⟩ | hlost
  · exact hid.symm.trans (hclaims.alone rec hrec K hK conn₀ hconn₀ hK₀).1
  · exact absurd hlost (not_lostBy hrecords hclaims hK)

/-! ## 4. A connection gives way -/

/-- A connection gives way to a record: by its id or by its name. -/
def GivesWay (rec : SavedConnectionSyncRecord) (conn : SavedConnection) : Prop :=
  conn.id = rec.id ∨ rec.live?.map (·.name) = some conn.name

theorem ApplyOwners.lost (h : ApplyOwners d₀ keys done a) (hd : Owned d₀)
    (hconn : conn ∈ a.1.data.connections) (hway : GivesWay rec conn)
    (hK : K ∈ collectConnectionKeychainIds conn) : LostBy d₀ (done ++ [rec]) K := by
  rcases h.traced conn hconn K hK with ⟨conn₀, hconn₀, hK₀, hid⟩ | hlost
  · refine .inl ⟨conn₀, hconn₀, hK₀, ?_⟩
    rcases hway with hway | hway
    · exact gone_id (hid.trans hway)
    · rcases h.untouched conn hconn with hdone | ⟨conn₁, hconn₁, hid₁, hname₁⟩
      · have hgone : Gone done conn₀ := .inl (hid ▸ hdone)
        exact hgone.later rec
      · obtain rfl := eq_of_live hd.live hconn₀ hconn₁ (hid.trans hid₁.symm)
        exact gone_name (hname₁ ▸ hway)
  · exact hlost.later rec

theorem ApplyOwners.remove {notes : ApplyNotes} (h : ApplyOwners d₀ keys done (s, notes))
    (hd : Owned d₀) (hconn : conn ∈ s.data.connections) (hway : GivesWay rec conn) :
    ApplyOwners d₀ keys (done ++ [rec])
      ({ s with data := removeConnectionWithoutTombstone conn.id s.data },
        { notes with keychainIdsToDelete :=
          notes.keychainIdsToDelete ++ collectConnectionKeychainIds conn }) := by
  have hsub : ∀ c ∈ (removeConnectionWithoutTombstone conn.id s.data).connections,
      c ∈ s.data.connections ∧ c.id ≠ conn.id := fun c hc => mem_removed h.owned.live hc
  have hold := h.later rec
  have howners := owners_removed
    (⟨h.owned, fun K _ hkey => h.keychain K hkey, fun _ hK => absurd hK List.not_mem_nil⟩ :
      OwnersOk keys s) hconn
  refine ⟨howners.owned, h.keychain, h.pending, fun K hK href => ?_,
    fun c hc => hold.traced c (hsub c hc).1, fun K hK => ?_,
    fun c hc => hold.untouched c (hsub c hc).1⟩
  · rcases List.mem_append.mp hK with hK | hK
    · obtain ⟨c, hc, hKc⟩ := mem_referredEntries.mp href
      exact h.stale K hK (mem_referredEntries.mpr ⟨c, (hsub c hc).1, hKc⟩)
    · exact howners.stale K hK href
  · rcases List.mem_append.mp hK with hK | hK
    · exact hold.staleTraced K hK
    · exact h.lost hd hconn hway hK

/-- Before a connection made from a record is added: to its entries, and to what was noted for
    deletion, only the connection it replaces refers. -/
structure Making (d₀ : ConnectionStoreData) (keys : Finset Str)
    (done : List SavedConnectionSyncRecord) (rec : SavedConnectionSyncRecord)
    (next : SavedConnection) (a : Applying) : Prop where
  owned : Owned a.1.data
  keychain : EntriesKept keys a.1
  pending : a.1.data.pendingKeychainCleanup = d₀.pendingKeychainCleanup
  alone : ∀ K ∈ collectConnectionKeychainIds next, ∀ conn ∈ a.1.data.connections,
    conn.id ≠ next.id → K ∉ collectConnectionKeychainIds conn
  kept : ∀ K ∈ collectConnectionKeychainIds next, K ∉ d₀.pendingKeychainCleanup
  nextTraced : ∀ K ∈ collectConnectionKeychainIds next, LostBy d₀ (done ++ [rec]) K
  stale : ∀ K ∈ a.2.keychainIdsToDelete, K ∉ collectConnectionKeychainIds next ∧
    ∀ conn ∈ a.1.data.connections, conn.id ≠ next.id → K ∉ collectConnectionKeychainIds conn
  staleTraced : ∀ K ∈ a.2.keychainIdsToDelete, LostBy d₀ (done ++ [rec]) K
  traced : ∀ conn ∈ a.1.data.connections, ∀ K ∈ collectConnectionKeychainIds conn,
    (∃ conn₀ ∈ d₀.connections, K ∈ collectConnectionKeychainIds conn₀ ∧ conn₀.id = conn.id) ∨
      LostBy d₀ (done ++ [rec]) K
  untouched : ∀ conn ∈ a.1.data.connections, conn.id ∈ (done ++ [rec]).map (·.id) ∨
    ∃ conn₀ ∈ d₀.connections, conn₀.id = conn.id ∧ conn₀.name = conn.name

variable {next : SavedConnection} {options : Option ConnectionOptions} {payload : ConnectionInfo}
  {preserveAuth : Bool} {t : Time}

theorem Making.failed (h : Making d₀ keys done rec next a) : ApplyFailed keys a :=
  ⟨h.owned, h.keychain⟩

theorem Making.rearranged {notes : ApplyNotes} (h : Making d₀ keys done rec next (s, notes))
    (hr : Rearranged s s') :
    Making d₀ keys done rec next (s', notes) where
  owned := hr.owned h.owned
  keychain K hkey := hr.keychain ▸ h.keychain K hkey
  pending := hr.pending.trans h.pending
  alone K hK conn hconn hne := by
    obtain ⟨conn₀, hconn₀, hid, -, hentries⟩ := hr.mem hconn
    exact hentries ▸ h.alone K hK conn₀ hconn₀ (hid ▸ hne)
  kept := h.kept
  nextTraced := h.nextTraced
  stale K hK := by
    refine ⟨(h.stale K hK).1, fun conn hconn hne => ?_⟩
    obtain ⟨conn₀, hconn₀, hid, -, hentries⟩ := hr.mem hconn
    exact hentries ▸ (h.stale K hK).2 conn₀ hconn₀ (hid ▸ hne)
  staleTraced := h.staleTraced
  traced conn hconn K hK := by
    obtain ⟨conn₀, hconn₀, hid, -, hentries⟩ := hr.mem hconn
    exact hid ▸ h.traced conn₀ hconn₀ K (hentries ▸ hK)
  untouched conn hconn := by
    obtain ⟨conn₀, hconn₀, hid, hname, -⟩ := hr.mem hconn
    rw [← hid, ← hname]
    exact h.untouched conn₀ hconn₀

theorem mem_addConnection (h : conn ∈ (addConnection next d).connections) :
    conn = next ∨ (conn ∈ d.connections ∧ conn.id ≠ next.id) := by
  rcases List.mem_append.mp h with h | h
  · obtain ⟨hmem, hne⟩ := List.mem_filter.mp h
    exact .inr ⟨hmem, of_decide_eq_true hne⟩
  · exact .inl (List.mem_singleton.mp h)

theorem Making.add {notes : ApplyNotes} (h : Making d₀ keys done rec next (s, notes))
    (hid : next.id = rec.id) :
    ApplyOwners d₀ keys (done ++ [rec])
      ({ s with data := addConnection next s.data }, notes) := by
  have hlive : (liveIds (addConnection next s.data)).Nodup := by
    have hids : liveIds (addConnection next s.data) =
        (s.data.connections.filter (·.id ≠ next.id)).map (·.id) ++ [next.id] := List.map_append
    rw [hids]
    refine List.nodup_append.mpr ⟨h.owned.live.sublist (List.filter_sublist.map _),
      List.nodup_singleton _, ?_⟩
    rintro a ha b hb rfl
    obtain ⟨conn, hconn, hsame⟩ := List.mem_map.mp ha
    exact of_decide_eq_true (List.mem_filter.mp hconn).2 (hsame.trans (List.mem_singleton.mp hb))
  refine ⟨⟨hlive, fun a ha b hb K hKa hKb => ?_, fun K hK => ?_⟩, h.keychain, h.pending,
    fun K hK href => ?_, fun conn hconn K hK => ?_, h.staleTraced, fun conn hconn => ?_⟩
  · rcases mem_addConnection ha with rfl | ⟨ha', hne⟩ <;>
      rcases mem_addConnection hb with rfl | ⟨hb', hne'⟩
    · rfl
    · exact absurd hKb (h.alone K hKa b hb' hne')
    · exact absurd hKa (h.alone K hKb a ha' hne)
    · exact h.owned.apart a ha' b hb' K hKa hKb
  · obtain ⟨conn, hconn, hKc⟩ := mem_referredEntries.mp hK
    rcases mem_addConnection hconn with rfl | ⟨hconn, -⟩
    · exact h.pending ▸ h.kept K hKc
    · exact h.owned.pending K (mem_referredEntries.mpr ⟨conn, hconn, hKc⟩)
  · obtain ⟨conn, hconn, hKc⟩ := mem_referredEntries.mp href
    rcases mem_addConnection hconn with rfl | ⟨hconn, hne⟩
    · exact (h.stale K hK).1 hKc
    · exact (h.stale K hK).2 conn hconn hne hKc
  · rcases mem_addConnection hconn with rfl | ⟨hconn, -⟩
    · exact .inr (h.nextTraced K hK)
    · exact h.traced conn hconn K hK
  · rcases mem_addConnection hconn with rfl | ⟨hconn, -⟩
    · refine .inl (List.mem_map.mpr ⟨rec, ?_, hid.symm⟩)
      exact List.mem_append_right _ (List.mem_singleton_self rec)
    · exact h.untouched conn hconn

/-! ## 5. The connection of a record -/

theorem savedAuthFromInfo_entries (authType : AuthType)
    (keyPath certPath managedKeyId : Option Str) :
    collectKeychainIdsForAuth (savedAuthFromInfo authType keyPath certPath managedKeyId) = [] := by
  cases authType <;> rfl

theorem Synced.entries {existing : Option SavedConnection}
    (h : Synced payload options t existing preserveAuth next)
    (hK : K ∈ collectConnectionKeychainIds next) :
    (∃ conn, existing = some conn ∧ K ∈ collectConnectionKeychainIds conn) ∨
      K ∈ collectKeychainIdsForUpstreamProxy payload.upstreamProxy := by
  simp only [collectConnectionKeychainIds, collectKeychainIdsForParts, List.mem_append,
    List.mem_flatMap] at hK ⊢
  rw [h.auth, h.proxyChain, h.upstreamProxy] at hK
  rcases hK with hK | ⟨hop, hhop, hK⟩ | hK
  · unfold syncedAuth at hK
    split at hK
    · cases existing with
      | none =>
        rw [show ((none : Option SavedConnection).map (·.auth)).getD
          (savedAuthFromConnectionInfo payload) = savedAuthFromInfo _ _ _ _ from rfl,
          savedAuthFromInfo_entries] at hK
        exact absurd hK List.not_mem_nil
      | some conn => exact .inl ⟨conn, rfl, .inl hK⟩
    · rw [savedAuthFromConnectionInfo, savedAuthFromInfo_entries] at hK
      exact absurd hK List.not_mem_nil
  · obtain ⟨info, -, rfl⟩ := List.mem_map.mp hhop
    simp only [buildSyncedProxyHop] at hK
    split at hK
    · cases existing with
      | none =>
        rw [show ((none : Option SavedConnection).bind _).getD (savedAuthFromProxyHopInfo info) =
          savedAuthFromInfo _ _ _ _ from rfl, savedAuthFromInfo_entries] at hK
        exact absurd hK List.not_mem_nil
      | some conn =>
        rw [Option.bind_some] at hK
        cases hfind : conn.proxyChain.find? fun candidate =>
            candidate.host == info.host && candidate.port == info.port &&
              candidate.username == info.username with
        | none =>
          rw [hfind] at hK
          rw [show ((none : Option SavedProxyHop).map (·.auth)).getD
            (savedAuthFromProxyHopInfo info) = savedAuthFromInfo _ _ _ _ from rfl,
            savedAuthFromInfo_entries] at hK
          exact absurd hK List.not_mem_nil
        | some candidate =>
          rw [hfind] at hK
          exact .inl ⟨conn, rfl, .inr (.inl ⟨candidate, List.mem_of_find?_eq_some hfind, hK⟩)⟩
    · rw [show (none : Option SavedAuth).getD (savedAuthFromProxyHopInfo info) =
        savedAuthFromInfo _ _ _ _ from rfl, savedAuthFromInfo_entries] at hK
      exact absurd hK List.not_mem_nil
  · exact .inr hK

/-- What is left of the data where a connection of the same name gives way, if there is one. -/
structure Remaining (s : ConnectionStore) (rec : SavedConnectionSyncRecord)
    (baseline : Option SavedConnection) (s' : ConnectionStore) : Prop where
  mem : ∀ conn ∈ s'.data.connections, conn ∈ s.data.connections
  live : (liveIds s'.data).Nodup
  pending : s'.data.pendingKeychainCleanup = s.data.pendingKeychainCleanup
  keychain : s'.keychain = s.keychain
  baseline : ∀ conn, baseline = some conn → conn ∈ s.data.connections ∧ GivesWay rec conn ∧
    ∀ other ∈ s'.data.connections, other.id ≠ rec.id → other.id ≠ conn.id

theorem ApplyOwners.making {notes : ApplyNotes} (h : ApplyOwners d₀ keys done (s, notes))
    (hd : Owned d₀) (hrecords : records = done ++ rec :: rest) (hclaims : SnapshotClaims d₀ records)
    (hpayload : rec.live? = some payload) {baseline : Option SavedConnection}
    (hrest : Remaining s rec baseline s')
    (hnext : Synced payload options t baseline preserveAuth next)
    (hnotes : ∀ K ∈ notes'.keychainIdsToDelete, K ∈ notes.keychainIdsToDelete ∨
      ∃ conn, baseline = some conn ∧ K ∈ collectConnectionKeychainIds conn ∧
        K ∉ collectConnectionKeychainIds next) : Making d₀ keys done rec next (s', notes') := by
  have hrec : rec ∈ records := by rw [hrecords]; simp
  have hid : next.id = rec.id := hnext.id.trans (hclaims.own rec hrec payload hpayload)
  have hcarried : ∀ {K}, K ∈ collectKeychainIdsForUpstreamProxy payload.upstreamProxy →
      K ∈ recordEntries rec := by
    intro K hK
    rw [recordEntries, hpayload]
    exact hK
  have hlater := h.later rec
  -- what the connection refers to was the baseline's, or the record carries it
  have hentries : ∀ K ∈ collectConnectionKeychainIds next,
      (∃ conn, baseline = some conn ∧ K ∈ collectConnectionKeychainIds conn) ∨
        K ∈ recordEntries rec :=
    fun K hK => (hnext.entries hK).imp_right hcarried
  -- nobody else that is left refers to what the baseline had
  have hbaseline : ∀ {K conn}, baseline = some conn → K ∈ collectConnectionKeychainIds conn →
      ∀ other ∈ s'.data.connections, other.id ≠ next.id →
        K ∉ collectConnectionKeychainIds other := by
    intro K conn hsome hK other hother hne hKo
    obtain ⟨hconn, -, hapart⟩ := hrest.baseline conn hsome
    exact hapart other hother (hid ▸ hne)
      (h.owned.apart other (hrest.mem other hother) conn hconn K hKo hK)
  refine ⟨owned_fewer h.owned hrest.live (fun conn hconn => ⟨conn, hrest.mem conn hconn, rfl, rfl⟩)
    hrest.pending, fun K hkey => hrest.keychain ▸ h.keychain K hkey, hrest.pending.trans h.pending,
    fun K hK conn hconn hne hKc => ?_, fun K hK => ?_, fun K hK => ?_, fun K hK => ?_,
    fun K hK => ?_, fun conn hconn => hlater.traced conn (hrest.mem conn hconn),
    fun conn hconn => hlater.untouched conn (hrest.mem conn hconn)⟩
  · rcases hentries K hK with ⟨base, hsome, hKb⟩ | hcarry
    · exact hbaseline hsome hKb conn hconn hne hKc
    · exact hne ((h.record_alone hrecords hclaims hcarry (hrest.mem conn hconn) hKc).trans hid.symm)
  · rcases hentries K hK with ⟨base, hsome, hKb⟩ | hcarry
    · have hpending := h.owned.pending K
        (mem_referredEntries.mpr ⟨base, (hrest.baseline base hsome).1, hKb⟩)
      exact h.pending ▸ hpending
    · exact hclaims.kept rec hrec K hcarry
  · rcases hentries K hK with ⟨base, hsome, hKb⟩ | hcarry
    · obtain ⟨hbase, hway, -⟩ := hrest.baseline base hsome
      exact h.lost hd hbase hway hKb
    · exact .inr ⟨rec, List.mem_append_right _ (List.mem_singleton_self rec), hcarry⟩
  · rcases hnotes K hK with hold | ⟨base, hsome, hKb, hKn⟩
    · refine ⟨fun hKn => ?_, fun conn hconn _ hKc =>
        h.stale K hold (mem_referredEntries.mpr ⟨conn, hrest.mem conn hconn, hKc⟩)⟩
      rcases hentries K hKn with ⟨base, hsome, hKb⟩ | hcarry
      · exact h.stale K hold
          (mem_referredEntries.mpr ⟨base, (hrest.baseline base hsome).1, hKb⟩)
      · exact not_lostBy hrecords hclaims hcarry (h.staleTraced K hold)
    · exact ⟨hKn, hbaseline hsome hKb⟩
  · rcases hnotes K hK with hold | ⟨base, hsome, hKb, -⟩
    · exact hlater.staleTraced K hold
    · obtain ⟨hbase, hway, -⟩ := hrest.baseline base hsome
      exact h.lost hd hbase hway hKb

/-! ## 6. One record -/

variable (io)

theorem applyOwners_inApply {α : Type} {act : StoreM α} (h : Keeps Rearranged act) :
    (inApply act).Ensures (ApplyOwners d₀ keys done) (fun _ => ApplyOwners d₀ keys done)
      (ApplyFailed keys) := by
  refine Ensures.onFst fun notes => ?_
  exact (h.ensures (P := fun s => ApplyOwners d₀ keys done (s, notes))
    fun hr hs => hs.rearranged hr).weaken (fun _ h => h) (fun _ _ h => h) fun _ h => h.failed

theorem applyOwners_record {f : ApplyNotes → ApplyNotes}
    (hf : ∀ n, (f n).keychainIdsToDelete = n.keychainIdsToDelete) :
    (record f).Ensures (ApplyOwners d₀ keys done) (fun _ => ApplyOwners d₀ keys done)
      (ApplyFailed keys) :=
  Ensures.modify fun a ha => ha.notes (hf a.2)

theorem applyOwners_later (rec : SavedConnectionSyncRecord) {act : Action Applying StoreError Unit}
    (h : act.Ensures (ApplyOwners d₀ keys done) (fun _ => ApplyOwners d₀ keys done)
      (ApplyFailed keys)) :
    act.Ensures (ApplyOwners d₀ keys done) (fun _ => ApplyOwners d₀ keys (done ++ [rec]))
      (ApplyFailed keys) :=
  h.weaken (fun _ h => h) (fun _ _ h => h.later rec) fun _ h => h

/-- What was taken out for a deletion, and is about to be noted. -/
def TakenOut (d₀ : ConnectionStoreData) (keys : Finset Str) (done : List SavedConnectionSyncRecord)
    (rec : SavedConnectionSyncRecord) (removed : Option SavedConnection) (a : Applying) : Prop :=
  match removed with
  | none => ApplyOwners d₀ keys done a
  | some conn => ApplyOwners d₀ keys (done ++ [rec])
      (a.1, { a.2 with keychainIdsToDelete :=
        a.2.keychainIdsToDelete ++ collectConnectionKeychainIds conn })

theorem takenOut_removeConnection (hd : Owned d₀) (deletedAt : Time) :
    (inApply (removeConnectionWithTombstoneAt io rec.id deletedAt)).Ensures
      (ApplyOwners d₀ keys done) (TakenOut d₀ keys done rec) (ApplyFailed keys) := by
  refine Ensures.onFst fun notes => ?_
  refine Ensures.getThe_bind fun s hs => ?_
  split
  · rintro _ rfl
    exact hs
  · next conn hget =>
      obtain ⟨hconn, hid⟩ := get_some hget
      have hway : GivesWay rec conn := .inl hid
      refine Ensures.bind
        (M := fun _ s' => TakenOut d₀ keys done rec (some conn) (s', notes)) ?_ fun _ => ?_
      · rintro _ rfl
        rw [← hid]
        exact hs.remove hd hconn hway
      refine Ensures.bind
        (M := fun _ s' => TakenOut d₀ keys done rec (some conn) (s', notes)) ?_ fun _ => ?_
      · refine ((rearranged_upsertConnectionTombstone io conn.id deletedAt).ensures
          (P := fun s' => TakenOut d₀ keys done rec (some conn) (s', notes))
          fun hr hs' => ?_).weaken (fun _ h => h) (fun _ _ h => h) fun _ h => ⟨h.owned, h.keychain⟩
        exact ApplyOwners.rearranged hs' hr
      · exact Ensures.pure fun _ h => h

theorem applyOwners_applyDeletion (hd : Owned d₀) (before : BeforeSnapshot)
    (recordUpdatedAt : Time) :
    (applyDeletion io before rec.id recordUpdatedAt).Ensures (ApplyOwners d₀ keys done)
      (fun _ => ApplyOwners d₀ keys (done ++ [rec])) (ApplyFailed keys) := by
  unfold applyDeletion
  split
  · exact applyOwners_later rec (applyOwners_record fun _ => rfl)
  · refine Ensures.bind (takenOut_removeConnection io hd recordUpdatedAt) fun removed => ?_
    cases removed with
    | some conn => exact Ensures.modify fun a ha => ApplyOwners.notes ha rfl
    | none =>
      refine Ensures.bind (M := fun _ => ApplyOwners d₀ keys done)
        (applyOwners_inApply (rearranged_upsertConnectionTombstone io _ _)) fun changed => ?_
      split <;> (refine applyOwners_later rec (applyOwners_record ?_); exact fun _ => rfl)

theorem existingByName_some {id : Str} (h : existingByName s id payload = some conn) :
    s.get id = none ∧ conn ∈ s.data.connections ∧ conn.name = payload.name := by
  unfold existingByName at h
  cases hget : s.get id with
  | some _ =>
    rw [hget] at h
    cases h
  | none =>
    rw [hget] at h
    have hname := List.find?_some h
    simp only [Bool.and_eq_true, beq_iff_eq] at hname
    exact ⟨rfl, List.mem_of_find?_eq_some h, hname.1⟩

theorem remaining_same (h : ApplyOwners d₀ keys done a) :
    Remaining a.1 rec (a.1.get rec.id) a.1 := by
  refine ⟨fun _ h => h, h.owned.live, rfl, rfl, fun conn hsome => ?_⟩
  obtain ⟨hconn, hid⟩ := get_some hsome
  exact ⟨hconn, .inl hid, fun other _ hne => hid ▸ hne⟩

theorem remaining_removed (h : ApplyOwners d₀ keys done a) (hpayload : rec.live? = some payload)
    (hconn : conn ∈ a.1.data.connections) (hname : conn.name = payload.name) :
    Remaining a.1 rec (some conn)
      { a.1 with data := removeConnectionWithoutTombstone conn.id a.1.data } := by
  have hids : liveIds (removeConnectionWithoutTombstone conn.id a.1.data) =
      (liveIds a.1.data).erase conn.id := eraseP_ids a.1.data.connections
  refine ⟨fun other hother => (mem_removed h.owned.live hother).1, hids ▸ h.owned.live.erase _,
    rfl, rfl, ?_⟩
  intro conn' hsome
  obtain rfl := Option.some.inj hsome
  refine ⟨hconn, .inr (by rw [hpayload, Option.map_some, hname]), fun other hother _ => ?_⟩
  exact (mem_removed h.owned.live hother).2

/-- The store after a connection of the same name has given way, nothing noted yet. -/
def GaveWay (a : Applying) (rec : SavedConnectionSyncRecord) (baseline : Option SavedConnection)
    (b : Applying) : Prop :=
  Remaining a.1 rec baseline b.1 ∧ b.2.keychainIdsToDelete = a.2.keychainIdsToDelete

variable {baseline : Option SavedConnection}

theorem GaveWay.failed {b : Applying} (h : GaveWay a rec baseline b)
    (ha : ApplyOwners d₀ keys done a) : ApplyFailed keys b := by
  refine ⟨owned_fewer ha.owned h.1.live (fun conn hconn => ⟨conn, h.1.mem conn hconn, rfl, rfl⟩)
    h.1.pending, fun K hkey => ?_⟩
  rw [h.1.keychain]
  exact ha.keychain K hkey

theorem gaveWay_removeSameName (ha : ApplyOwners d₀ keys done a)
    (hpayload : rec.live? = some payload) :
    (removeSameName (existingByName a.1 rec.id payload)).Ensures (· = a)
      (fun _ => GaveWay a rec ((a.1.get rec.id).or (existingByName a.1 rec.id payload)))
      (ApplyFailed keys) := by
  cases hname : existingByName a.1 rec.id payload with
  | none =>
    rw [Option.or_none]
    rintro _ rfl
    exact ⟨remaining_same ha, rfl⟩
  | some conn =>
    obtain ⟨hget, hconn, hsame⟩ := existingByName_some hname
    rw [hget, Option.none_or]
    refine Ensures.bind (M := fun _ => GaveWay a rec (some conn)) ?_ fun _ => ?_
    · rintro s rfl
      exact ⟨remaining_removed ha hpayload hconn hsame, rfl⟩
    · exact Ensures.modify fun b hb => hb

theorem making_noteStaleEntries (ha : ApplyOwners d₀ keys done a) (hd : Owned d₀)
    (hrecords : records = done ++ rec :: rest) (hclaims : SnapshotClaims d₀ records)
    (hpayload : rec.live? = some payload)
    (hnext : Synced payload options t baseline preserveAuth next) :
    (noteStaleEntries baseline next).Ensures (GaveWay a rec baseline)
      (fun _ => Making d₀ keys done rec next) (ApplyFailed keys) := by
  have hmaking : ∀ {b : Applying} {notes' : ApplyNotes}, GaveWay a rec baseline b →
      (∀ K ∈ notes'.keychainIdsToDelete, K ∈ a.2.keychainIdsToDelete ∨
        ∃ conn, baseline = some conn ∧ K ∈ collectConnectionKeychainIds conn ∧
          K ∉ collectConnectionKeychainIds next) →
      Making d₀ keys done rec next (b.1, notes') :=
    fun hb hnotes => ApplyOwners.making ha hd hrecords hclaims hpayload hb.1 hnext hnotes
  cases baseline with
  | none =>
    refine Ensures.pure fun b hb => hmaking hb fun K hK => .inl ?_
    rwa [hb.2] at hK
  | some conn =>
    refine Ensures.modify fun b hb => hmaking hb fun K hK => ?_
    rcases List.mem_append.mp hK with hK | hK
    · rw [hb.2] at hK
      exact .inl hK
    · obtain ⟨hold, hnot⟩ := List.mem_filter.mp hK
      exact .inr ⟨conn, rfl, hold, of_decide_eq_true hnot⟩

section

variable (hd : Owned d₀) (hrecords : records = done ++ rec :: rest)
  (hclaims : SnapshotClaims d₀ records)

include hd hrecords hclaims

theorem applyOwners_applyConnection (hpayload : rec.live? = some payload)
    (strategy : SavedConnectionsConflictStrategy) (options : Option ConnectionOptions)
    (recordUpdatedAt : Time) :
    (applyConnection io strategy rec.id payload options recordUpdatedAt).Ensures
      (ApplyOwners d₀ keys done) (fun _ => ApplyOwners d₀ keys (done ++ [rec]))
      (ApplyFailed keys) := by
  intro a ha
  have hrec : rec ∈ records := by rw [hrecords]; simp
  have hround : (applyConnection io strategy rec.id payload options recordUpdatedAt).Ensures (· = a)
      (fun _ => ApplyOwners d₀ keys (done ++ [rec])) (ApplyFailed keys) := by
    refine Ensures.bind (M := fun s b => b = a ∧ s = a.1) ?_ fun s =>
      Ensures.assuming ?_
    · rintro _ rfl
      exact ⟨rfl, rfl⟩
    rintro rfl
    dsimp only
    split
    · refine (applyOwners_later rec (applyOwners_record ?_)).weaken ?_ (fun _ _ h => h) fun _ h => h
      · exact fun _ => rfl
      · rintro _ rfl
        exact ha
    · refine Ensures.bind (gaveWay_removeSameName ha hpayload) fun _ => ?_
      refine Ensures.lift_bind (fun b hb => hb.failed ha) fun next hnext => ?_
      have hsynced := synced_of_ok hnext
      have hid : next.id = rec.id := hsynced.id.trans (hclaims.own rec hrec payload hpayload)
      refine Ensures.bind
        (making_noteStaleEntries ha hd hrecords hclaims hpayload hsynced) fun _ => ?_
      refine Ensures.bind (M := fun _ => Making d₀ keys done rec next) ?_ fun _ => ?_
      · refine Ensures.onFst fun notes => ?_
        exact ((tidying_ensureOptionalGroup io next.group).ensures
          (P := fun s => Making d₀ keys done rec next (s, notes))
          fun ht hs => hs.rearranged (.of_tidies ht)).weaken (fun _ h => h) (fun _ _ h => h)
            fun _ h => h.failed
      refine Ensures.bind (M := fun _ => ApplyOwners d₀ keys (done ++ [rec])) ?_ fun _ => ?_
      · exact Ensures.onFst fun notes => Ensures.modify fun s hs => hs.add hid
      · exact Ensures.modify fun b hb => ApplyOwners.notes hb rfl
  exact hround a rfl

theorem applyOwners_applyRecord (strategy : SavedConnectionsConflictStrategy)
    (before : BeforeSnapshot) :
    (applyRecord io strategy before rec).Ensures (ApplyOwners d₀ keys done)
      (fun _ => ApplyOwners d₀ keys (done ++ [rec])) (ApplyFailed keys) := by
  have hskip : skipConflict.Ensures (ApplyOwners d₀ keys done)
      (fun _ => ApplyOwners d₀ keys (done ++ [rec])) (ApplyFailed keys) :=
    applyOwners_later rec (applyOwners_record fun _ => rfl)
  refine Ensures.lift_bind (fun _ hs => hs.failed) fun recordUpdatedAt _ => ?_
  split
  · exact applyOwners_applyDeletion io hd before recordUpdatedAt
  · next hlive =>
      split
      · exact hskip
      · next payload hpayload =>
          have hsome : rec.live? = some payload := by
            unfold SavedConnectionSyncRecord.live?
            rw [if_neg hlive, hpayload]
          split
          · exact hskip
          · exact applyOwners_applyConnection io hd hrecords hclaims hsome strategy rec.options
              recordUpdatedAt

end

/-! ## 7. The apply -/

theorem applyOwners_applyRecords (hd : Owned d₀) (hclaims : SnapshotClaims d₀ records)
    (strategy : SavedConnectionsConflictStrategy) :
    (applyRecords io strategy records).Ensures (ApplyOwners d₀ keys [])
      (fun _ => ApplyOwners d₀ keys records) (ApplyFailed keys) := by
  refine Ensures.bind (applyOwners_inApply
    (Keeps.getThe fun _ => ⟨.refl _, rfl, rfl⟩)) fun s => ?_
  refine Ensures.bind (applyOwners_inApply
    ((tidying_clock io).weaken Rearranged.of_tidies)) fun now => ?_
  refine Ensures.bind (M := fun _ => ApplyOwners d₀ keys records) ?_ fun _ => ?_
  · exact Ensures.each_done fun done rec rest hrecords =>
      applyOwners_applyRecord io hd hrecords hclaims strategy _
  refine Ensures.bind (applyOwners_inApply
    ((tidying_normalize io).weaken Rearranged.of_tidies)) fun _ => ?_
  refine Ensures.bind (M := fun _ => ApplyOwners d₀ keys records) (fun _ hs => hs)
    fun ⟨_, notes⟩ => ?_
  dsimp only
  by_cases happlied : 0 < notes.applied
  · rw [if_pos happlied]
    exact applyOwners_inApply ((tidying_save io).weaken Rearranged.of_tidies)
  · rw [if_neg happlied]
    exact Ensures.pure fun _ hs => hs

/-- A failed apply has owners all the same, whether the checkpoint could be put back or not. -/
theorem ownersOk_restoreCheckpoint {checkpoint : ConnectionStoreCheckpoint}
    (hcheckpoint : Owned checkpoint.originalData) :
    (restoreCheckpoint io checkpoint).Ensures (fun s => Owned s.data ∧ EntriesKept keys s)
      (fun _ => OwnersOk keys) (OwnersOk keys) := by
  have hdone : ∀ {s : ConnectionStore}, Owned s.data → EntriesKept keys s → OwnersOk keys s :=
    fun howned hkept => ⟨howned, fun K _ hkey => hkept K hkey, fun _ hK => absurd hK List.not_mem_nil⟩
  have hmodify : (modifyData fun _ => checkpoint.originalData).Ensures
      (fun s => Owned s.data ∧ EntriesKept keys s) (fun _ => OwnersOk keys) (OwnersOk keys) :=
    Ensures.modify fun s hs => hdone hcheckpoint hs.2
  refine Ensures.bind (M := fun _ s => Owned s.data ∧ EntriesKept keys s)
    (fun _ hs => hs) fun s => ?_
  split
  · refine Ensures.bind (M := fun _ s => Owned s.data ∧ EntriesKept keys s) ?_
      fun _ => hmodify
    exact ensures_outside io (fun s hs => hs) fun s hs => hdone hs.1 hs.2
  · exact hmodify

variable {snapshot : SavedConnectionsSyncSnapshot}

theorem ownersOk_prepareSnapshot (hd : Owned d₀) (hclaims : SnapshotClaims d₀ snapshot.records)
    (strategy : SavedConnectionsConflictStrategy) :
    (prepareSavedConnectionsSnapshot io snapshot strategy).Ensures
      (fun s => s.data = d₀ ∧ EntriesKept keys s)
      (fun prepared => Owners keys prepared.pendingKeychainIds) (OwnersOk keys) := by
  have herror : ∀ s : ConnectionStore, s.data = d₀ ∧ EntriesKept keys s → OwnersOk keys s := by
    rintro s ⟨rfl, hkept⟩
    exact ⟨hd, fun K _ hkey => hkept K hkey, fun _ hK => absurd hK List.not_mem_nil⟩
  refine Ensures.bind (M := fun checkpoint s => (s.data = d₀ ∧ EntriesKept keys s) ∧
    checkpoint.originalData = d₀) ?_ fun checkpoint => Ensures.assuming fun hcheckpoint => ?_
  · refine Ensures.bind (M := fun _ s => s.data = d₀ ∧ EntriesKept keys s) ?_ fun _ => ?_
    · exact ensures_outside io (fun _ hs => hs) fun s hs => herror _ hs
    · exact Ensures.getThe_bind fun s hs => Ensures.pure fun s' heq =>
        ⟨heq ▸ hs, hs.1⟩
  refine Ensures.getThe_bind fun s hs => ?_
  have hstart : ApplyOwners d₀ keys [] (s, {}) := by
    obtain ⟨rfl, hkept⟩ := hs
    exact ⟨hd, hkept, rfl, fun _ hK => absurd hK List.not_mem_nil,
      fun conn hconn K hK => .inl ⟨conn, hconn, hK, rfl⟩, fun _ hK => absurd hK List.not_mem_nil,
      fun conn hconn => .inr ⟨conn, hconn, rfl, rfl⟩⟩
  have happly : (applyRecords io strategy snapshot.records).Ensures (ApplyOwners d₀ keys [])
      (fun _ => ApplyOwners d₀ keys snapshot.records) (ApplyFailed keys) :=
    applyOwners_applyRecords io hd hclaims strategy
  split
  · next e s' notes hrun =>
      have hfailed : ApplyFailed keys (s', notes) := happly.error hstart hrun
      refine Ensures.bind (M := fun _ s => Owned s.data ∧ EntriesKept keys s)
        (fun _ _ => hfailed) fun _ => ?_
      refine Ensures.bind (ownersOk_restoreCheckpoint io (hcheckpoint ▸ hd)) fun _ => ?_
      exact Ensures.throw fun _ hs' => hs'
  · next s' notes hrun =>
      have hdone : ApplyOwners d₀ keys snapshot.records (s', notes) := happly.ok hstart hrun
      refine Ensures.bind (M := fun _ => Owners keys notes.keychainIdsToDelete.dedup)
        (fun _ _ => ?_) fun _ => Ensures.pure fun _ hs' => hs'
      exact ⟨hdone.owned, fun K _ hkey => hdone.keychain K hkey,
        fun K hK => hdone.stale K (List.mem_dedup.mp hK)⟩

/-- Entries that are nobody's are deleted; what could not be deleted is among them. -/
theorem keepsOwners_deletePending {stale ids : List Str} {delete : Str → StoreM Unit}
    (h : ∀ K ∈ ids, KeepsOwners keys stale (delete K)) :
    (deletePending ids delete).Ensures (Owners keys stale)
      (fun failed s => Owners keys stale s ∧ ∀ K ∈ failed, K ∈ ids) (Owners keys stale) := by
  refine Ensures.bind (M := fun (outcomes : List (Str × Bool)) s =>
    Owners keys stale s ∧ ∀ o ∈ outcomes, o.1 ∈ ids) ?_ fun outcomes => ?_
  · refine Ensures.weaken (P := fun s => Owners keys stale s ∧
      ∀ o ∈ ([] : List (Str × Bool)), o.1 ∈ ids) ?_
      (fun s hs => ⟨hs, fun _ ho => absurd ho List.not_mem_nil⟩) (fun _ _ h => h) fun _ h => h
    refine Ensures.each_results (I := fun (outcomes : List (Str × Bool)) s =>
      Owners keys stale s ∧ ∀ o ∈ outcomes, o.1 ∈ ids) (fun K hK outcomes => ?_) []
    refine Ensures.assuming fun hids => ?_
    refine Ensures.bind (h K hK).attempt fun deleted => ?_
    refine Ensures.pure fun s hs => ⟨hs, fun o ho => ?_⟩
    rcases List.mem_append.mp ho with ho | ho
    · exact hids o ho
    · rw [List.mem_singleton.mp ho]
      exact hK
  · refine Ensures.pure fun s hs => ⟨hs.1, fun K hK => ?_⟩
    obtain ⟨o, ho, rfl⟩ := List.mem_map.mp hK
    exact hs.2 o (List.mem_filter.mp ho).1

theorem keepsOwners_finalizeCleanup (pending pendingPrivilege : List Str) :
    KeepsOwners keys pending
      (finalizeSavedConnectionsSyncCleanup io pending pendingPrivilege) := by
  refine Ensures.getThe_bind fun s hs => ?_
  have hstale : ∀ K ∈ pending ++ s.data.pendingKeychainCleanup, K ∉ referredEntries s.data := by
    intro K hK href
    rcases List.mem_append.mp hK with hK | hK
    · exact hs.stale K hK href
    · exact hs.owned.pending K href hK
  have hforget : ∀ s', Owners keys (pending ++ s.data.pendingKeychainCleanup) s' →
      Owners keys pending s' :=
    fun s' hs' => ⟨hs'.owned, hs'.safe, fun K hK => hs'.stale K (List.mem_append_left _ hK)⟩
  refine Ensures.weaken (P := Owners keys (pending ++ s.data.pendingKeychainCleanup))
    (Q := fun _ => Owners keys (pending ++ s.data.pendingKeychainCleanup)) ?_ ?_
    (fun _ => hforget) hforget
  · refine Ensures.bind (keepsOwners_deletePending fun K hK =>
      keepsOwners_keychainDelete io (List.mem_dedup.mp hK)) fun failed =>
        Ensures.assuming fun hfailed => ?_
    refine Ensures.bind ((keepsOwners_deletePending fun K _ =>
      (preparing_privilegeKeychainDelete io K).keepsOwners).weaken (fun _ h => h)
        (fun _ _ h => h.1) fun _ h => h) fun failedPrivilege => ?_
    refine Ensures.bind
      (M := fun _ => Owners keys (pending ++ s.data.pendingKeychainCleanup)) ?_ fun _ => ?_
    · refine Ensures.modify fun s' hs' => ?_
      refine ⟨⟨hs'.owned.live, hs'.owned.apart, fun K href hK => ?_⟩, hs'.safe, hs'.stale⟩
      exact hs'.stale K (List.mem_dedup.mp (hfailed K hK)) href
    · exact (tidying_save io).keepsOwners.bind fun _ => keepsOwners_pure _
  · rintro s' rfl
    exact ⟨hs.owned, hs.safe, hstale⟩

theorem ownersOk_applySnapshot (hd : Owned d₀) (hclaims : SnapshotClaims d₀ snapshot.records)
    (strategy : SavedConnectionsConflictStrategy) :
    (applySavedConnectionsSnapshot io snapshot strategy).Ensures
      (fun s => s.data = d₀ ∧ EntriesKept keys s) (fun _ => OwnersOk keys) (OwnersOk keys) := by
  refine Ensures.bind (ownersOk_prepareSnapshot io hd hclaims strategy) fun prepared => ?_
  refine KeepsOwners.done (KeepsOwners.bind (Ensures.attempt ?_) fun _ => keepsOwners_pure _)
  exact keepsOwners_finalizeCleanup io _ _

end Hapcli.Connections
