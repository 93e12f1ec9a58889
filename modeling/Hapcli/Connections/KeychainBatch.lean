/-
  Subject:   Which saved connection an entry of the keychain belongs to, over an import of many.

  * `Traced`, `BatchOwners`, **`batchOwners_importConnection`** -- where every entry is from, and the
    owners inside a batch;
  * **`ownersOk_importTransaction`** -- the transaction.
-/
import Hapcli.Connections.KeychainOwners

namespace Hapcli.Connections

open Hapcli.Lib Hapcli.Rust ConnectionStore
open Lib.Action (Ensures Keeps)

/-! ## 1. What a batch may take over -/

/-- Two records for one connection. -/
def SameImport (r r' : SavedConnection) : Prop :=
  importOwner r ≠ none ∧ importOwner r = importOwner r'

/-- What the records of a batch take over is nobody else's, and no two take the same; a record for a
    connection of an earlier one carries no entry. -/
structure BatchClaims (d : ConnectionStoreData) (records : List SavedConnection) : Prop where
  claims : ∀ r ∈ records, ∀ K ∈ importEntries d r, ClaimableBy d (importOwner r) K
  repeated : records.Pairwise fun r r' => SameImport r r' → carriedEntries r' = []
  apart : records.Pairwise fun r r' =>
    ¬ SameImport r r' → ∀ K ∈ importEntries d r, K ∉ importEntries d r'

/-- The texts of a batch that a UUID could meet. -/
def batchTexts (records : List SavedConnection) : List Str :=
  records.flatMap fun r => r.id :: carriedEntries r

variable {io : Io} {d d₀ d' : ConnectionStoreData} {keys : Finset Str} {first : Nat}

/-- A record is for a connection: by its id, or by a UUID made for it. -/
def OwnedBy (io : Io) (first last : Nat) (r : SavedConnection) (owner : Str) : Prop :=
  importOwner r = some owner ∨ importOwner r = none ∧ NewSince io first last owner

/-- Where an entry of a connection is from: it had it before, a record took it over, or it is new. -/
def Traced (io : Io) (d₀ : ConnectionStoreData) (first last : Nat) (done : List SavedConnection)
    (owner K : Str) : Prop :=
  (∃ conn ∈ d₀.connections, conn.id = owner ∧ K ∈ collectConnectionKeychainIds conn) ∨
    (∃ r ∈ done, OwnedBy io first last r owner ∧ K ∈ importEntries d₀ r) ∨
      NewSince io first last K

variable {K id owner : Str} {connection : SavedConnection} {last : Nat}

variable {conn r' : SavedConnection} {last' middle : Nat}

theorem OwnedBy.later {r : SavedConnection} (hle : last ≤ last')
    (h : OwnedBy io first last r owner) : OwnedBy io first last' r owner :=
  h.imp_right fun h => ⟨h.1, h.2.widen le_rfl hle⟩

theorem Traced.later {done : List SavedConnection} (hle : last ≤ last')
    (h : Traced io d₀ first last done owner K) (r : SavedConnection) :
    Traced io d₀ first last' (done ++ [r]) owner K := by
  rcases h with h | ⟨r', hr', howner, hK⟩ | h
  · exact .inl h
  · exact .inr (.inl ⟨r', List.mem_append_left _ hr', howner.later hle, hK⟩)
  · exact .inr (.inr (h.widen le_rfl hle))

theorem known_importEntries {records : List SavedConnection} {r : SavedConnection}
    (hr : r ∈ records) (hK : K ∈ importEntries d₀ r) : K ∈ knownTexts d₀ ++ batchTexts records := by
  rcases keptEntries_cases hK with ⟨conn, hconn, hKc⟩ | hK
  · obtain ⟨id, -, hfind⟩ := Option.bind_eq_some_iff.mp hconn
    refine List.mem_append_left _ (List.mem_append_left _ ?_)
    exact mem_referredEntries.mpr ⟨conn, List.mem_of_find?_eq_some hfind, hKc⟩
  · exact List.mem_append_right _ (List.mem_flatMap.mpr ⟨r, hr, List.mem_cons_of_mem _ hK⟩)

theorem not_traced_new {records done : List SavedConnection} (hdone : ∀ r ∈ done, r ∈ records)
    (hfresh : FreshUuids io (knownTexts d₀ ++ batchTexts records)) (hK : NewSince io middle last K) :
    ¬ Traced io d₀ first middle done owner K := by
  rintro (⟨conn, hconn, -, hKc⟩ | ⟨r, hr, -, hKr⟩ | hnew)
  · refine hK.not_known hfresh (List.mem_append_left _ (List.mem_append_left _ ?_))
    exact mem_referredEntries.mpr ⟨conn, hconn, hKc⟩
  · exact hK.not_known hfresh (known_importEntries (hdone r hr) hKr)
  · exact hnew.later hfresh hK

section

variable (hrecords : records = done ++ r :: rest) (hclaims : BatchClaims d₀ records)

include hrecords hclaims

theorem owner_of_traced (hfresh : FreshUuids io (knownTexts d₀ ++ batchTexts records))
    (hK : K ∈ importEntries d₀ r)
    (h : Traced io d₀ first last done owner K) (hnone : ∀ r' ∈ done, ¬ SameImport r' r) :
    importOwner r = some owner := by
  have hr : r ∈ records := by rw [hrecords]; simp
  rcases h with ⟨conn, hconn, rfl, hKc⟩ | ⟨r', hr', -, hKr'⟩ | hnew
  · exact (hclaims.claims r hr K hK).alone conn hconn hKc
  · have hpair := hclaims.apart
    rw [hrecords] at hpair
    have hapart := (List.pairwise_append.mp hpair).2.2 r' hr' r List.mem_cons_self
    exact absurd hK (hapart (hnone r' hr') K hKr')
  · exact absurd (known_importEntries hr hK) (hnew.not_known hfresh)

theorem carried_of_repeated (hr' : r' ∈ done)
    (hsame : SameImport r' r) : carriedEntries r = [] := by
  have hpair := hclaims.repeated
  rw [hrecords] at hpair
  exact (List.pairwise_append.mp hpair).2.2 r' hr' r List.mem_cons_self hsame

end

/-! ## 2. One record -/

/-- The connection of an id, in its kept form. -/
def keptConnection (d : ConnectionStoreData) (id : Str) : Option SavedConnection :=
  (d.connections.find? (·.id == id)).map movePostConnectCommand

theorem find_of_mem {l : List SavedConnection} (h : (l.map (·.id)).Nodup) (hconn : conn ∈ l) :
    l.find? (·.id == conn.id) = some conn := by
  cases hfind : l.find? (·.id == conn.id) with
  | none => exact absurd (List.find?_eq_none.mp hfind conn hconn) (by simp)
  | some other =>
    have hid : other.id = conn.id := by simpa using List.find?_some hfind
    rw [eq_of_live h (List.mem_of_find?_eq_some hfind) hconn hid]

theorem keptConnection_congr (hd : (liveIds d).Nodup)
    (hfrom : ∀ conn' ∈ d'.connections, conn'.id = id → ∃ conn ∈ d.connections,
      movePostConnectCommand conn = movePostConnectCommand conn')
    (hkeep : id ∈ liveIds d → id ∈ liveIds d') : keptConnection d' id = keptConnection d id := by
  unfold keptConnection
  cases hfind' : d'.connections.find? (·.id == id) with
  | none =>
    have hgone : d.connections.find? (·.id == id) = none := by
      refine List.find?_eq_none.mpr fun conn hconn heq => ?_
      obtain ⟨conn', hconn', hid'⟩ :=
        List.mem_map.mp (hkeep (beq_iff_eq.mp heq ▸ List.mem_map_of_mem hconn))
      exact List.find?_eq_none.mp hfind' conn' hconn' (beq_iff_eq.mpr hid')
    rw [hgone]
  | some conn' =>
    have hid' : conn'.id = id := by simpa using List.find?_some hfind'
    obtain ⟨conn, hconn, heq⟩ := hfrom conn' (List.mem_of_find?_eq_some hfind') hid'
    have hfind := find_of_mem hd hconn
    rw [(entries_of_moved heq).1, hid'] at hfind
    rw [hfind, Option.map_some, Option.map_some, heq]

theorem keptConnection_tidied (hd : (liveIds d).Nodup) (h : Tidied d d') (id : Str) :
    keptConnection d' id = keptConnection d id :=
  keptConnection_congr hd (fun _ hconn' _ => mem_tidied h hconn') (liveIds_tidied h).mem_iff.mpr

theorem keptConnection_put (hd : (liveIds d).Nodup) (hne : id ≠ connection.id) :
    keptConnection { d with connections := putConnection d.connections connection } id =
      keptConnection d id := by
  refine keptConnection_congr hd (fun conn' hconn' hid => ?_) fun hlive => ?_
  · rcases mem_putConnection hd hconn' with rfl | ⟨hconn, -⟩
    · exact absurd hid.symm hne
    · exact ⟨conn', hconn, rfl⟩
  · show id ∈ (putConnection d.connections connection).map (·.id)
    rw [putConnection_ids]
    split
    · exact hlive
    · exact List.mem_append_left _ hlive

theorem keptEntries_moved {auth : SavedAuth} {proxyChain : List SavedProxyHop}
    {upstreamProxy : SavedUpstreamProxyPolicy} {existing existing' : Option SavedConnection}
    (h : existing.map movePostConnectCommand = existing'.map movePostConnectCommand) :
    keptEntries auth proxyChain upstreamProxy existing =
      keptEntries auth proxyChain upstreamProxy existing' := by
  have hauth := congrArg (Option.map SavedConnection.auth) h
  have hupstream := congrArg (Option.map SavedConnection.upstreamProxy) h
  rw [Option.map_map, Option.map_map] at hauth hupstream
  unfold keptEntries
  rw [show existing.map (·.auth) = existing'.map (·.auth) from hauth,
    show existing.map (·.upstreamProxy) = existing'.map (·.upstreamProxy) from hupstream]

/-- The entries of the beginning are there. -/
abbrev EntriesKept (keys : Finset Str) (s : ConnectionStore) : Prop :=
  ∀ K ∈ keys, K ∈ s.keychain.keySet

/-- What is known once a record is staged. -/
structure Staged (io : Io) (keys : Finset Str) (d : ConnectionStoreData) (first : Nat)
    (r : SavedConnection) (staged : StagedImportedConnection) (s : ConnectionStore) : Prop where
  owner : OwnedBy io first s.calls r staged.id
  put : ∃ connection : SavedConnection, connection.id = staged.id ∧
    Tidied { d with connections := putConnection d.connections connection } s.data ∧
    EntriesFrom io first
      (keptEntries r.auth r.proxyChain r.upstreamProxy (d.connections.find? (·.id == staged.id)))
      (collectConnectionKeychainIds connection) s.calls ∧
    staged.staleOldKeychainIds =
      (entriesOf d staged.id).filter (· ∉ collectConnectionKeychainIds connection) ∧
    staged.touchedKeychainIds = collectConnectionKeychainIds connection ∧
    ∀ credential ∈ connection.privilegeCredentials, credential.plaintextSecret = none
  keychain : EntriesKept keys s
  calls : first ≤ s.calls

variable {s : ConnectionStore}

theorem Staged.tidied {r : SavedConnection} {staged : StagedImportedConnection}
    {s' : ConnectionStore} (h : Staged io keys d first r staged s) (ht : Tidies s s') :
    Staged io keys d first r staged s' where
  owner := h.owner.later ht.calls
  put := by
    obtain ⟨connection, hid, hput, hfrom, hrest⟩ := h.put
    exact ⟨connection, hid, hput.trans ht.data,
      lasting_entriesFrom io first _ _ _ _ ht.calls hfrom, hrest⟩
  keychain K hkey := ht.keychain ▸ h.keychain K hkey
  calls := h.calls.trans ht.calls

variable (io)

theorem lasting_ownedBy (r : SavedConnection) (owner : Str) :
    Lasting fun m => OwnedBy io first m r owner :=
  fun _ _ hle h => h.later hle

theorem ready_importOwner {found : Nat → Prop} (hfound : Lasting found) :
    (importedId io connection).Ensures (Ready d keys first found)
      (fun id => Ready d keys first fun m => found m ∧ OwnedBy io first m connection id)
      (Ready d keys first found) := by
  by_cases hblank : (trim connection.id).isEmpty = true
  · have hid : importedId io connection = newUuid io := if_pos hblank
    have howner : importOwner connection = none := if_pos hblank
    rw [hid]
    intro s hs
    have hready := hs.step hfound (preparing_newUuid io s)
    have hnew : NewSince io first (s.calls + 1) (io.uuid s.calls) :=
      ⟨s.calls, [], hs.calls, Nat.lt_succ_self _, rfl⟩
    exact ⟨hready.data, hready.entries, hready.calls, hready.found, .inr ⟨howner, hnew⟩⟩
  · have hid : importedId io connection = pure connection.id := if_neg hblank
    have howner : importOwner connection = some connection.id := if_neg hblank
    rw [hid]
    exact Ensures.pure fun s hs =>
      ⟨hs.data, hs.entries, hs.calls, hs.found, .inl howner⟩

/-- A record that is staged: its connection is put, with what it takes over and what is new. -/
theorem stageImportedConnection_staged :
    (stageImportedConnection io connection).Ensures (Ready d keys first fun _ => True)
      (Staged io keys d first connection) (EntriesKept keys) := by
  have herror : ∀ {found : Nat → Prop} s, Ready d keys first found s → EntriesKept keys s :=
    fun s hs => hs.entries
  have hkept : ∀ {α : Type} {act : StoreM α} {P : ConnectionStore → Prop}
      {M : α → ConnectionStore → Prop} {found : Nat → Prop},
      act.Ensures P M (Ready d keys first found) → act.Ensures P M (EntriesKept keys) :=
    fun h => h.weaken (fun _ h => h) (fun _ _ h => h) fun _ h => h.entries
  refine Ensures.lift_bind herror fun group _ => ?_
  refine Ensures.bind (hkept ((preparing_clock io).ready lasting_true)) fun now => ?_
  refine Ensures.bind (hkept (ready_importOwner io lasting_true)) fun id => ?_
  refine Ensures.getThe_keeps fun s hs => ?_
  obtain rfl := hs.data
  have hlasting : Lasting fun m => True ∧ OwnedBy io first m connection id :=
    lasting_true.and (lasting_ownedBy io connection id)
  have hentries : ((s.get id).map collectConnectionKeychainIds).getD [] = entriesOf s.data id := rfl
  dsimp only
  refine Ensures.lift_bind herror fun name _ => ?_
  refine Ensures.lift_bind herror fun host _ => ?_
  refine Ensures.lift_bind herror fun username _ => ?_
  refine Ensures.bind (hkept ((Preparing.each fun hop _ =>
    preparing_lift (checkProxyHop hop)).ready hlasting)) fun _ => ?_
  refine ready_parts io (s.get id) (fun a => a) (fun c => c) (fun u => u)
    (fun _ _ h => h.entries) hlasting (finds_materializeAuth io _ _).fst
    (finds_materializeProxyChain io _).fst (finds_materializeUpstreamProxyPolicy io _ _).fst
    fun a c u => ?_
  refine Ensures.bind (hkept ((preparing_materializePrivilegeCredentials io _ _).finds
    (V := fun result _ => ∀ credential ∈ result.1, credential.plaintextSecret = none)
    (hlasting.and (lasting_entriesFrom io first _ _))
    fun _ _ _ _ hrun => materializePrivilegeCredentials_ok io hrun)) fun ⟨credentials, touched⟩ => ?_
  let staged : StagedImportedConnection :=
    ⟨id, collectKeychainIdsForParts a c u, touched,
      (entriesOf s.data id).filter (· ∉ collectKeychainIdsForParts a c u)⟩
  refine Ensures.bind (M := fun _ => Staged io keys s.data first connection staged) ?_
    fun _ => ?_
  · refine Ensures.modify fun s' hs' => ?_
    obtain ⟨⟨⟨-, howner⟩, hfrom⟩, hplain⟩ := hs'.found
    have hdata := hs'.data
    refine ⟨howner, ⟨_, ?_, by rw [← hdata]; exact .refl _, ?_, ?_, ?_, ?_⟩, hs'.entries, hs'.calls⟩
    · rfl
    · exact hfrom
    · rfl
    · rfl
    · exact hplain
  refine Ensures.bind (M := fun _ => Staged io keys s.data first connection staged) ?_
    fun _ => Ensures.pure fun _ hs' => hs'
  exact ((tidying_ensureOptionalGroup io group).ensures fun ht hs' => Staged.tidied hs' ht).weaken
    (fun _ h => h) (fun _ _ h => h) fun _ h => h.keychain

/-! ## 3. The records one after the other -/

/-- The connections inside a batch, some records of which are done: those of the beginning, but for
    those a record was for. -/
structure BatchIds (io : Io) (d₀ : ConnectionStoreData) (first : Nat) (done : List SavedConnection)
    (b : Batch) : Prop where
  distinct : (liveIds b.1.data).Nodup
  calls : first ≤ b.1.calls
  untouched : ∀ id, (∀ r ∈ done, ¬ OwnedBy io first b.1.calls r id) →
    keptConnection b.1.data id = keptConnection d₀ id
  live : ∀ id ∈ liveIds b.1.data,
    id ∈ liveIds d₀ ∨ ∃ r ∈ done, OwnedBy io first b.1.calls r id

/-- The owners inside a batch. -/
structure BatchOwners (io : Io) (d₀ : ConnectionStoreData) (keys : Finset Str) (first : Nat)
    (done : List SavedConnection) (b : Batch) : Prop extends BatchIds io d₀ first done b where
  owned : Owned b.1.data
  keychain : EntriesKept keys b.1
  stale : ∀ K ∈ b.2.staleOldKeychainIds, K ∉ referredEntries b.1.data
  traced : ∀ conn ∈ b.1.data.connections, ∀ K ∈ collectConnectionKeychainIds conn,
    Traced io d₀ first b.1.calls done conn.id K
  staleTraced : ∀ K ∈ b.2.staleOldKeychainIds, ∃ owner,
    (∃ r ∈ done, OwnedBy io first b.1.calls r owner) ∧
      Traced io d₀ first b.1.calls done owner K
  pending : b.1.data.pendingKeychainCleanup = d₀.pendingKeychainCleanup

variable {io} {keys : Finset Str} {records done rest : List SavedConnection} {r : SavedConnection}
  {b : Batch}

variable {touched : Touched}

section Record

variable (hrecords : records = done ++ r :: rest) (hclaims : BatchClaims d₀ records)
  (hfresh : FreshUuids io (knownTexts d₀ ++ batchTexts records))

include hrecords hfresh

theorem sameImport_of_ownedBy (hid : OwnedBy io middle last r id) (hr' : r' ∈ done)
    (hid' : OwnedBy io first middle r' id) : SameImport r' r := by
  have hknown : ∀ {x : SavedConnection} {id : Str}, x ∈ records → importOwner x = some id →
      id ∈ knownTexts d₀ ++ batchTexts records := by
    intro x id hx howner
    refine List.mem_append_right _ (List.mem_flatMap.mpr ⟨x, hx, ?_⟩)
    unfold importOwner at howner
    split at howner
    · cases howner
    · cases howner
      exact List.mem_cons_self
  have hmem : r ∈ records := by rw [hrecords]; simp
  have hmem' : r' ∈ records := by rw [hrecords]; exact List.mem_append_left _ hr'
  rcases hid with hown | ⟨-, hnew⟩ <;> rcases hid' with hown' | ⟨-, hnew'⟩
  · exact ⟨by rw [hown']; simp, hown'.trans hown.symm⟩
  · exact absurd (hknown hmem hown) (hnew'.not_known hfresh)
  · exact absurd (hknown hmem' hown') (hnew.not_known hfresh)
  · exact absurd hnew (hnew'.later hfresh)

theorem BatchIds.not_live (h : BatchIds io d₀ first done b) (howner : importOwner r = none)
    (hnew : NewSince io b.1.calls last id) : id ∉ liveIds b.1.data := by
  intro hlive
  rcases h.live id hlive with hlive | ⟨r', hr', hid'⟩
  · refine hnew.not_known hfresh (List.mem_append_left _ ?_)
    exact List.mem_append_right _ (List.mem_append_right _ hlive)
  · have hsame := sameImport_of_ownedBy hrecords hfresh (.inr ⟨howner, hnew⟩) hr' hid'
    exact hsame.1 (hsame.2.trans howner)

theorem BatchIds.existing_first (h : BatchIds io d₀ first done b)
    (hid : OwnedBy io b.1.calls last r id) (hnone : ∀ r' ∈ done, ¬ SameImport r' r) :
    keptConnection b.1.data id = (existingFor d₀ (importOwner r)).map movePostConnectCommand := by
  have huntouched : keptConnection b.1.data id = keptConnection d₀ id :=
    h.untouched id fun r' hr' hid' =>
      hnone r' hr' (sameImport_of_ownedBy hrecords hfresh hid hr' hid')
  rcases hid with howner | ⟨howner, hnew⟩
  · rw [huntouched, howner]
    rfl
  · rw [howner]
    have hnot := h.not_live hrecords hfresh howner hnew
    have hfind : b.1.data.connections.find? (·.id == id) = none :=
      List.find?_eq_none.mpr fun conn hconn heq =>
        hnot (beq_iff_eq.mp heq ▸ List.mem_map_of_mem hconn)
    rw [keptConnection, hfind]
    rfl

theorem BatchOwners.kept_first (h : BatchOwners io d₀ keys first done b)
    (hid : OwnedBy io b.1.calls last r id) (hnone : ∀ r' ∈ done, ¬ SameImport r' r) :
    keptEntries r.auth r.proxyChain r.upstreamProxy
      (b.1.data.connections.find? (·.id == id)) = importEntries d₀ r :=
  keptEntries_moved (h.existing_first hrecords hfresh hid hnone)

omit hrecords hfresh

theorem BatchIds.mem_staged (h : BatchIds io d₀ first done b) (hput : Tidied { b.1.data with
      connections := putConnection b.1.data.connections connection } d')
    (hconn : conn ∈ d'.connections) :
    movePostConnectCommand conn = movePostConnectCommand connection ∨
      ∃ conn₀ ∈ b.1.data.connections, conn₀.id ≠ connection.id ∧
        movePostConnectCommand conn₀ = movePostConnectCommand conn := by
  obtain ⟨conn', hconn', heq⟩ := mem_tidied hput hconn
  rcases mem_putConnection h.distinct hconn' with rfl | ⟨hold, hne⟩
  · exact .inl heq.symm
  · exact .inr ⟨conn', hold, hne, heq⟩

/-- A record staged changes no connection but the one it is for. -/
theorem BatchIds.staged (h : BatchIds io d₀ first done b) {staged : StagedImportedConnection}
    (hstaged : Staged io keys b.1.data b.1.calls r staged s) :
    BatchIds io d₀ first (done ++ [r]) (s, touched) := by
  obtain ⟨connection, hid, hput, -⟩ := hstaged.put
  have hdone : OwnedBy io first s.calls r staged.id :=
    hstaged.owner.imp_right fun hnew => ⟨hnew.1, hnew.2.widen h.calls le_rfl⟩
  have hlast : r ∈ done ++ [r] := List.mem_append_right _ (List.mem_singleton_self r)
  have hnodup : (liveIds { b.1.data with
      connections := putConnection b.1.data.connections connection }).Nodup :=
    nodup_putConnection_ids h.distinct
  refine ⟨(liveIds_tidied hput).nodup_iff.mpr hnodup, h.calls.trans hstaged.calls,
    fun id hnone => ?_, fun id hlive => ?_⟩
  · have hne : id ≠ connection.id := by
      rintro rfl
      exact hnone r hlast (hid ▸ hdone)
    rw [keptConnection_tidied hnodup hput, keptConnection_put h.distinct hne]
    exact h.untouched id fun r' hr' hown' =>
      hnone r' (List.mem_append_left _ hr') (hown'.later hstaged.calls)
  · obtain ⟨conn, hconn, rfl⟩ := List.mem_map.mp hlive
    rcases h.mem_staged hput hconn with heq | ⟨conn₀, hconn₀, -, heq⟩
    · refine .inr ⟨r, hlast, ?_⟩
      rw [(entries_of_moved heq).1, hid]
      exact hdone
    · rw [← (entries_of_moved heq).1]
      rcases h.live conn₀.id (List.mem_map_of_mem hconn₀) with hold | ⟨r', hr', hown'⟩
      · exact .inl hold
      · exact .inr ⟨r', List.mem_append_left _ hr', hown'.later hstaged.calls⟩

/-- An entry of a staged connection: of the connection that was there, taken over by the first record
    for it, or new. -/
def StagedEntry (io : Io) (d₀ : ConnectionStoreData) (done : List SavedConnection)
    (r : SavedConnection) (b : Batch) (last : Nat) (id K : Str) : Prop :=
  (∃ conn ∈ b.1.data.connections, conn.id = id ∧ K ∈ collectConnectionKeychainIds conn) ∨
    ((∀ r' ∈ done, ¬ SameImport r' r) ∧ K ∈ importEntries d₀ r) ∨ NewSince io b.1.calls last K

theorem BatchOwners.traced_new (h : BatchOwners io d₀ keys first done b) (hlast : b.1.calls ≤ last)
    (hid : OwnedBy io b.1.calls last r id) (hK : StagedEntry io d₀ done r b last id K) :
    Traced io d₀ first last (done ++ [r]) id K := by
  rcases hK with ⟨conn, hconn, rfl, hKc⟩ | ⟨-, hKr⟩ | hnew
  · exact (h.traced conn hconn K hKc).later hlast r
  · refine .inr (.inl ⟨r, List.mem_append_right _ (List.mem_singleton_self r), ?_, hKr⟩)
    exact hid.imp_right fun hid => ⟨hid.1, hid.2.widen h.calls le_rfl⟩
  · exact .inr (.inr (hnew.widen h.calls le_rfl))

include hrecords hclaims hfresh

section

variable (h : BatchOwners io d₀ keys first done b)

include h

theorem BatchOwners.entries (hid : OwnedBy io b.1.calls last r id) {entries : List Str}
    (hentries : EntriesFrom io b.1.calls (keptEntries r.auth r.proxyChain r.upstreamProxy
      (b.1.data.connections.find? (·.id == id))) entries last) (hK : K ∈ entries) :
    StagedEntry io d₀ done r b last id K := by
  rcases hentries K hK with hkept | hnew
  · by_cases hrepeated : ∃ r' ∈ done, SameImport r' r
    · obtain ⟨r', hr', hsame⟩ := hrepeated
      have hcarried := carried_of_repeated hrecords hclaims hr' hsame
      rcases keptEntries_cases hkept with ⟨conn, hfind, hKc⟩ | hcarry
      · exact .inl ⟨conn, List.mem_of_find?_eq_some hfind, by simpa using List.find?_some hfind,
          hKc⟩
      · have hmem : K ∈ carriedEntries r := hcarry
        rw [hcarried] at hmem
        exact absurd hmem List.not_mem_nil
    · have hnone : ∀ r' ∈ done, ¬ SameImport r' r := fun r' hr' hsame => hrepeated ⟨r', hr', hsame⟩
      rw [h.kept_first hrecords hfresh hid hnone] at hkept
      exact .inr (.inl ⟨hnone, hkept⟩)
  · exact .inr (.inr hnew)

theorem BatchOwners.claimable (hid : OwnedBy io b.1.calls last r id)
    (hK : StagedEntry io d₀ done r b last id K) : ClaimableBy b.1.data (some id) K := by
  have hdone : ∀ x ∈ done, x ∈ records := fun x hx => by
    rw [hrecords]
    exact List.mem_append_left _ hx
  rcases hK with ⟨conn, hconn, rfl, hKc⟩ | ⟨hnone, hKr⟩ | hnew
  · exact h.owned.claimable hconn hKc
  · have hmem : r ∈ records := by rw [hrecords]; simp
    refine ⟨fun conn hconn hKc => ?_, h.pending ▸ (hclaims.claims r hmem K hKr).kept⟩
    have howner := owner_of_traced hrecords hclaims hfresh hKr (h.traced conn hconn K hKc) hnone
    rcases hid with hown | ⟨hown, -⟩
    · exact hown.symm.trans howner
    · rw [hown] at howner
      cases howner
  · refine ⟨fun conn hconn hKc => ?_, fun hpending => ?_⟩
    · exact absurd (h.traced conn hconn K hKc) (not_traced_new hdone hfresh hnew)
    · rw [h.pending] at hpending
      refine absurd (List.mem_append_left _ ?_) (hnew.not_known hfresh)
      exact List.mem_append_right _ (List.mem_append_left _ hpending)

theorem BatchOwners.not_stale (hK : StagedEntry io d₀ done r b last id K) :
    K ∉ b.2.staleOldKeychainIds := by
  intro hstale
  obtain ⟨owner, ⟨r', hr', hown'⟩, htraced⟩ := h.staleTraced K hstale
  have hdone : ∀ x ∈ done, x ∈ records := fun x hx => by
    rw [hrecords]
    exact List.mem_append_left _ hx
  rcases hK with ⟨conn, hconn, -, hKc⟩ | ⟨hnone, hKr⟩ | hnew
  · exact h.stale K hstale (mem_referredEntries.mpr ⟨conn, hconn, hKc⟩)
  · have howner := owner_of_traced hrecords hclaims hfresh hKr htraced hnone
    have hown : OwnedBy io b.1.calls last r owner := .inl howner
    exact hnone r' hr' (sameImport_of_ownedBy hrecords hfresh hown hr' hown')
  · exact not_traced_new hdone hfresh hnew htraced

theorem BatchOwners.staged {staged : StagedImportedConnection}
    (hstaged : Staged io keys b.1.data b.1.calls r staged s)
    (htouched : touched.staleOldKeychainIds =
      b.2.staleOldKeychainIds ++ staged.staleOldKeychainIds) :
    BatchOwners io d₀ keys first (done ++ [r]) (s, touched) := by
  obtain ⟨connection, hid, hput, hfrom, hstale, -⟩ := hstaged.put
  have howner := hstaged.owner
  have hentry : ∀ K ∈ collectConnectionKeychainIds connection,
      StagedEntry io d₀ done r b s.calls staged.id K :=
    fun K hK => h.entries hrecords hclaims hfresh howner hfrom hK
  have hclaim : ∀ K ∈ collectConnectionKeychainIds connection,
      ClaimableBy b.1.data (some connection.id) K :=
    fun K hK => hid ▸ h.claimable hrecords hclaims hfresh howner (hentry K hK)
  have howned := owned_put h.owned hclaim
  have hdone : OwnedBy io first s.calls r staged.id :=
    howner.imp_right fun hnew => ⟨hnew.1, hnew.2.widen h.calls le_rfl⟩
  have hlast : r ∈ done ++ [r] := List.mem_append_right _ (List.mem_singleton_self r)
  refine ⟨h.toBatchIds.staged hstaged, howned.tidied hput, hstaged.keychain, ?_, ?_, ?_,
    hput.pending.trans h.pending⟩
  · -- what is about to be deleted is referred to by nobody
    intro K hK href
    rw [htouched] at hK
    obtain ⟨conn, hconn, hKc⟩ := mem_referredEntries.mp (referred_tidied hput href)
    rcases List.mem_append.mp hK with hold | hnew
    · rcases mem_putConnection h.owned.live hconn with rfl | ⟨hconn, -⟩
      · exact h.not_stale hrecords hclaims hfresh (hentry K hKc) hold
      · exact h.stale K hold (mem_referredEntries.mpr ⟨conn, hconn, hKc⟩)
    · rw [hstale] at hnew
      obtain ⟨hold, hnext⟩ := List.mem_filter.mp hnew
      obtain ⟨existing, hexisting, hexid, hKe⟩ := mem_entriesOf hold
      exact stale_put h.owned hexisting (hexid.trans hid.symm) hKe (by simpa using hnext)
        (mem_referredEntries.mpr ⟨conn, hconn, hKc⟩)
  · intro conn hconn K hK
    rcases h.mem_staged hput hconn with heq | ⟨conn₀, hconn₀, -, heq⟩
    · obtain ⟨hcid, hentries⟩ := entries_of_moved heq
      rw [hcid, hid]
      exact h.traced_new hstaged.calls howner (hentry K (hentries ▸ hK))
    · obtain ⟨hcid, hentries⟩ := entries_of_moved heq
      rw [← hcid]
      exact (h.traced conn₀ hconn₀ K (hentries ▸ hK)).later hstaged.calls r
  · intro K hK
    rw [htouched] at hK
    rcases List.mem_append.mp hK with hold | hnew
    · obtain ⟨owner, ⟨r', hr', hown'⟩, htraced⟩ := h.staleTraced K hold
      exact ⟨owner, ⟨r', List.mem_append_left _ hr', hown'.later hstaged.calls⟩,
        htraced.later hstaged.calls r⟩
    · rw [hstale] at hnew
      obtain ⟨existing, hexisting, hexid, hKe⟩ := mem_entriesOf (List.mem_filter.mp hnew).1
      exact ⟨staged.id, ⟨r, hlast, hdone⟩,
        hexid ▸ (h.traced existing hexisting K hKe).later hstaged.calls r⟩

end

theorem batchOwners_importConnection :
    (importConnection io r).Ensures (BatchOwners io d₀ keys first done)
      (fun _ => BatchOwners io d₀ keys first (done ++ [r])) fun b => EntriesKept keys b.1 := by
  intro b hb
  have hstage : (inBatch (stageImportedConnection io r)).Ensures (· = b)
      (fun staged b' => Staged io keys b.1.data b.1.calls r staged b'.1 ∧ b'.2 = b.2)
      fun b' => EntriesKept keys b'.1 := by
    refine Ensures.onFst fun touched => ?_
    refine Ensures.weaken (P := fun s => Ready b.1.data keys b.1.calls (fun _ => True) s ∧
      touched = b.2) (Ensures.assuming fun htouched => ?_) ?_ (fun _ _ h => h) fun _ h => h
    · exact (stageImportedConnection_staged io).weaken (fun _ h => h)
        (fun _ _ h => ⟨h, htouched⟩) fun _ h => h
    · rintro s rfl
      exact ⟨⟨rfl, hb.keychain, le_rfl, trivial⟩, rfl⟩
  have hround : (importConnection io r).Ensures (· = b)
      (fun _ => BatchOwners io d₀ keys first (done ++ [r])) fun b => EntriesKept keys b.1 := by
    refine Ensures.bind hstage fun staged => ?_
    refine Ensures.bind (M := fun _ => BatchOwners io d₀ keys first (done ++ [r])) ?_
      fun _ => Ensures.pure fun _ h => h
    refine Ensures.modify fun b' hb' => ?_
    obtain ⟨hstaged, htouched⟩ := hb'
    exact hb.staged hrecords hclaims hfresh hstaged (by rw [htouched])
  exact hround b rfl

end Record

/-- The managed keys of a batch come first and touch neither the connections nor their entries. -/
structure BatchStart (d₀ : ConnectionStoreData) (keys : Finset Str) (first : Nat) (b : Batch) :
    Prop where
  connections : b.1.data.connections = d₀.connections
  pending : b.1.data.pendingKeychainCleanup = d₀.pendingKeychainCleanup
  keychain : EntriesKept keys b.1
  calls : first ≤ b.1.calls
  stale : b.2.staleOldKeychainIds = []

theorem batchStart_importManagedKey (managedKey : ImportedManagedSshKey) :
    (importManagedKey io managedKey).Ensures (BatchStart d₀ keys first)
      (fun _ => BatchStart d₀ keys first) fun b => EntriesKept keys b.1 := by
  have hnote : ∀ {f : Touched → Touched},
      (∀ t, (f t).staleOldKeychainIds = t.staleOldKeychainIds) →
      (note f).Ensures (BatchStart d₀ keys first) (fun _ => BatchStart d₀ keys first)
        fun b => EntriesKept keys b.1 :=
    fun hf => Ensures.modify fun b hb =>
      ⟨hb.connections, hb.pending, hb.keychain, hb.calls, (hf b.2).trans hb.stale⟩
  refine Ensures.bind (hnote fun _ => rfl) fun _ => ?_
  refine Ensures.bind (M := fun _ => BatchStart d₀ keys first) ?_ fun created => ?_
  · refine Ensures.onFst fun touched => ?_
    refine ((preparing_storeManagedSshKeySecret io _ _).ensures
      (P := fun s => BatchStart d₀ keys first (s, touched)) fun hprep hs => ?_).weaken
        (fun _ h => h) (fun _ _ h => h) fun _ h => h.keychain
    have hdata := hprep.data
    exact ⟨hdata ▸ hs.connections, hdata ▸ hs.pending,
      fun K hkey => hprep.entries K (hs.keychain K hkey), hs.calls.trans hprep.calls, hs.stale⟩
  refine Ensures.bind (hnote fun _ => rfl) fun _ => ?_
  refine Ensures.onFst fun touched => Ensures.modify fun s hs => ?_
  exact ⟨hs.connections, hs.pending, hs.keychain, hs.calls, hs.stale⟩

theorem BatchIds.start (hd : (liveIds d₀).Nodup)
    (hconnections : b.1.data.connections = d₀.connections) (hcalls : first ≤ b.1.calls) :
    BatchIds io d₀ first [] b := by
  refine ⟨?_, hcalls, fun id _ => ?_, fun id hid => ?_⟩
  · rw [liveIds, hconnections]
    exact hd
  · rw [keptConnection, keptConnection, hconnections]
  · rw [liveIds, hconnections] at hid
    exact .inl hid

theorem BatchStart.owners (h : BatchStart d₀ keys first b) (hd : Owned d₀) :
    BatchOwners io d₀ keys first [] b := by
  have hrefs : referredEntries b.1.data = referredEntries d₀ := by
    rw [referredEntries, referredEntries, h.connections]
  refine ⟨BatchIds.start hd.live h.connections h.calls, ⟨?_, ?_, ?_⟩, h.keychain, ?_,
    fun conn hconn K hK => ?_, ?_, h.pending⟩
  · rw [liveIds, h.connections]
    exact hd.live
  · rw [h.connections]
    exact hd.apart
  · rw [hrefs, h.pending]
    exact hd.pending
  · rw [h.stale]
    exact fun _ hK => absurd hK List.not_mem_nil
  · rw [h.connections] at hconn
    exact .inl ⟨conn, hconn, rfl, hK⟩
  · rw [h.stale]
    exact fun _ hK => absurd hK List.not_mem_nil

variable (io)

/-- The owners of a batch whose records are all staged. -/
def BatchEnd (keys : Finset Str) (b : Batch) : Prop :=
  Owners keys b.2.staleOldKeychainIds b.1 ∧ EntriesKept keys b.1

theorem batchEnd_tidying {α : Type} {act : StoreM α} (h : Tidying act) :
    (inBatch act).Ensures (BatchEnd keys) (fun _ => BatchEnd keys)
      fun b => EntriesKept keys b.1 := by
  refine Ensures.onFst fun touched => ?_
  refine (h.ensures (P := fun s => BatchEnd keys (s, touched)) fun ht hs => ?_).weaken
    (fun _ h => h) (fun _ _ h => h) fun _ h => h.2
  exact ⟨hs.1.tidied ht, fun K hkey => ht.keychain ▸ hs.2 K hkey⟩

variable {managedKeys : List ImportedManagedSshKey}

theorem batchEnd_importBatch (hd : Owned d₀) (hclaims : BatchClaims d₀ records)
    (hfresh : FreshUuids io (knownTexts d₀ ++ batchTexts records)) :
    (importBatch io records managedKeys).Ensures (BatchStart d₀ keys first)
      (fun _ => BatchEnd keys) fun b => EntriesKept keys b.1 := by
  refine Ensures.bind (Ensures.each fun managedKey _ =>
    batchStart_importManagedKey managedKey) fun _ => ?_
  refine Ensures.bind (M := fun _ => BatchOwners io d₀ keys first records) ?_ fun ids => ?_
  · refine Ensures.weaken (P := BatchOwners io d₀ keys first []) ?_
      (fun b hb => BatchStart.owners hb hd) (fun _ _ h => h) fun _ h => h
    exact Ensures.each_done fun done r rest hrecords =>
      batchOwners_importConnection hrecords hclaims hfresh
  refine Ensures.weaken (P := BatchEnd keys) ?_
    (fun b hb => ⟨⟨hb.owned, fun K _ hkey => hb.keychain K hkey, hb.stale⟩, hb.keychain⟩)
    (fun _ _ h => h) fun _ h => h
  refine Ensures.bind (batchEnd_tidying (tidying_normalize io)) fun _ => ?_
  refine Ensures.bind (batchEnd_tidying (tidying_save io)) fun _ => ?_
  exact Ensures.pure fun _ h => h

/-! ## 4. The rollback -/

/-- A checkpoint has an entry and its value. -/
def KnownTo (entries : List (Str × Option Secret)) (K : Str) : Prop :=
  ∃ secret, (entries.find? (·.1 == K)).bind (·.2) = some secret

/-- The entries of the beginning that a checkpoint has are there. -/
def KnownKept (keys : Finset Str) (entries : List (Str × Option Secret)) (s : ConnectionStore) :
    Prop :=
  ∀ K ∈ keys, KnownTo entries K → K ∈ s.keychain.keySet

variable {α : Type} {act : StoreM α} {entries : List (Str × Option Secret)}

theorem knownKept_of_keychain (h : Keeps (fun s s' : ConnectionStore => ∀ K ∈ s.keychain.keySet,
      K ∈ s'.keychain.keySet) act) :
    act.Ensures (KnownKept keys entries) (fun _ => KnownKept keys entries)
      (KnownKept keys entries) :=
  h.ensures fun hmore hs K hkey hknown => hmore K (hs K hkey hknown)

theorem knownKept_of_preparing (h : Preparing act) :
    act.Ensures (KnownKept keys entries) (fun _ => KnownKept keys entries)
      (KnownKept keys entries) :=
  knownKept_of_keychain (h.weaken fun hprep => hprep.entries)

theorem knownKept_rollbackEntries (touched : List Str) :
    (rollbackEntries touched entries (keychainStore io) (keychainDelete io)).Ensures
      (KnownKept keys entries) (fun _ => KnownKept keys entries) (KnownKept keys entries) := by
  refine Ensures.bind (M := fun _ => KnownKept keys entries) ?_ fun done => ?_
  · refine Ensures.each fun id _ => ?_
    cases hfind : (entries.find? (·.1 == id)).bind (·.2) with
    | some secret => exact (knownKept_of_preparing (preparing_keychainStore io id secret)).attempt
    | none =>
      refine Ensures.attempt (ensures_outside io (fun s hs K hkey hknown => ?_)
        fun s hs => hs)
      have hne : K ≠ id := by
        rintro rfl
        obtain ⟨secret, hsecret⟩ := hknown
        rw [hfind] at hsecret
        cases hsecret
      rw [Map.keySet_erase]
      exact Finset.mem_erase.mpr ⟨hne, hs K hkey hknown⟩
  · split
    · exact Ensures.pure fun _ hs => hs
    · exact Ensures.throw fun _ hs => hs

theorem rollbackImport_keeps (originalData : ConnectionStoreData)
    (originalPrivilegeKeychain originalManagedKeychain : List (Str × Option Secret))
    (touched : Touched) :
    (rollbackImport io originalData entries originalPrivilegeKeychain originalManagedKeychain
      touched).Ensures (KnownKept keys entries) (fun _ => KnownKept keys entries)
      (KnownKept keys entries) := by
  refine Ensures.bind (M := fun _ => KnownKept keys entries)
    (Ensures.modify fun s hs => hs) fun _ => ?_
  have hsave : Keeps (fun s s' : ConnectionStore => ∀ K ∈ s.keychain.keySet,
      K ∈ s'.keychain.keySet) (save io) :=
    (tidying_save io).weaken fun ht K hK => ht.keychain ▸ hK
  refine Ensures.bind (knownKept_of_keychain hsave).attempt fun _ => ?_
  refine Ensures.bind (knownKept_rollbackEntries io _).attempt fun _ => ?_
  refine Ensures.bind (knownKept_of_preparing (preparing_rollbackEntries _ _
    (preparing_privilegeKeychainStore io) (preparing_privilegeKeychainDelete io))).attempt
    fun _ => ?_
  refine Ensures.bind (knownKept_of_preparing (preparing_rollbackEntries _ _
    (fun id secret => (preparing_storeManagedSshKeySecret io id secret).bind
      fun _ => preparing_pure ()) (preparing_deleteManagedSshKeySecret io))).attempt fun _ => ?_
  split
  · refine Ensures.bind (Ensures.attempt (knownKept_of_preparing ?_)) fun _ =>
      Ensures.pure fun _ hs => hs
    exact preparing_elsewhere io (fun _ => rfl) fun _ => rfl
  · exact Ensures.pure fun _ hs => hs

theorem snapshotKeychainEntries_known :
    (snapshotKeychainEntries io d₀).Ensures (Ready d₀ keys first fun _ => True)
      (fun entries s => Ready d₀ keys first (fun _ => True) s ∧
        ∀ K ∈ referredEntries d₀, K ∈ keys → KnownTo entries K)
      (Ready d₀ keys first fun _ => True) := by
  intro s hs
  have hready := hs.step lasting_true (preparing_snapshotKeychainEntries io d₀ s)
  rcases hrun : snapshotKeychainEntries io d₀ s with ⟨e | entries, s'⟩
  · rw [hrun] at hready
    exact hready
  · rw [hrun] at hready
    obtain ⟨-, hfind⟩ := snapshotEntries_find (I := fun s' => s'.keychain = s.keychain)
      (V := fun K value => value = s.keychain.lookup K)
      (fun id s₁ value s₂ hs₁ hread => by
        obtain ⟨hvalue, hkeychain⟩ := keychainGetOptional_ok io hread
        exact ⟨hs₁ ▸ hvalue, hkeychain.trans hs₁⟩) rfl hrun
    refine ⟨hready, fun K hK hkey => ?_⟩
    obtain ⟨secret, hsecret⟩ := Map.mem_keys_iff.mp (Map.mem_keySet.mp (hs.entries K hkey))
    obtain ⟨value, hvalue, rfl⟩ := hfind K hK
    refine ⟨secret, ?_⟩
    rw [hvalue]
    exact hsecret

theorem ownersOk_rollbackImport (hd : Owned d₀)
    (hknown : ∀ K ∈ referredEntries d₀, K ∈ keys → KnownTo entries K)
    {originalPrivilegeKeychain originalManagedKeychain : List (Str × Option Secret)}
    :
    (rollbackImport io d₀ entries originalPrivilegeKeychain originalManagedKeychain
      touched).Ensures (KnownKept keys entries) (fun _ => OwnersOk keys) (OwnersOk keys) := by
  intro s hs
  have hdata := rollbackImport_data io d₀ entries originalPrivilegeKeychain
    originalManagedKeychain touched s
  have hkept := rollbackImport_keeps io d₀ originalPrivilegeKeychain originalManagedKeychain
    touched s hs
  have howners : ∀ s' : ConnectionStore, s'.data = d₀ → KnownKept keys entries s' →
      OwnersOk keys s' := by
    rintro s' rfl hkept
    exact ⟨hd, fun K hK hkey => hkept K hkey (hknown K hK hkey),
      fun _ hK => absurd hK List.not_mem_nil⟩
  rcases hrun : rollbackImport io d₀ entries originalPrivilegeKeychain originalManagedKeychain
    touched s with ⟨e | u, s'⟩ <;> (rw [hrun] at hdata hkept; exact howners s' hdata hkept)

/-! ## 5. The transaction -/

/-- A transaction whose records take over what is nobody else's keeps the owners. -/
theorem ownersOk_importTransaction (hd : Owned d₀) (hclaims : BatchClaims d₀ records)
    (hfresh : FreshUuids io (knownTexts d₀ ++ batchTexts records)) :
    (upsertImportedConnectionsAndManagedKeysTransaction io records managedKeys).Ensures
      (Ready d₀ keys first fun _ => True) (fun _ => OwnersOk keys) (OwnersOk keys) := by
  refine Ensures.getThe_keeps fun s hs => ?_
  obtain rfl := hs.data
  refine Ensures.bind (ready_error hd (snapshotKeychainEntries_known io))
    fun originalKeychain => Ensures.assuming fun hknown => ?_
  refine Ensures.bind (ready_error hd
    ((preparing_snapshotPrivilegeKeychainEntries io s.data).ready lasting_true))
    fun originalPrivilegeKeychain => ?_
  refine Ensures.bind (ready_error hd
    ((preparing_snapshotManagedKeychainEntries io s.data).ready lasting_true))
    fun originalManagedKeychain => ?_
  refine Ensures.getThe_bind fun s₁ hs₁ => ?_
  have hstart : BatchStart s.data keys first (s₁, {}) := by
    have hdata := hs₁.data
    exact ⟨by rw [hdata], by rw [hdata], hs₁.entries, hs₁.calls, rfl⟩
  have hbatch : (importBatch io records managedKeys).Ensures (BatchStart s.data keys first)
      (fun _ => BatchEnd keys) fun b => EntriesKept keys b.1 :=
    batchEnd_importBatch io hd hclaims hfresh
  split
  · next ids s' touched hrun =>
      have hend : BatchEnd keys (s', touched) := hbatch.ok hstart hrun
      refine Ensures.bind (M := fun _ => Owners keys touched.staleOldKeychainIds)
        (fun _ _ => hend.1) fun _ => ?_
      refine KeepsOwners.done ((keepsOwners_deleteEach io fun K hK => List.mem_dedup.mp hK).bind
        fun _ => ?_)
      exact preparing_getThe.keepsOwners.bind fun _ => keepsOwners_pure _
  · next e s' touched hrun =>
      have hkept : EntriesKept keys s' := hbatch.error hstart hrun
      refine Ensures.bind (M := fun _ => KnownKept keys originalKeychain)
        (fun _ _ K hkey _ => hkept K hkey) fun _ => ?_
      refine Ensures.bind (M := fun _ => OwnersOk keys) ?_ fun _ =>
        Ensures.throw fun _ hs' => hs'
      exact ownersOk_rollbackImport io hd hknown

end Hapcli.Connections
