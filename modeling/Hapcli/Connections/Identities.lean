/-
  Subject:   The ids of saved connections, live and deleted.

  `add_connection` takes away the tombstone of the id it adds; the other ways to put a connection do
  not, and an id that was deleted and is given again is live and deleted at once.

  * **`live_or_tombstoned`** -- every run whose steps meet the condition keeps the ids apart, and every
    snapshot of it has one record an id; `upsert_deleted_id` -- a run that does not.
-/
import Hapcli.Connections.GroupRuns

namespace Hapcli.Connections

open Hapcli.Lib Hapcli.Rust
open Lib.Action (Ensures Keeps)

/-! ## 1. Ids -/

/-- The ids of the live connections. -/
def liveIds (d : ConnectionStoreData) : List Str := d.connections.map (·.id)

/-- The ids of the deleted ones. -/
def tombstoneIds (d : ConnectionStoreData) : List Str := d.connectionTombstones.map (·.id)

/-- No id twice among the live or among the deleted, none in both. -/
structure IdsDistinct (d : ConnectionStoreData) : Prop where
  live : (liveIds d).Nodup
  tombstones : (tombstoneIds d).Nodup
  disjoint : ∀ id ∈ liveIds d, id ∉ tombstoneIds d

/-- A tombstone that no reading of the clock finds active. -/
def Expired (io : Io) (tombstone : DeletedConnectionTombstone) : Prop :=
  ∀ k, tombstone.deletedAt < io.now k - ConnectionStore.connectionTombstoneRetention

/-- No tombstone of an id, but those that are about to be dropped. -/
def Free (io : Io) (d : ConnectionStoreData) (id : Str) : Prop :=
  ∀ tombstone ∈ d.connectionTombstones, tombstone.id = id → Expired io tombstone

/-- A UUID is new: no connection has it, live or deleted. -/
def NewUuids (io : Io) (d : ConnectionStoreData) : Prop :=
  ∀ k, io.uuid k ∉ liveIds d ∧ io.uuid k ∉ tombstoneIds d

/-- Inside an operation: no tombstone is new, and an id is live and deleted only where the tombstone
    has expired. -/
structure NearlyDistinct (io : Io) (d₀ d : ConnectionStoreData) : Prop where
  live : (liveIds d).Nodup
  tombstones : (tombstoneIds d).Nodup
  overlap : ∀ tombstone ∈ d.connectionTombstones, tombstone.id ∈ liveIds d → Expired io tombstone
  older : ∀ tombstone ∈ d.connectionTombstones, tombstone ∈ d₀.connectionTombstones

variable {io : Io} {d d₀ d' : ConnectionStoreData}

theorem mem_tombstoneIds {id : Str} :
    id ∈ tombstoneIds d ↔ ∃ tombstone ∈ d.connectionTombstones, tombstone.id = id :=
  List.mem_map

theorem IdsDistinct.nearly (h : IdsDistinct d) (io : Io) : NearlyDistinct io d d where
  live := h.live
  tombstones := h.tombstones
  overlap tombstone ht hlive :=
    absurd (List.mem_map_of_mem ht) (h.disjoint tombstone.id hlive)
  older _ ht := ht

theorem NewUuids.free (h : NewUuids io d) (k : Nat) : Free io d (io.uuid k) :=
  fun _ ht hid => absurd ((mem_tombstoneIds).mpr ⟨_, ht, hid⟩) (h k).2

theorem liveIds_tidied (h : ConnectionStore.Tidied d d') : (liveIds d').Perm (liveIds d) :=
  h.map_perm fun _ => rfl

theorem IdsDistinct.tidied (h : IdsDistinct d) (ht : ConnectionStore.Tidied d d') :
    IdsDistinct d' where
  live := (liveIds_tidied ht).nodup_iff.mpr h.live
  tombstones := h.tombstones.sublist (ht.tombstones.map _)
  disjoint id hlive htomb :=
    h.disjoint id ((liveIds_tidied ht).mem_iff.mp hlive) ((ht.tombstones.map _).subset htomb)

theorem NearlyDistinct.tidied (h : NearlyDistinct io d₀ d) (ht : ConnectionStore.Tidied d d') :
    NearlyDistinct io d₀ d' where
  live := (liveIds_tidied ht).nodup_iff.mpr h.live
  tombstones := h.tombstones.sublist (ht.tombstones.map _)
  overlap tombstone htomb hlive :=
    h.overlap tombstone (ht.tombstones.subset htomb) ((liveIds_tidied ht).mem_iff.mp hlive)
  older tombstone htomb := h.older tombstone (ht.tombstones.subset htomb)

theorem IdsDistinct.same (h : IdsDistinct d) (hlive : liveIds d' = liveIds d)
    (htomb : tombstoneIds d' = tombstoneIds d) : IdsDistinct d' where
  live := hlive ▸ h.live
  tombstones := htomb ▸ h.tombstones
  disjoint := by
    rw [hlive, htomb]
    exact h.disjoint

namespace ConnectionStore

variable (io)

theorem idsDistinct_normalizeData (now : Nat) (h : NearlyDistinct io d₀ d) :
    IdsDistinct (normalizeData io (io.now now) d) := by
  have htidied := normalizeData_tidied io (io.now now) d
  have hnearly := h.tidied htidied
  refine ⟨hnearly.live, hnearly.tombstones, fun id hlive htomb => ?_⟩
  obtain ⟨tombstone, ht, rfl⟩ := (mem_tombstoneIds).mp htomb
  have hactive := (List.mem_filter.mp ht).2
  have hexpired := hnearly.overlap tombstone ht hlive now
  exact absurd hexpired (not_lt.mpr (decide_eq_true_eq.mp hactive))

variable {io}

/-! ## 2. A connection is put -/

theorem putConnection_ids (l : List SavedConnection) (connection : SavedConnection) :
    (putConnection l connection).map (·.id) =
      if connection.id ∈ l.map (·.id) then l.map (·.id) else l.map (·.id) ++ [connection.id] := by
  unfold putConnection
  cases hindex : l.findIdx? (·.id == connection.id) with
  | none =>
    have hnot : connection.id ∉ l.map (·.id) := by
      intro hmem
      obtain ⟨conn, hconn, heq⟩ := List.mem_map.mp hmem
      have hne := List.findIdx?_eq_none_iff.mp hindex conn hconn
      simp [heq] at hne
    simp only [hnot, if_false, List.map_append, List.map_cons, List.map_nil]
  | some index =>
    obtain ⟨hlt, heq, -⟩ := List.findIdx?_eq_some_iff_getElem.mp hindex
    have hid : (l[index]).id = connection.id := by simpa using heq
    have hmem : connection.id ∈ l.map (·.id) := hid ▸ List.mem_map_of_mem (List.getElem_mem hlt)
    rw [if_pos hmem]
    show (l.set index connection).map (·.id) = _
    rw [List.map_set]
    refine List.ext_getElem (by simp) fun i hi hi' => ?_
    rw [List.getElem_set]
    split
    · next h =>
        subst h
        simp [hid]
    · rfl

variable {connection : SavedConnection} {id : Str} {s : ConnectionStore}

theorem mem_putConnection_ids {l : List SavedConnection}
    (h : id ∈ (putConnection l connection).map (·.id)) :
    id ∈ l.map (·.id) ∨ id = connection.id := by
  rw [putConnection_ids] at h
  split at h
  · exact .inl h
  · exact (List.mem_append.mp h).imp_right List.mem_singleton.mp

theorem nodup_putConnection_ids {l : List SavedConnection} (h : (l.map (·.id)).Nodup) :
    ((putConnection l connection).map (·.id)).Nodup := by
  rw [putConnection_ids]
  split
  · exact h
  · next hnot =>
      refine List.nodup_append.mpr ⟨h, List.nodup_singleton _, ?_⟩
      rintro a ha b hb rfl
      exact hnot (List.mem_singleton.mp hb ▸ ha)

theorem nearlyDistinct_put (h : NearlyDistinct io d₀ d) (hfree : Free io d₀ connection.id)
    (hd' : d' = { d with connections := putConnection d.connections connection }) :
    NearlyDistinct io d₀ d' := by
  subst hd'
  refine ⟨nodup_putConnection_ids h.live, h.tombstones, fun tombstone ht hlive => ?_, h.older⟩
  rcases mem_putConnection_ids hlive with hlive | hid
  · exact h.overlap tombstone ht hlive
  · exact hfree tombstone (h.older tombstone ht) hid

theorem idsDistinct_append (h : IdsDistinct d) (hlive : connection.id ∉ liveIds d)
    (htomb : connection.id ∉ tombstoneIds d) :
    IdsDistinct { d with connections := d.connections ++ [connection] } := by
  have hids : liveIds { d with connections := d.connections ++ [connection] } =
      liveIds d ++ [connection.id] := List.map_append
  refine ⟨?_, h.tombstones, fun id hid => ?_⟩
  · rw [hids]
    refine List.nodup_append.mpr ⟨h.live, List.nodup_singleton _, ?_⟩
    rintro a ha b hb rfl
    exact hlive (List.mem_singleton.mp hb ▸ ha)
  · rw [hids] at hid
    rcases List.mem_append.mp hid with hid | hid
    · exact h.disjoint id hid
    · rw [List.mem_singleton.mp hid]
      exact htomb

/-! ## 3. What a call does to the ids -/

/-- The ids of a store are distinct. -/
abbrev IdsOk (s : ConnectionStore) : Prop := IdsDistinct s.data

/-- Distinct ids stay distinct, whatever comes of the call. -/
abbrev KeepsIds {α : Type} (act : StoreM α) : Prop :=
  act.Ensures IdsOk (fun _ => IdsOk) IdsOk

theorem idsOk_of_data (hd : IdsDistinct d) (h : s.data = d) : IdsOk s := by
  rw [IdsOk, h]
  exact hd

section Steps

variable {α β : Type} {act : StoreM α}

theorem SameData.keepsIds (h : SameData act) : KeepsIds act := h.keepsData

theorem Tidying.keepsIds (h : Tidying act) : KeepsIds act :=
  h.ensures fun htidies hs => IdsDistinct.tidied hs htidies.data

theorem KeepsIds.bind {f : α → StoreM β} (hact : KeepsIds act) (hf : ∀ a, KeepsIds (f a)) :
    KeepsIds (act >>= f) :=
  Ensures.bind hact hf

theorem keepsIds_pure (a : α) : KeepsIds (pure a : StoreM α) := (sameData_pure a).keepsIds

theorem keepsIds_modifyData {f : ConnectionStoreData → ConnectionStoreData}
    (h : ∀ d, IdsDistinct d → IdsDistinct (f d)) : KeepsIds (modifyData f) :=
  Ensures.modify fun s hs => h s.data hs

theorem nearly_ensureOptionalGroup {group : Option Str} (hvalid : ValidGroup group)
    {E : ConnectionStore → Prop} :
    (ensureOptionalGroup io group).Ensures (fun s => NearlyDistinct io d₀ s.data)
      (fun _ s => NearlyDistinct io d₀ s.data) E := by
  intro s hs
  obtain ⟨s', hrun, htidies⟩ := ensureOptionalGroup_ok io hvalid s
  rw [hrun]
  exact hs.tidied htidies.data

end Steps

/-! ## 4. The operations on one connection -/

variable (io)

theorem free_orNewUuid {id : Option Str} (hnew : NewUuids io d₀)
    (hfree : ∀ given, id = some given → Free io d₀ given) :
    (orNewUuid io id).Ensures (fun s => s.data = d₀) (fun id s => s.data = d₀ ∧ Free io d₀ id)
      IdsOk := by
  cases id with
  | some given => exact Ensures.pure fun s hs => ⟨hs, hfree given rfl⟩
  | none => exact fun s hs => ⟨hs, hnew.free s.calls⟩

variable {E : ConnectionStore → Prop}

theorem free_importedId {P : ConnectionStore → Prop}
    (hP : ∀ s s' : ConnectionStore, s'.data = s.data → P s → P s') (hnew : NewUuids io d₀)
    (hfree : (trim connection.id).isEmpty = false → Free io d₀ connection.id) :
    (importedId io connection).Ensures P (fun id s => P s ∧ Free io d₀ id) E := by
  unfold importedId
  split
  · exact fun s hs => ⟨hP s _ rfl hs, hnew.free s.calls⟩
  · next hblank => exact Ensures.pure fun s hs => ⟨hs, hfree (Bool.eq_false_iff.mpr hblank)⟩

theorem madeGood_ids (d₀ : ConnectionStoreData) :
    MadeGood io IdsDistinct (NearlyDistinct io d₀) (Free io d₀) where
  normalize k _ h := idsDistinct_normalizeData io k h
  put _ _ hfree h := nearlyDistinct_put h hfree rfl
  keys _ _ h := h.tidied ⟨.refl _, .refl _, rfl⟩
  group _ _ hgroup _ := nearly_ensureOptionalGroup (validGroup_normalize hgroup)

theorem idsDistinct_importSshConnection (hd : IdsDistinct d₀) (hnew : NewUuids io d₀) :
    (importSshConnection io connection).Ensures (fun s => s.data = d₀) (fun _ => IdsOk) IdsOk := by
  refine Ensures.bind (M := fun id s => s.data = d₀ ∧ ∃ k, id = io.uuid k)
    (fun s hs => ⟨hs, s.calls, rfl⟩) fun id => ?_
  refine Ensures.assuming ?_
  rintro ⟨k, rfl⟩
  refine Ensures.bind ((preparing_clock io).sameData.holds hd) fun createdAt => ?_
  refine Ensures.bind ((preparing_clock io).sameData.holds hd) fun updatedAt => ?_
  refine Ensures.bind ((preparing_materializeAuthAlone io _ _).sameData.holds hd)
    fun auth => ?_
  refine Ensures.bind ((preparing_materializeProxyChainAlone io _).sameData.holds hd)
    fun proxyChain => ?_
  refine Ensures.bind
    ((preparing_materializeUpstreamProxyPolicyAlone io _ _).sameData.holds hd)
    fun upstreamProxy => ?_
  -- the data is tidied from here on, and stays clear of the new id
  let Clear : ConnectionStore → Prop :=
    fun s => IdsOk s ∧ io.uuid k ∉ liveIds s.data ∧ io.uuid k ∉ tombstoneIds s.data
  have hclear : ∀ s : ConnectionStore, s.data = d₀ → Clear s := by
    intro s hs
    refine ⟨idsOk_of_data hd hs, ?_⟩
    rw [hs]
    exact hnew k
  have htidied : ∀ {s s' : ConnectionStore}, Tidies s s' → Clear s → Clear s' := by
    intro s s' h hs
    refine ⟨IdsDistinct.tidied hs.1 h.data, fun hlive => hs.2.1 ?_, fun htomb => hs.2.2 ?_⟩
    · exact (liveIds_tidied h.data).mem_iff.mp hlive
    · exact (h.data.tombstones.map _).subset htomb
  refine Ensures.bind (M := fun _ => Clear) ?_ fun _ => ?_
  · exact ((tidying_ensureOptionalGroup io _).ensures htidied).weaken hclear (fun _ _ h => h)
      fun _ h => h.1
  refine Ensures.bind (M := fun _ => IdsOk) ?_ fun _ => ?_
  · refine Ensures.modify fun s hs => ?_
    exact idsDistinct_append hs.1 hs.2.1 hs.2.2
  refine (tidying_normalize io).keepsIds.bind fun _ => ?_
  exact (sameData_save io).keepsIds.bind fun _ => (sameData_savedInfo _).keepsIds

theorem idsDistinct_duplicate (hd : IdsDistinct d₀) (hnew : NewUuids io d₀) :
    FromData d₀ IdsDistinct (duplicate io id) := by
  refine (madeGood_ids io d₀).duplicate hd (hd.nearly io) fun k copy hid => ?_
  have happend := idsDistinct_append hd (hid ▸ (hnew k).1) (hid ▸ (hnew k).2)
  exact { happend.nearly io with older := fun _ ht => ht }

/-! ## 5. Connections removed and changed -/

theorem upsertTombstone_ids (tombstones : List DeletedConnectionTombstone) (id : Str)
    (deletedAt : Time) :
    (upsertTombstone tombstones id deletedAt).1.map (·.id) =
      if id ∈ tombstones.map (·.id) then tombstones.map (·.id) else tombstones.map (·.id) ++ [id] := by
  unfold upsertTombstone
  cases hindex : tombstones.findIdx? (·.id == id) with
  | none =>
    have hnot : id ∉ tombstones.map (·.id) := by
      intro hmem
      obtain ⟨tombstone, ht, heq⟩ := List.mem_map.mp hmem
      have hne := List.findIdx?_eq_none_iff.mp hindex tombstone ht
      simp [heq] at hne
    simp only [hnot, if_false, List.map_append, List.map_cons, List.map_nil]
  | some index =>
    obtain ⟨hlt, heq, -⟩ := List.findIdx?_eq_some_iff_getElem.mp hindex
    have hid : (tombstones[index]).id = id := by simpa using heq
    have hmem : id ∈ tombstones.map (·.id) :=
      hid ▸ List.mem_map_of_mem (List.getElem_mem hlt)
    rw [if_pos hmem]
    dsimp only
    rw [List.getElem?_eq_getElem hlt]
    dsimp only
    split
    · rfl
    · rw [List.map_set]
      refine List.ext_getElem (by simp) fun i hi hi' => ?_
      rw [List.getElem_set]
      split
      · next h =>
          subst h
          simp [hid]
      · rfl

theorem idsDistinct_upsertTombstone {deletedAt : Time} (h : IdsDistinct d) (hid : id ∉ liveIds d) :
    IdsDistinct { d with
      connectionTombstones := (upsertTombstone d.connectionTombstones id deletedAt).1 } := by
  have hids : tombstoneIds { d with
      connectionTombstones := (upsertTombstone d.connectionTombstones id deletedAt).1 } =
      if id ∈ tombstoneIds d then tombstoneIds d else tombstoneIds d ++ [id] :=
    upsertTombstone_ids _ id deletedAt
  by_cases hmem : id ∈ tombstoneIds d
  · rw [if_pos hmem] at hids
    exact h.same rfl hids
  · rw [if_neg hmem] at hids
    refine ⟨h.live, ?_, fun id' hlive htomb => ?_⟩
    · rw [hids]
      refine List.nodup_append.mpr ⟨h.tombstones, List.nodup_singleton _, ?_⟩
      rintro a ha b hb rfl
      exact hmem (List.mem_singleton.mp hb ▸ ha)
    · rw [hids] at htomb
      rcases List.mem_append.mp htomb with htomb | heq
      · exact h.disjoint id' hlive htomb
      · exact hid (List.mem_singleton.mp heq ▸ hlive)

theorem tidied_prune (now : Time) (d : ConnectionStoreData) :
    Tidied d { d with connectionTombstones := activeConnectionTombstones now d.connectionTombstones } :=
  ⟨.refl _, List.filter_sublist, rfl⟩

/-- The ids are distinct and one of them is not live. -/
abbrev NotLive (id : Str) (s : ConnectionStore) : Prop := IdsOk s ∧ id ∉ liveIds s.data

theorem idsDistinct_upsertConnectionTombstone (id : Str) (deletedAt : Time) :
    (upsertConnectionTombstone io id deletedAt).Ensures (NotLive id) (fun _ => IdsOk) E := by
  refine Ensures.bind (M := fun _ => NotLive id) (fun s hs => hs) fun now => ?_
  refine Ensures.bind (M := fun _ => NotLive id) ?_ fun _ => ?_
  · exact Ensures.modify fun s hs => ⟨hs.1.tidied (tidied_prune now s.data), hs.2⟩
  refine Ensures.getThe_bind fun s hs => ?_
  refine Ensures.bind (M := fun _ => IdsOk) ?_ fun _ => Ensures.pure fun _ hs => hs
  refine Ensures.modify ?_
  rintro _ rfl
  exact idsDistinct_upsertTombstone hs.1 hs.2

theorem eraseP_ids (l : List SavedConnection) :
    (l.eraseP (·.id == id)).map (·.id) = (l.map (·.id)).erase id := by
  induction l with
  | nil => rfl
  | cons conn l ih =>
    by_cases hid : conn.id = id
    · simp [hid]
    · rw [List.eraseP_cons_of_neg (by simp [hid]), List.map_cons, ih, List.map_cons,
        List.erase_cons_tail (by simp [hid])]

theorem notLive_removed (h : IdsDistinct d) :
    IdsDistinct (removeConnectionWithoutTombstone id d) ∧
      id ∉ liveIds (removeConnectionWithoutTombstone id d) := by
  have hids : liveIds (removeConnectionWithoutTombstone id d) = (liveIds d).erase id :=
    eraseP_ids d.connections
  have hlive : ∀ id' ∈ liveIds (removeConnectionWithoutTombstone id d), id' ∈ liveIds d := by
    rw [hids]
    exact fun _ hid' => List.mem_of_mem_erase hid'
  refine ⟨⟨?_, h.tombstones, fun id' hid' => h.disjoint id' (hlive id' hid')⟩, ?_⟩
  · rw [hids]
    exact h.live.erase id
  · rw [hids]
    exact h.live.not_mem_erase

theorem get_some (h : s.get id = some connection) :
    connection ∈ s.data.connections ∧ connection.id = id :=
  ⟨List.mem_of_find?_eq_some h, by simpa using List.find?_some h⟩

theorem get_none (h : s.get id = none) : id ∉ liveIds s.data := by
  intro hmem
  obtain ⟨conn, hconn, heq⟩ := List.mem_map.mp hmem
  have hne := List.find?_eq_none.mp h conn hconn
  simp [heq] at hne

theorem idsDistinct_removeConnectionWithTombstoneAt (id : Str) (deletedAt : Time) :
    (removeConnectionWithTombstoneAt io id deletedAt).Ensures IdsOk
      (fun removed s => IdsOk s ∧ (removed = none → id ∉ liveIds s.data)) E := by
  refine Ensures.getThe_bind fun s hs => ?_
  split
  · next hnone =>
      refine Ensures.pure ?_
      rintro _ rfl
      exact ⟨hs, fun _ => get_none hnone⟩
  · next removed hsome =>
      refine Ensures.bind (M := fun _ => NotLive removed.id) ?_ fun _ => ?_
      · refine Ensures.modify ?_
        rintro _ rfl
        rw [(get_some hsome).2]
        exact notLive_removed hs
      · refine Ensures.bind (idsDistinct_upsertConnectionTombstone io _ deletedAt) fun _ => ?_
        exact Ensures.pure fun s hs => ⟨hs, fun h => nomatch h⟩

theorem liveIds_modifyFirst {p : SavedConnection → Bool} {f : SavedConnection → SavedConnection}
    (hconn : d'.connections = modifyFirst p f d.connections) (hf : ∀ conn, (f conn).id = conn.id) :
    liveIds d' = liveIds d := by
  rw [liveIds, hconn]
  exact modifyFirst_map hf d.connections

theorem keepsIds_renameConnection (id name : Str) : KeepsIds (renameConnection io id name) := by
  refine sameData_getThe.keepsIds.bind fun s => ?_
  split
  · exact keepsIds_pure _
  · refine Ensures.lift_bind (fun _ hs => hs) fun name _ => ?_
    refine (preparing_clock io).sameData.keepsIds.bind fun now => ?_
    refine KeepsIds.bind ?_ fun _ => ?_
    · exact keepsIds_modifyData fun d h => h.same (liveIds_modifyFirst rfl fun _ => rfl) rfl
    refine (tidying_normalize io).keepsIds.bind fun _ => ?_
    exact (sameData_save io).keepsIds.bind fun _ => keepsIds_pure _

theorem keepsIds_markUsed (id : Str) : KeepsIds (markUsed io id) := by
  refine sameData_getThe.keepsIds.bind fun s => ?_
  split
  · exact keepsIds_pure _
  · refine (preparing_clock io).sameData.keepsIds.bind fun now => ?_
    refine KeepsIds.bind ?_ fun _ => ?_
    · exact keepsIds_modifyData fun d h => h.same (liveIds_modifyFirst rfl fun _ => rfl) rfl
    exact (sameData_save io).keepsIds.bind fun _ => keepsIds_pure _

/-! ## 6. A snapshot -/

theorem KeepsIds.inApply {α : Type} {act : StoreM α} (h : KeepsIds act) :
    ApplyKeepsData IdsDistinct (inApply act) :=
  Ensures.onFst fun _ => h

theorem applyKeepsIds_applyDeletion (before : BeforeSnapshot) (id : Str) (recordUpdatedAt : Time) :
    ApplyKeepsData IdsDistinct (applyDeletion io before id recordUpdatedAt) := by
  unfold applyDeletion
  split
  · exact fun _ hs => hs
  · refine Ensures.bind (Ensures.onFst fun _ =>
      idsDistinct_removeConnectionWithTombstoneAt io id recordUpdatedAt
        (E := IdsOk)) (M := fun removed s => IdsOk s.1 ∧ (removed = none → id ∉ liveIds s.1.data))
      fun removed => ?_
    cases removed with
    | some removed => exact fun _ hs => hs.1
    | none =>
      refine Ensures.bind (M := fun _ s => IdsOk s.1) ?_ fun changed => ?_
      · refine Ensures.onFst fun _ => ?_
        exact (idsDistinct_upsertConnectionTombstone io id recordUpdatedAt).weaken
          (fun _ hs => ⟨hs.1, hs.2 rfl⟩) (fun _ _ h => h) fun _ h => h
      · split <;> exact fun _ hs => hs

theorem idsDistinct_addConnection (h : IdsDistinct d) :
    IdsDistinct (addConnection connection d) := by
  have hkept : ∀ {l : List SavedConnection} {id : Str},
      id ∈ ((l.filter (·.id ≠ connection.id)).map (·.id)) → id ∈ l.map (·.id) ∧ id ≠ connection.id := by
    intro l id hid
    obtain ⟨conn, hconn, rfl⟩ := List.mem_map.mp hid
    obtain ⟨hmem, hne⟩ := List.mem_filter.mp hconn
    exact ⟨List.mem_map_of_mem hmem, by simpa using hne⟩
  have hlive : liveIds (addConnection connection d) =
      (d.connections.filter (·.id ≠ connection.id)).map (·.id) ++ [connection.id] :=
    List.map_append
  refine ⟨?_, h.tombstones.sublist (List.filter_sublist.map _), fun id hid htomb => ?_⟩
  · rw [hlive]
    refine List.nodup_append.mpr
      ⟨h.live.sublist (List.filter_sublist.map _), List.nodup_singleton _, ?_⟩
    rintro a ha b hb rfl
    exact (hkept ha).2 (List.mem_singleton.mp hb)
  · obtain ⟨tombstone, ht, heq⟩ := (mem_tombstoneIds).mp htomb
    obtain ⟨hmem, hne⟩ := List.mem_filter.mp ht
    rw [hlive] at hid
    rcases List.mem_append.mp hid with hid | hid
    · exact h.disjoint id (hkept hid).1 ((mem_tombstoneIds).mpr ⟨tombstone, hmem, heq⟩)
    · rw [List.mem_singleton.mp hid] at heq
      simp [heq] at hne

theorem applyKeepsIds_applyConnection (strategy : SavedConnectionsConflictStrategy) (id : Str)
    (payload : ConnectionInfo) (options : Option ConnectionOptions) (recordUpdatedAt : Time) :
    ApplyKeepsData IdsDistinct (applyConnection io strategy id payload options recordUpdatedAt) := by
  refine sameData_getThe.keepsIds.inApply.bind fun s => ?_
  dsimp only
  split
  · exact fun _ hs => hs
  · refine Ensures.bind (M := fun _ s => IdsOk s.1) ?_ fun _ => ?_
    · cases existingByName s id payload with
      | none => exact Ensures.pure fun _ hs => hs
      | some sameName =>
        refine Ensures.bind ?_ fun _ => fun _ hs => hs
        exact (keepsIds_modifyData fun _ h => (notLive_removed h).1).inApply
    refine Ensures.lift_bind (fun _ hs => hs) fun next _ => ?_
    refine Ensures.bind (M := fun _ s => IdsOk s.1) ?_ fun _ => ?_
    · cases (s.get id).or (existingByName s id payload) <;> exact fun _ hs => hs
    refine (tidying_ensureOptionalGroup io _).keepsIds.inApply.bind fun _ => ?_
    refine Ensures.bind ?_ fun _ => fun _ hs => hs
    exact (keepsIds_modifyData fun _ h => idsDistinct_addConnection h).inApply

/-! ## 7. Histories -/

end ConnectionStore

open ConnectionStore

/-- No id that the input of an operation names has a tombstone that lasts. -/
def FreeIds (io : Io) (op : ConnectionOp) (d : ConnectionStoreData) : Prop :=
  match op with
  | .upsert request => ∀ given, request.id = some given → Free io d given
  | .upsertImported connection =>
    (trim connection.id).isEmpty = false → Free io d connection.id
  | .importTransaction connections _ =>
    ∀ connection ∈ connections, (trim connection.id).isEmpty = false → Free io d connection.id
  | _ => True

theorem ConnectionOp.keepsIds (io : Io) (op : ConnectionOp) (s : ConnectionStore) (hs : IdsOk s)
    (hnew : NewUuids io s.data) (hfree : FreeIds io op s.data) : IdsOk (op.run io s) := by
  have hmade := madeGood_ids io s.data
  have hnearly := hs.nearly io
  cases op with
  | upsert request => exact (hmade.upsert hs hnearly (free_orNewUuid io hnew hfree)).state rfl
  | delete id =>
    have hremove := fun now =>
      idsDistinct_removeConnectionWithTombstoneAt io id now (E := IdsOk)
    exact (keepsData_delete io (tidying_normalize io).keepsIds fun now =>
      (hremove now).weaken (fun _ h => h) (fun _ _ h => h.1) fun _ h => h).state hs
  | rename id name => exact (keepsIds_renameConnection io id name).state hs
  | duplicate id => exact (idsDistinct_duplicate io hs hnew).state rfl
  | markUsed id => exact (keepsIds_markUsed io id).state hs
  | importSsh connection => exact (idsDistinct_importSshConnection io hs hnew).state rfl
  | upsertImported connection =>
    refine (hmade.upsertImportedConnection hs hnearly ?_).state rfl
    exact free_importedId io (fun s s' hdata hs => hdata.trans hs) hnew hfree
  | importTransaction connections managedKeys =>
    refine (hmade.importTransaction hs hnearly managedKeys fun conn hconn => ?_).state rfl
    exact free_importedId io (fun s s' hdata hs => hdata ▸ hs) hnew (hfree conn hconn)
  | applySnapshot snapshot strategy =>
    refine (keepsData_applySnapshot io (tidying_normalize io).keepsIds
      (fun before rec => ?_) (fun d _ _ h => h.same rfl rfl) snapshot).state hs
    exact applyKeepsData_applyRecord io (applyKeepsIds_applyDeletion io)
      (applyKeepsIds_applyConnection io strategy) before rec

theorem syncRecords_nodup (sha256Hex : SyncContent → Str) (now : Time) (h : IdsDistinct d) :
    ((savedConnectionsSyncRecords sha256Hex now d).map (·.id)).Nodup := by
  have hperm : (savedConnectionsSyncRecords sha256Hex now d).Perm
      (d.connections.map (buildSavedConnectionSyncRecord sha256Hex) ++
        (activeConnectionTombstones now d.connectionTombstones).map
          (buildSavedConnectionTombstoneRecord sha256Hex)) := List.perm_insertionSort _ _
  have hids := hperm.map (·.id)
  rw [List.map_append, List.map_map, List.map_map] at hids
  have hactive : ((activeConnectionTombstones now d.connectionTombstones).map (·.id)).Sublist
      (tombstoneIds d) := List.filter_sublist.map _
  refine hids.nodup_iff.mpr (List.nodup_append.mpr ⟨h.live, h.tombstones.sublist hactive, ?_⟩)
  rintro a ha b hb rfl
  exact h.disjoint a ha (hactive.subset hb)

/-- **A connection id is live or deleted, never both**, unless an operation is given the id of a
    deleted connection. -/
theorem live_or_tombstoned (history : List (Io × ConnectionOp))
    (hnew : StepsMeet ConnectionOp.run (fun io _ s => NewUuids io s.data) {} history)
    (hfree : StepsMeet ConnectionOp.run (fun io op s => FreeIds io op s.data) {} history) :
    let s := runs ConnectionOp.run {} history
    IdsDistinct s.data ∧ ∀ sha256Hex now,
      ((savedConnectionsSyncRecords sha256Hex now s.data).map (·.id)).Nodup := by
  have hs : IdsOk (runs ConnectionOp.run {} history) := by
    refine runs_induction_of (P := IdsOk)
      (fun io op s hs hmeets => op.keepsIds io s hs hmeets.1 hmeets.2) ?_ (hnew.and hfree)
    exact ⟨List.nodup_nil, List.nodup_nil, fun _ h => absurd h List.not_mem_nil⟩
  exact ⟨hs, fun sha256Hex now => syncRecords_nodup sha256Hex now hs⟩

/-- A world outside that refuses nothing, where the clock stands still. -/
def calmIo : Io where
  now _ := 0
  uuid k := List.replicate (k + 1) 'u'
  refuses _ := false
  toLowercase text := text

/-- A request without secrets. -/
def plainRequest (id : Option Str) (name : String) : SaveConnectionRequest where
  id
  name := name.toList
  host := "host".toList
  port := 22
  username := "me".toList
  auth := .agent

theorem newUuids_calm (h : ∀ id ∈ liveIds d ++ tombstoneIds d, id.head? ≠ some 'u') :
    NewUuids calmIo d := by
  have hnot : ∀ k, calmIo.uuid k ∉ liveIds d ++ tombstoneIds d := fun k hk => h _ hk rfl
  exact fun k => ⟨fun hk => hnot k (List.mem_append_left _ hk),
    fun hk => hnot k (List.mem_append_right _ hk)⟩

theorem Free.of_not_mem {id : Str} (h : id ∉ tombstoneIds d) : Free io d id :=
  fun tombstone ht hid => absurd ((mem_tombstoneIds).mpr ⟨tombstone, ht, hid⟩) h

theorem live_or_tombstoned_saved :
    IdsDistinct (runs ConnectionOp.run {}
      [(calmIo, .upsert (plainRequest (some "a".toList) "one")), (calmIo, .delete "a".toList),
        (calmIo, .upsert (plainRequest (some "b".toList) "two")),
        (calmIo, .duplicate "b".toList)]).data := by
  refine (live_or_tombstoned _ ?_ ?_).1
  · exact ⟨newUuids_calm (by decide), newUuids_calm (by decide), newUuids_calm (by decide),
      newUuids_calm (by decide), trivial⟩
  · refine ⟨?_, trivial, ?_, trivial, trivial⟩
    · rintro given hgiven
      cases hgiven
      exact Free.of_not_mem (by decide)
    · rintro given hgiven
      cases hgiven
      exact Free.of_not_mem (by decide)

/-- **Saved, deleted and saved again under its id a connection is live and deleted at once**, and its
    snapshot has two records of the id. -/
theorem upsert_deleted_id :
    let s := runs ConnectionOp.run {}
      [(calmIo, .upsert (plainRequest (some "a".toList) "one")), (calmIo, .delete "a".toList),
        (calmIo, .upsert (plainRequest (some "a".toList) "one"))]
    "a".toList ∈ liveIds s.data ∧
      "a".toList ∈ (activeConnectionTombstones 0 s.data.connectionTombstones).map (·.id) ∧
      (savedConnectionsSyncRecords (fun _ => []) 0 s.data).map (·.id) = ["a".toList, "a".toList] := by
  decide

end Hapcli.Connections
