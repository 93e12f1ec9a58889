/-
  Subject:   The connection registry counts its consumers, and its two maps are inverse.

  * **`counts_of_fresh`** -- the counts and the maps after every run.
-/
import Hapcli.Ssh.PoolKeys
import Hapcli.Ssh.RegistrySteps

namespace Hapcli.Ssh

open Hapcli.Rust

namespace SshConnectionRegistry

variable {registry registry' : SshConnectionRegistry} {free : Str → Prop}

/-! ## 1. The counts and the maps -/

/-- The counts of the entries are right, and the maps are inverse. -/
structure Consistent (registry : SshConnectionRegistry) : Prop where
  counted : ∀ {key entry}, registry.byKey.lookup key = some entry → entry.Counted
  key : ∀ {key entry}, registry.byKey.lookup key = some entry →
    entry.key = key ∧ registry.byId.lookup entry.connectionId = some key
  id : ∀ {id key}, registry.byId.lookup id = some key →
    ∃ entry, registry.byKey.lookup key = some entry ∧ entry.connectionId = id

variable {entry' : ConnectionEntry} {info : ConnectionInfo}
  {ownership : Option (Str × ConnectionConsumer)}

variable {connectionId : Str} {entry : ConnectionEntry}

namespace Consistent

theorem empty (config : ConnectionPoolConfig) : Consistent { config } :=
  ⟨fun h => (nomatch h), fun h => (nomatch h), fun h => (nomatch h)⟩

variable {key : Str}

section

variable (h : registry.Consistent)

include h

theorem find (hfind : registry.find connectionId = some (key, entry)) :
    entry.connectionId = connectionId := by
  obtain ⟨hbyId, hbyKey⟩ := find_eq_some_iff.mp hfind
  obtain ⟨entry', hentry', hid⟩ := h.id hbyId
  rw [hbyKey] at hentry'
  cases hentry'
  exact hid

theorem quiet (hquiet : Quiet free registry registry') : registry'.Consistent where
  counted hentry' := by
    obtain ⟨entry, hentry, hstep⟩ := hquiet.origin hentry'
    exact hstep.counted (h.counted hentry)
  key hentry' := by
    obtain ⟨entry, hentry, hstep⟩ := hquiet.origin hentry'
    rw [hstep.key, hstep.connectionId, hquiet.byId]
    exact h.key hentry
  id hid := by
    rw [hquiet.byId] at hid
    obtain ⟨entry, hentry, rfl⟩ := h.id hid
    obtain ⟨entry', hentry', hstep⟩ := hquiet.image hentry
    exact ⟨entry', hentry', hstep.connectionId⟩

theorem congr (hbyKey : registry'.byKey = registry.byKey)
    (hbyId : registry'.byId = registry.byId) : registry'.Consistent where
  counted hentry := h.counted (hbyKey ▸ hentry)
  key hentry := by
    rw [hbyId]
    exact h.key (hbyKey ▸ hentry)
  id hid := by
    rw [hbyKey]
    exact h.id (hbyId ▸ hid)

theorem put (hentry : registry.byKey.lookup key = some entry)
    (hid : entry'.connectionId = entry.connectionId) (hkey : entry'.key = entry.key)
    (hcounted : entry'.Counted) : (registry.put key entry').Consistent where
  counted {key' found} hfound := by
    rw [put_byKey, Map.lookup_insert_eq] at hfound
    split at hfound
    · cases hfound
      exact hcounted
    · exact h.counted hfound
  key {key' found} hfound := by
    rw [put_byKey, Map.lookup_insert_eq] at hfound
    split at hfound
    · next heq =>
        cases hfound
        rw [hkey, hid, heq]
        exact h.key hentry
    · exact h.key hfound
  id {id key'} hfound := by
    obtain ⟨found, hlookup, rfl⟩ := h.id hfound
    rw [put_byKey, Map.lookup_insert_eq]
    by_cases heq : key' = key
    · subst heq
      rw [hentry] at hlookup
      cases hlookup
      exact ⟨entry', by rw [if_pos rfl], hid⟩
    · exact ⟨found, by rw [if_neg heq]; exact hlookup, rfl⟩

theorem linked (hfind : registry.find connectionId = some (key, entry))
    (parentId : Option Str) (consumer : Option ConnectionConsumer) :
    (registry.put key (entry.linked parentId consumer)).Consistent := by
  have hentry := (find_eq_some_iff.mp hfind).2
  have hcounted := h.counted hentry
  exact h.put hentry rfl rfl ⟨hcounted.count, hcounted.nodup⟩

theorem insertEntry (hid : registry.byId.lookup entry.connectionId = none)
    (hkey : registry.byKey.lookup entry.key = none) (hcounted : entry.Counted) :
    (registry.insertEntry entry).Consistent where
  counted {key found} hfound := by
    rw [SshConnectionRegistry.insertEntry, Map.lookup_insert_eq] at hfound
    split at hfound
    · cases hfound
      exact hcounted
    · exact h.counted hfound
  key {key found} hfound := by
    rw [SshConnectionRegistry.insertEntry, Map.lookup_insert_eq] at hfound ⊢
    split at hfound
    · next heq =>
        cases hfound
        exact ⟨heq.symm, by rw [if_pos rfl, heq]⟩
    · obtain ⟨hname, hbyId⟩ := h.key hfound
      have hne : found.connectionId ≠ entry.connectionId := by
        intro heq
        rw [heq, hid] at hbyId
        cases hbyId
      exact ⟨hname, by rw [if_neg hne]; exact hbyId⟩
  id {id key} hfound := by
    rw [SshConnectionRegistry.insertEntry, Map.lookup_insert_eq] at hfound ⊢
    split at hfound
    · next heq =>
        cases hfound
        exact ⟨entry, by rw [if_pos rfl], heq.symm⟩
    · obtain ⟨found, hlookup, hname⟩ := h.id hfound
      have hne : key ≠ entry.key := by
        rintro rfl
        rw [hkey] at hlookup
        cases hlookup
      exact ⟨found, by rw [if_neg hne]; exact hlookup, hname⟩

theorem unregister
    (hunregister : registry.unregister connectionId = some (registry', info, ownership)) :
    registry'.Consistent := by
  obtain ⟨key, entry, hfind, hid, -, hbyKey, hbyId, -⟩ := unregister_spec hunregister
  obtain ⟨hkeyOf, hentry⟩ := find_eq_some_iff.mp hfind
  constructor
  · intro key' found hfound
    rw [hbyKey, Map.lookup_erase_eq] at hfound
    split at hfound
    · cases hfound
    · exact h.counted hfound
  · intro key' found hfound
    rw [hbyKey, Map.lookup_erase_eq] at hfound
    split at hfound
    · cases hfound
    · next hne =>
        obtain ⟨hname, hlookup⟩ := h.key hfound
        refine ⟨hname, ?_⟩
        rw [hbyId, Map.lookup_erase_eq, if_neg, hlookup]
        intro heq
        rw [heq, hkeyOf] at hlookup
        cases hlookup
        exact hne rfl
  · intro id key' hlookup
    rw [hbyId, Map.lookup_erase_eq] at hlookup
    split at hlookup
    · cases hlookup
    · next hne =>
        obtain ⟨found, hfound, hname⟩ := h.id hlookup
        refine ⟨found, ?_, hname⟩
        rw [hbyKey, Map.lookup_erase_eq, if_neg, hfound]
        rintro rfl
        rw [hentry] at hfound
        cases hfound
        exact hne (hname.symm.trans hid)

end

end Consistent

/-! ## 2. The entries behind the identifiers -/

theorem get_eq_some_iff :
    registry.get connectionId = some entry ↔
      ∃ key, registry.find connectionId = some (key, entry) := by
  unfold get
  rw [Option.map_eq_some_iff]
  constructor
  · rintro ⟨⟨key, found⟩, hfind, rfl⟩
    exact ⟨key, hfind⟩
  · rintro ⟨key, hfind⟩
    exact ⟨_, hfind, rfl⟩

theorem get_congr (hbyKey : registry'.byKey = registry.byKey)
    (hbyId : registry'.byId = registry.byId) (connectionId : Str) :
    registry'.get connectionId = registry.get connectionId := by
  unfold get find
  rw [hbyKey, hbyId]

theorem Quiet.get_origin (h : Quiet free registry registry')
    (hget : registry'.get connectionId = some entry') :
    ∃ entry, registry.get connectionId = some entry ∧
      EntryStep (free entry.connectionId) entry entry' := by
  obtain ⟨key, hfind⟩ := (get_eq_some_iff).mp hget
  obtain ⟨entry, hentry, hstep⟩ := h.find hfind
  exact ⟨entry, (get_eq_some_iff).mpr ⟨key, hentry⟩, hstep⟩

theorem Quiet.get_eq_none (h : Quiet free registry registry')
    (hget : registry'.get connectionId = none) : registry.get connectionId = none := by
  cases hbefore : registry.get connectionId with
  | none => rfl
  | some entry =>
    obtain ⟨key, hfind⟩ := (get_eq_some_iff).mp hbefore
    obtain ⟨hbyId, hbyKey⟩ := find_eq_some_iff.mp hfind
    obtain ⟨entry', hentry', -⟩ := h.image hbyKey
    have hafter : registry'.get connectionId = some entry' :=
      (get_eq_some_iff).mpr ⟨key, find_eq_some_iff.mpr ⟨h.byId ▸ hbyId, hentry'⟩⟩
    rw [hget] at hafter
    cases hafter

namespace Consistent

section

variable (h : registry.Consistent)

include h

theorem get (hget : registry.get connectionId = some entry) :
    entry.connectionId = connectionId := by
  obtain ⟨key, hfind⟩ := (get_eq_some_iff).mp hget
  exact h.find hfind

theorem eq_of_key {id id' key : Str}
    (hid : registry.byId.lookup id = some key) (hid' : registry.byId.lookup id' = some key) :
    id = id' := by
  obtain ⟨entry, hentry, rfl⟩ := h.id hid
  obtain ⟨entry', hentry', rfl⟩ := h.id hid'
  rw [hentry] at hentry'
  cases hentry'
  rfl

theorem get_put {key : Str}
    (hfind : registry.find connectionId = some (key, entry)) (entry' : ConnectionEntry) (id : Str) :
    (registry.put key entry').get id = if id = connectionId then some entry'
      else registry.get id := by
  obtain ⟨hbyId, hbyKey⟩ := find_eq_some_iff.mp hfind
  unfold SshConnectionRegistry.get SshConnectionRegistry.find
  rw [put_byId, put_byKey]
  by_cases hid : id = connectionId
  · subst hid
    simp [hbyId]
  · rw [if_neg hid]
    cases hother : registry.byId.lookup id with
    | none => rfl
    | some key' =>
      have hkey : key' ≠ key := fun heq => hid (h.eq_of_key (heq ▸ hother) hbyId)
      simp [AList.lookup_insert_ne hkey]

theorem get_unregister
    (hunregister : registry.unregister connectionId = some (registry', info, ownership))
    (id : Str) : registry'.get id = if id = connectionId then none else registry.get id := by
  obtain ⟨key, entry, hfind, -, -, hbyKey, hbyId, -⟩ := unregister_spec hunregister
  have hkey := (find_eq_some_iff.mp hfind).1
  unfold SshConnectionRegistry.get SshConnectionRegistry.find
  rw [hbyKey, hbyId]
  by_cases hid : id = connectionId
  · subst hid
    simp
  · rw [if_neg hid, AList.lookup_erase_ne hid]
    cases hother : registry.byId.lookup id with
    | none => rfl
    | some key' =>
      have hne : key' ≠ key := fun heq => hid (h.eq_of_key (heq ▸ hother) hkey)
      simp [AList.lookup_erase_ne hne]

theorem get_insertEntry (hkey : registry.byKey.lookup entry.key = none) (id : Str) :
    (registry.insertEntry entry).get id =
      if id = entry.connectionId then some entry else registry.get id := by
  unfold SshConnectionRegistry.get SshConnectionRegistry.find SshConnectionRegistry.insertEntry
  dsimp only
  by_cases hid : id = entry.connectionId
  · subst hid
    simp
  · rw [if_neg hid, AList.lookup_insert_ne hid]
    cases hother : registry.byId.lookup id with
    | none => rfl
    | some key' =>
      have hne : key' ≠ entry.key := by
        rintro rfl
        obtain ⟨found, hfound, -⟩ := h.id hother
        rw [hkey] at hfound
        cases hfound
      simp [AList.lookup_insert_ne hne]

theorem exists_unregister (hget : registry.get connectionId = some entry) :
    ∃ registry' info,
      registry.unregister connectionId = some (registry', info, entry.parentOwnership) := by
  obtain ⟨key, hfind⟩ := (get_eq_some_iff).mp hget
  obtain ⟨hbyId, hbyKey⟩ := find_eq_some_iff.mp hfind
  have hregistered : registry.connectionEntryIsRegistered connectionId key = true :=
    decide_eq_true ⟨hbyId, by rw [hbyKey, Option.map_some, h.get hget]⟩
  unfold SshConnectionRegistry.unregister
  rw [hfind]
  dsimp only
  rw [if_pos hregistered]
  exact ⟨_, _, rfl⟩

end

end Consistent

/-! ## 3. Runs -/

/-- The identifiers a call draws. -/
def Operation.uuids : Operation → List Str
  | .acquire _ _ uuid => [uuid]
  | .acquireDedicated _ _ poolUuid uuid => [poolUuid, uuid]
  | _ => []

/-- `Uuid::new_v4`: what is drawn are UUIDs, and none is drawn twice. -/
structure FreshUuids (drawn : List Str) : Prop where
  uuid : ∀ uuid ∈ drawn, IsUuid uuid
  nodup : drawn.Nodup

variable {drawn : List Str}

theorem FreshUuids.left {drawn' : List Str} (h : FreshUuids (drawn ++ drawn')) : FreshUuids drawn :=
  ⟨fun uuid hmem => h.uuid uuid (List.mem_append_left _ hmem), (List.nodup_append.mp h.nodup).1⟩

theorem FreshUuids.notMem {drawn' : List Str} (h : FreshUuids (drawn ++ drawn')) {uuid : Str}
    (hmem : uuid ∈ drawn') : uuid ∉ drawn := fun hdrawn =>
  (List.nodup_append.mp h.nodup).2.2 uuid hdrawn uuid hmem rfl

/-- A consistent registry whose names come from configurations and from identifiers drawn. -/
structure Pooled (parts : KeyParts) (drawn : List Str) (registry : SshConnectionRegistry) :
    Prop where
  consistent : registry.Consistent
  ids : ∀ {id key}, registry.byId.lookup id = some key → id ∈ drawn
  keys : ∀ {key entry}, registry.byKey.lookup key = some entry →
    (∃ config : SshConfig, key = config.connectionKey parts) ∨
      ∃ config, ∃ uuid ∈ drawn, key = dedicatedKey parts config uuid

namespace Pooled

variable {parts : KeyParts} {drawn' : List Str}

theorem empty (config : ConnectionPoolConfig) : Pooled parts [] { config } where
  consistent := .empty config
  ids h := (nomatch h)
  keys h := (nomatch h)

theorem more (h : Pooled parts drawn registry) (hsub : drawn ⊆ drawn') :
    Pooled parts drawn' registry where
  consistent := h.consistent
  ids hid := hsub (h.ids hid)
  keys hentry := by
    rcases h.keys hentry with hshared | ⟨config, uuid, huuid, hkey⟩
    · exact .inl hshared
    · exact .inr ⟨config, uuid, hsub huuid, hkey⟩

theorem kept (parts : KeyParts) (drawn : List Str) : Kept (Pooled parts drawn) where
  quiet hquiet h :=
    { consistent := h.consistent.quiet hquiet
      ids := fun hid => h.ids (hquiet.byId ▸ hid)
      keys := fun hentry => by
        obtain ⟨entry, hentry, -⟩ := hquiet.origin hentry
        exact h.keys hentry }
  unregister {registry registry' connectionId info ownership} hunregister h := by
    obtain ⟨key, entry, -, -, -, hbyKey, hbyId, -⟩ := unregister_spec hunregister
    refine ⟨h.consistent.unregister hunregister, fun {id key'} hid => ?_,
      fun {key' found} hfound => ?_⟩
    · rw [hbyId, Map.lookup_erase_eq] at hid
      split at hid
      · cases hid
      · exact h.ids hid
    · rw [hbyKey, Map.lookup_erase_eq] at hfound
      split at hfound
      · cases hfound
      · exact h.keys hfound

section

variable (h : Pooled parts drawn registry)

include h

theorem linked {key : Str} (hfind : registry.find connectionId = some (key, entry))
    (parentId : Option Str) (consumer : Option ConnectionConsumer) :
    Pooled parts drawn (registry.put key (entry.linked parentId consumer)) where
  consistent := h.consistent.linked hfind parentId consumer
  ids hlookup := h.ids hlookup
  keys {key' found} hfound := by
    rw [put_byKey, Map.lookup_insert_eq] at hfound
    split at hfound
    · next heq => exact h.keys (heq ▸ (find_eq_some_iff.mp hfind).2)
    · exact h.keys hfound

theorem congr (hbyKey : registry'.byKey = registry.byKey)
    (hbyId : registry'.byId = registry.byId) : Pooled parts drawn registry' where
  consistent := h.consistent.congr hbyKey hbyId
  ids hid := h.ids (hbyId ▸ hid)
  keys hentry := h.keys (hbyKey ▸ hentry)

theorem lookup_new {id : Str} (hid : id ∉ drawn) : registry.byId.lookup id = none := by
  cases hlookup : registry.byId.lookup id with
  | none => rfl
  | some key => exact absurd (h.ids hlookup) hid

end

theorem lookup_dedicatedKey (hparts : parts.Digests) (h : Pooled parts drawn registry)
    {poolUuid uuid : Str} (hfresh : FreshUuids (drawn ++ [poolUuid, uuid])) (config : SshConfig) :
    registry.byKey.lookup (dedicatedKey parts config poolUuid) = none := by
  have hpool : IsUuid poolUuid :=
    hfresh.uuid _ (List.mem_append_right _ List.mem_cons_self)
  cases hentry : registry.byKey.lookup (dedicatedKey parts config poolUuid) with
  | none => rfl
  | some entry =>
    -- its name would come from elsewhere
    rcases h.keys hentry with ⟨config', hkey⟩ | ⟨config', uuid', huuid', hkey⟩
    · exact absurd hkey (dedicatedKey_ne hparts hpool config config')
    · have heq := dedicatedKey_inj hpool (hfresh.left.uuid _ huuid') hkey
      exact absurd (heq ▸ huuid') (hfresh.notMem List.mem_cons_self)

theorem insertEntry (h : Pooled parts drawn registry)
    (hid : entry.connectionId ∉ drawn) (hkey : registry.byKey.lookup entry.key = none)
    (hcounted : entry.Counted) (hsub : drawn ⊆ drawn') (hdrawn : entry.connectionId ∈ drawn')
    (hname : (∃ config : SshConfig, entry.key = config.connectionKey parts) ∨
      ∃ config, ∃ uuid ∈ drawn', entry.key = dedicatedKey parts config uuid) :
    Pooled parts drawn' (registry.insertEntry entry) where
  consistent := h.consistent.insertEntry (h.lookup_new hid) hkey hcounted
  ids {id key} hlookup := by
    rw [SshConnectionRegistry.insertEntry, Map.lookup_insert_eq] at hlookup
    split at hlookup
    · next heq => exact heq ▸ hdrawn
    · exact hsub (h.ids hlookup)
  keys {key found} hfound := by
    rw [SshConnectionRegistry.insertEntry, Map.lookup_insert_eq] at hfound
    split at hfound
    · next heq => exact heq ▸ hname
    · exact (h.more hsub).keys hfound

theorem step (hparts : parts.Digests) (h : Pooled parts drawn registry) {operation : Operation}
    (hfresh : FreshUuids (drawn ++ operation.uuids)) :
    Pooled parts (drawn ++ operation.uuids) (registry.step parts operation) := by
  have hsub : drawn ⊆ drawn ++ operation.uuids := List.subset_append_left ..
  by_cases hlocal : operation.addsOrLinks = false
  · exact (kept parts _).step parts (h.more hsub) hlocal
  cases operation with
  | acquire config consumer uuid =>
    rcases registry.acquire_cases parts config consumer uuid with hstill | ⟨hkey, hstill⟩
    · exact (kept parts _).still hstill (h.more hsub)
    · exact (kept parts _).still hstill (h.insertEntry (hfresh.notMem List.mem_cons_self) hkey
        ⟨rfl, List.nodup_nil⟩ hsub (List.mem_append_right _ List.mem_cons_self)
        (.inl ⟨config, rfl⟩))
  | acquireDedicated config consumer poolUuid uuid =>
    have hid : uuid ∈ [poolUuid, uuid] := List.mem_cons_of_mem _ List.mem_cons_self
    exact h.insertEntry (hfresh.notMem hid) (h.lookup_dedicatedKey hparts hfresh config)
      ⟨rfl, List.nodup_singleton consumer⟩ hsub (List.mem_append_right _ hid)
      (.inr ⟨config, poolUuid, List.mem_append_right _ List.mem_cons_self, rfl⟩)
  | setParentConnectionId connectionId parentConnectionId =>
    refine Pooled.more ?_ hsub
    show Pooled parts drawn (registry.setParentConnectionId connectionId parentConnectionId).1
    rcases registry.setParentConnectionId_cases connectionId parentConnectionId with
      heq | ⟨key, entry, hfind, ⟨parentId, -, heq⟩ | ⟨-, heq⟩⟩
    · rw [heq]
      exact h
    · rw [heq]
      exact h.linked hfind (some parentId) entry.parentConnectionConsumer
    · rw [heq]
      exact (kept parts drawn).releaseOwnership ((h.linked hfind none none).congr
        (noteReleased_byKey ..) (noteReleased_byId ..)) entry.parentOwnership
  | setParentConnectionOwnership connectionId parentConnectionId parentConsumer =>
    refine Pooled.more ?_ hsub
    show Pooled parts drawn (registry.setParentConnectionOwnership connectionId
      parentConnectionId parentConsumer).1
    rcases registry.setParentConnectionOwnership_cases connectionId parentConnectionId
      parentConsumer with heq | ⟨key, entry, noted, hfind, -, heq⟩
    · rw [heq]
      exact h
    · rw [heq]
      exact (h.linked hfind (some parentConnectionId) (some parentConsumer)).congr rfl rfl
  | _ => exact absurd rfl hlocal

end Pooled

/-- Every step of a run meets a condition on the state before it. -/
def EveryStep (parts : KeyParts) (condition : SshConnectionRegistry → Operation → Prop) :
    SshConnectionRegistry → List Operation → Prop
  | _, [] => True
  | registry, operation :: rest =>
    condition registry operation ∧ EveryStep parts condition (registry.step parts operation) rest

theorem run_rule {parts : KeyParts} (hparts : parts.Digests)
    {condition : SshConnectionRegistry → Operation → Prop}
    {P : List Str → SshConnectionRegistry → Prop}
    (hstep : ∀ {registry drawn operation}, Pooled parts drawn registry →
      FreshUuids (drawn ++ operation.uuids) → condition registry operation → P drawn registry →
        P (drawn ++ operation.uuids) (registry.step parts operation))
    {operations : List Operation} (h : Pooled parts drawn registry)
    (hfresh : FreshUuids (drawn ++ operations.flatMap Operation.uuids))
    (hcondition : EveryStep parts condition registry operations) (hP : P drawn registry) :
    Pooled parts (drawn ++ operations.flatMap Operation.uuids) (registry.run parts operations) ∧
      P (drawn ++ operations.flatMap Operation.uuids) (registry.run parts operations) := by
  induction operations generalizing registry drawn with
  | nil =>
    rw [List.flatMap_nil, List.append_nil]
    exact ⟨h, hP⟩
  | cons operation rest ih =>
    rw [List.flatMap_cons, ← List.append_assoc] at hfresh ⊢
    exact ih (h.step hparts hfresh.left) hfresh hcondition.2
      (hstep h hfresh.left hcondition.1 hP)

theorem everyStep_trivial (parts : KeyParts) (operations : List Operation)
    (registry : SshConnectionRegistry) : EveryStep parts (fun _ _ => True) registry operations := by
  induction operations generalizing registry with
  | nil => trivial
  | cons operation rest ih => exact ⟨trivial, ih _⟩

theorem pooled_run {parts : KeyParts} (hparts : parts.Digests) {operations : List Operation}
    (hfresh : FreshUuids (operations.flatMap Operation.uuids)) (config : ConnectionPoolConfig) :
    Pooled parts (operations.flatMap Operation.uuids) (run parts { config } operations) :=
  (run_rule hparts (fun _ _ _ _ => trivial) (Pooled.empty config) hfresh
    (everyStep_trivial parts operations _) (P := fun _ _ => True) trivial).1

/-- What a reader of the registry counts and looks up. -/
structure CountsAndMaps (registry : SshConnectionRegistry) : Prop where
  count : ∀ key entry, registry.byKey.lookup key = some entry →
    entry.refCount = entry.consumers.length
  nodup : ∀ key entry, registry.byKey.lookup key = some entry → entry.consumers.Nodup
  /-- an identifier leads to a key exactly when the entry at the key bears it -/
  inverse : ∀ id key, registry.byId.lookup id = some key ↔
    ∃ entry, registry.byKey.lookup key = some entry ∧ entry.connectionId = id
  key : ∀ key entry, registry.byKey.lookup key = some entry → entry.key = key

/-- **After every run each entry counts its consumers, which differ, and the maps are inverse.** -/
theorem counts_of_fresh {parts : KeyParts} (hparts : parts.Digests) {operations : List Operation}
    (hfresh : FreshUuids (operations.flatMap Operation.uuids)) (config : ConnectionPoolConfig) :
    (run parts { config } operations).CountsAndMaps := by
  have h := (pooled_run hparts hfresh config).consistent
  refine ⟨fun key entry hentry => (h.counted hentry).count,
    fun key entry hentry => (h.counted hentry).nodup, fun id key => ⟨h.id, ?_⟩,
    fun key entry hentry => (h.key hentry).1⟩
  rintro ⟨entry, hentry, rfl⟩
  exact (h.key hentry).2

/-- A shared and a dedicated connection: the dedicated one is borrowed twice by the same consumer,
    released by both, and gone. -/
theorem counts_of_fresh_borrowed :
    (run ⟨fun _ => List.replicate 64 'a', fun _ => [], fun _ => []⟩ {}
      [.acquire {} (.sftp ['s']) "6b86b273-ff34-4ce1-9d6b-804eff5a3f57".toList,
        .acquireDedicated {} (.terminal ['t']) "d4735e3a-265e-46ee-a03f-59718b9b5d03".toList
          "4e074085-62be-4b8b-8c60-5ce3f2a8f5a1".toList,
        .acquireConsumerForConnection "4e074085-62be-4b8b-8c60-5ce3f2a8f5a1".toList (.ide ['i']),
        .acquireConsumerForConnection "4e074085-62be-4b8b-8c60-5ce3f2a8f5a1".toList (.ide ['i']),
        .release "4e074085-62be-4b8b-8c60-5ce3f2a8f5a1".toList (.terminal ['t']),
        .release "4e074085-62be-4b8b-8c60-5ce3f2a8f5a1".toList (.ide ['i'])]).CountsAndMaps := by
  refine counts_of_fresh (fun bytes => ⟨List.length_replicate .., fun c hc => ?_⟩)
    ⟨by decide, by decide⟩ {}
  rw [List.eq_of_mem_replicate hc]
  decide

end SshConnectionRegistry

end Hapcli.Ssh
