/-
  Subject:   The groups of session assets over whole histories of operations.

  * `madeGood_groups`, `applyKeeps_applyConnection` and the others -- the operations;
    **`StoreOp.keepsGroups`** -- all of them;
  * `RenamedBy`, **`renameGroup_ensures`**, `deleteGroup_clears` -- what a rename and a deletion leave;
  * **`group_tree_consistent`** -- the tree of the groups, in every store reached.
-/
import Hapcli.Connections.DataInvariants

namespace Hapcli.Connections

open Hapcli.Lib Hapcli.Rust
open Lib.Action (Ensures Keeps lift each)

namespace ConnectionStore

variable (io : Io)

/-! ## 1. What a call does to the groups -/

/-- The groups of a store are consistent. -/
abbrev GroupsOk (s : ConnectionStore) : Prop := GroupsConsistent s.data

/-- No group twice; the assets' groups may not be filed. -/
abbrev GroupsNodup (s : ConnectionStore) : Prop := s.data.groups.Nodup

/-- Consistent groups stay consistent, whatever comes of the call. -/
abbrev KeepsGroups {α : Type} (act : StoreM α) : Prop :=
  act.Ensures GroupsOk (fun _ => GroupsOk) GroupsOk

/-- The assets' groups are filed when the call is done, whatever comes of it. -/
abbrev FixesGroups {α : Type} (act : StoreM α) : Prop :=
  act.Ensures GroupsNodup (fun _ => GroupsOk) GroupsOk

variable {s : ConnectionStore}

theorem GroupsOk.of_data {s' : ConnectionStore} (hs : GroupsOk s) (h : s'.data = s.data) :
    GroupsOk s' := by
  rw [GroupsOk, h]
  exact hs

section Steps

variable {α β : Type} {act : StoreM α}

theorem SameData.keepsGroups (h : SameData act) : KeepsGroups act := h.keepsData

theorem Preparing.keepsGroups (h : Preparing act) : KeepsGroups act := h.sameData.keepsGroups

theorem KeepsGroups.bind {f : α → StoreM β} (hact : KeepsGroups act)
    (hf : ∀ a, KeepsGroups (f a)) : KeepsGroups (act >>= f) :=
  Ensures.bind hact hf

theorem keepsGroups_pure (a : α) : KeepsGroups (pure a : StoreM α) := (sameData_pure a).keepsGroups

theorem KeepsGroups.getThe {f : ConnectionStore → StoreM β} (hf : ∀ s, KeepsGroups (f s)) :
    KeepsGroups (getThe ConnectionStore >>= f) :=
  sameData_getThe.keepsGroups.bind hf

theorem KeepsGroups.lift {r : Except StoreError α} {f : α → StoreM β}
    (hf : ∀ a, r = .ok a → KeepsGroups (f a)) : KeepsGroups (lift r >>= f) :=
  Ensures.lift_bind (fun _ hs => hs) hf

variable {f : ConnectionStoreData → ConnectionStoreData}

theorem keepsGroups_modifyData
    (h : ∀ d, GroupsConsistent d → GroupsConsistent (f d)) : KeepsGroups (modifyData f) :=
  Ensures.modify fun s hs => h s.data hs

variable {E : ConnectionStore → Prop} {group : Option Str} {name : Str} {next : Unit → StoreM β}

theorem keepsGroups_modifyData_bind
    (h : ∀ d, (f d).groups = d.groups) (hnext : ∀ u, FixesGroups (next u)) :
    KeepsGroups (modifyData f >>= next) := by
  refine Ensures.bind (M := fun _ => GroupsNodup) ?_ hnext
  refine Ensures.modify fun s hs => ?_
  show (f s.data).groups.Nodup
  rw [h]
  exact hs.nodup

theorem fixesGroups_normalize_bind (hnext : ∀ u, KeepsGroups (next u)) :
    FixesGroups (normalize io >>= next) := by
  refine Ensures.bind (M := fun _ => GroupsOk) ?_ hnext
  refine Ensures.bind (M := fun _ => GroupsNodup) (fun _ hs => hs) fun now => ?_
  exact Ensures.modify fun s hs => normalizeData_consistent io now hs

theorem keepsGroups_normalize : KeepsGroups (normalize io) := by
  refine Ensures.bind (M := fun _ => GroupsOk) (fun _ hs => hs) fun now => ?_
  exact Ensures.modify fun s hs => normalizeData_consistent io now hs.nodup

theorem keepsGroups_save : KeepsGroups (save io) := (sameData_save io).keepsGroups

/-! ## 2. Filing a group -/

/-- No group twice, and every group an asset names is filed or is this one. -/
structure FiledBut (group : Option Str) (s : ConnectionStore) : Prop where
  nodup : s.data.groups.Nodup
  covers : ∀ g ∈ assetGroups s.data, g ∈ s.data.groups ∨ group = some g

theorem nodup_push {groups : List Str} (h : groups.Nodup) (hname : name ∉ groups) :
    (groups ++ [name]).Nodup := by
  have hpush := nodup_pushGroup h name
  rwa [pushGroup, if_neg hname] at hpush

theorem ensureName (s : ConnectionStore) :
    Ensures (fun s' => s' = s ∧ FiledBut (some name) s)
      (if name ∈ s.data.groups then pure ()
        else do
          modifyData fun data => { data with groups := data.groups ++ [name] }
          normalize io)
      (fun _ s => GroupsOk s ∧ name ∈ s.data.groups) E := by
  split
  · next hmem =>
      rintro _ ⟨rfl, hs⟩
      refine ⟨⟨hs.nodup, fun g hg => ?_⟩, hmem⟩
      rcases hs.covers g hg with hfiled | hname
      · exact hfiled
      · cases hname
        exact hmem
  · next hnot =>
      refine Ensures.bind (M := fun _ s => GroupsOk s ∧ name ∈ s.data.groups) ?_ fun _ => ?_
      · rintro _ ⟨rfl, hs⟩
        refine ⟨⟨nodup_push hs.nodup hnot, fun g hg => ?_⟩, ?_⟩
        · rcases hs.covers g hg with hfiled | hname
          · exact List.mem_append_left _ hfiled
          · cases hname
            exact List.mem_append_right _ (List.mem_singleton_self _)
        · exact List.mem_append_right _ (List.mem_singleton_self _)
      · refine Ensures.bind (M := fun _ s => GroupsOk s ∧ name ∈ s.data.groups)
          (fun _ hs => hs) fun now => ?_
        refine Ensures.modify fun s hs => ?_
        exact ⟨normalizeData_consistent io now hs.1.nodup,
          (groups_normalizeData io now hs.1).mem_iff.mpr hs.2⟩

theorem ensureGroup_valid (hvalid : validateGroupName name = .ok name) :
    (ensureGroup io name).Ensures (FiledBut (some name))
      (fun _ s => GroupsOk s ∧ name ∈ s.data.groups) E := by
  unfold ensureGroup
  rw [hvalid, Action.lift_ok_bind]
  exact Ensures.getThe_bind fun s hs =>
    (ensureName io s).weaken (fun _ h => ⟨h, hs⟩) (fun _ _ h => h) fun _ h => h

/-- A group as `normalize_optional_group_name` gives it: none, or one in its valid form. -/
def ValidGroup (group : Option Str) : Prop :=
  ∀ name, group = some name → validateGroupName name = .ok name

theorem ensureOptionalGroup_valid (hvalid : ValidGroup group) :
    (ensureOptionalGroup io group).Ensures (FiledBut group)
      (fun _ s => GroupsOk s ∧ ∀ name, group = some name → name ∈ s.data.groups) E := by
  cases group with
  | none =>
    refine Ensures.pure fun s hs => ⟨⟨hs.nodup, fun g hg => ?_⟩, ?_⟩
    · exact (hs.covers g hg).resolve_right (Option.some_ne_none _ ∘ Eq.symm)
    · exact fun _ h => absurd h.symm (Option.some_ne_none _)
  | some name =>
    refine (ensureGroup_valid io (hvalid name rfl)).weaken (fun _ h => h) ?_ fun _ h => h
    rintro _ s ⟨hs, hmem⟩
    exact ⟨hs, fun _ h => Option.some.inj h ▸ hmem⟩

theorem GroupsOk.filedBut (h : GroupsOk s) (group : Option Str) : FiledBut group s :=
  ⟨h.nodup, fun g hg => .inl (h.covers g hg)⟩

theorem keepsGroups_ensureGroup (name : Str) : KeepsGroups (ensureGroup io name) := by
  refine KeepsGroups.lift fun name _ => ?_
  exact Ensures.getThe_bind fun s hs =>
    (ensureName io s).weaken (fun _ h => ⟨h, hs.filedBut _⟩) (fun _ _ h => h.1) fun _ h => h

theorem keepsGroups_ensureOptionalGroup (group : Option Str) :
    KeepsGroups (ensureOptionalGroup io group) := by
  cases group with
  | none => exact keepsGroups_pure _
  | some name => exact keepsGroups_ensureGroup io name

theorem ensureOptionalGroup_nodup (hvalid : ValidGroup group) :
    (ensureOptionalGroup io group).Ensures GroupsNodup (fun _ => GroupsNodup) E := by
  cases group with
  | none => exact Ensures.pure fun _ hs => hs
  | some name =>
    show (ensureGroup io name).Ensures GroupsNodup (fun _ => GroupsNodup) E
    unfold ensureGroup
    rw [hvalid name rfl, Action.lift_ok_bind]
    refine Ensures.getThe_bind fun s hs => ?_
    split
    · rintro _ rfl
      exact hs
    · next hnot =>
        refine Ensures.bind (M := fun _ => GroupsNodup) ?_ fun _ => ?_
        · rintro _ rfl
          exact nodup_push hs hnot
        · refine Ensures.bind (M := fun _ => GroupsNodup) (fun _ hs => hs) fun now => ?_
          exact Ensures.modify fun s hs => (normalizeData_consistent io now hs).nodup

theorem ensureOptionalGroup_succeeds (hvalid : ValidGroup group) :
    (ensureOptionalGroup io group).Ensures (fun _ => True) (fun _ _ => True) fun _ => False := by
  cases group with
  | none => exact Ensures.pure fun _ _ => trivial
  | some name =>
    show (ensureGroup io name).Ensures (fun _ => True) (fun _ _ => True) fun _ => False
    unfold ensureGroup
    rw [hvalid name rfl, Action.lift_ok_bind]
    refine Ensures.getThe_bind fun s _ => ?_
    split
    · exact Ensures.pure fun _ _ => trivial
    · exact fun _ _ => trivial

theorem ensureOptionalGroup_ok (hvalid : ValidGroup group) (s : ConnectionStore) :
    ∃ s', ensureOptionalGroup io group s = (.ok (), s') ∧ Tidies s s' := by
  have htidies := tidying_ensureOptionalGroup io group s
  rcases hrun : ensureOptionalGroup io group s with ⟨e | u, s'⟩
  · exact ((ensureOptionalGroup_succeeds io hvalid).error trivial hrun).elim
  · rw [hrun] at htidies
    exact ⟨s', rfl, htidies⟩

theorem validGroup_normalize {valid : Option Str}
    (h : normalizeOptionalGroupName group = .ok valid) : ValidGroup valid := by
  rintro name rfl
  exact normalizeOptionalGroupName_valid h

end Steps

/-! ## 3. Connections -/

theorem keepsGroups_orNewUuid (id : Option Str) : KeepsGroups (orNewUuid io id) :=
  (preparing_orNewId id (preparing_newUuid io)).keepsGroups

theorem keepsGroups_upsertConnectionTombstone (id : Str) (deletedAt : Time) :
    KeepsGroups (upsertConnectionTombstone io id deletedAt) := by
  refine (preparing_clock io).keepsGroups.bind fun now => ?_
  refine KeepsGroups.bind ?_ fun _ => ?_
  · exact keepsGroups_modifyData fun _ h => h.shrink rfl fun _ hg => hg
  refine KeepsGroups.getThe fun s => ?_
  refine KeepsGroups.bind ?_ fun _ => keepsGroups_pure _
  exact keepsGroups_modifyData fun _ h => h.shrink rfl fun _ hg => hg

theorem removeConnectionWithoutTombstone_consistent (id : Str) {d : ConnectionStoreData}
    (h : GroupsConsistent d) : GroupsConsistent (removeConnectionWithoutTombstone id d) := by
  refine h.shrink rfl (assetGroups_mono (fun g hg => ?_)
    (fun _ hg => mem_assetGroups_serial (d := d) hg)
    (fun _ hg => mem_assetGroups_telnet (d := d) hg)
    fun _ hg => mem_assetGroups_remoteDesktop (d := d) hg)
  exact mem_assetGroups_connections (mem_filterMap_sublist List.eraseP_sublist g hg)

theorem keepsGroups_removeConnectionWithTombstoneAt (id : Str) (deletedAt : Time) :
    KeepsGroups (removeConnectionWithTombstoneAt io id deletedAt) := by
  refine KeepsGroups.getThe fun s => ?_
  split
  · exact keepsGroups_pure _
  · refine KeepsGroups.bind ?_ fun _ => ?_
    · exact keepsGroups_modifyData fun _ h => removeConnectionWithoutTombstone_consistent id h
    · exact (keepsGroups_upsertConnectionTombstone io _ _).bind fun _ => keepsGroups_pure _

theorem consistent_modifyConnections {p : SavedConnection → Bool}
    {f : SavedConnection → SavedConnection} {d d' : ConnectionStoreData} (h : GroupsConsistent d)
    (hgroups : d'.groups = d.groups) (hconn : d'.connections = modifyFirst p f d.connections)
    (hf : ∀ conn, (f conn).group = conn.group)
    (hrest : d'.serialProfiles = d.serialProfiles ∧ d'.telnetProfiles = d.telnetProfiles ∧
      d'.remoteDesktopProfiles = d.remoteDesktopProfiles) : GroupsConsistent d' := by
  obtain ⟨hserial, htelnet, hremote⟩ := hrest
  refine h.shrink hgroups fun g hg => ?_
  have hsame : (modifyFirst p f d.connections).filterMap (·.group) =
      d.connections.filterMap (·.group) := modifyFirst_filterMap hf d.connections
  rwa [assetGroups, hconn, hserial, htelnet, hremote, hsame] at hg

theorem keepsGroups_renameConnection (id name : Str) :
    KeepsGroups (renameConnection io id name) := by
  refine KeepsGroups.getThe fun s => ?_
  split
  · exact keepsGroups_pure _
  · refine KeepsGroups.lift fun name _ => ?_
    refine (preparing_clock io).keepsGroups.bind fun now => ?_
    refine KeepsGroups.bind ?_ fun _ => ?_
    · exact keepsGroups_modifyData fun _ h =>
        consistent_modifyConnections h rfl rfl (fun _ => rfl) ⟨rfl, rfl, rfl⟩
    refine (keepsGroups_normalize io).bind fun _ => ?_
    exact (keepsGroups_save io).bind fun _ => keepsGroups_pure _

theorem keepsGroups_markUsed (id : Str) : KeepsGroups (markUsed io id) := by
  refine KeepsGroups.getThe fun s => ?_
  split
  · exact keepsGroups_pure _
  · refine (preparing_clock io).keepsGroups.bind fun now => ?_
    refine KeepsGroups.bind ?_ fun _ => ?_
    · exact keepsGroups_modifyData fun _ h =>
        consistent_modifyConnections h rfl rfl (fun _ => rfl) ⟨rfl, rfl, rfl⟩
    exact (keepsGroups_save io).bind fun _ => keepsGroups_pure _

theorem keepsGroups_importSshConnection (connection : SavedConnection) :
    KeepsGroups (importSshConnection io connection) := by
  refine (preparing_newUuid io).keepsGroups.bind fun id => ?_
  refine (preparing_clock io).keepsGroups.bind fun createdAt => ?_
  refine (preparing_clock io).keepsGroups.bind fun updatedAt => ?_
  refine (preparing_materializeAuthAlone io _ _).keepsGroups.bind fun auth => ?_
  refine (preparing_materializeProxyChainAlone io _).keepsGroups.bind fun proxyChain => ?_
  refine (preparing_materializeUpstreamProxyPolicyAlone io _ _).keepsGroups.bind
    fun upstreamProxy => ?_
  refine (keepsGroups_ensureOptionalGroup io _).bind fun _ => ?_
  refine keepsGroups_modifyData_bind (fun _ => rfl) fun _ => ?_
  refine fixesGroups_normalize_bind io fun _ => ?_
  exact (keepsGroups_save io).bind fun _ => (sameData_savedInfo id).keepsGroups

theorem madeGood_groups :
    MadeGood io GroupsConsistent (·.groups.Nodup) fun _ => True where
  normalize k _ h := normalizeData_consistent io (io.now k) h
  put _ _ _ h := h
  keys _ _ h := h
  group _ _ hgroup _ := ensureOptionalGroup_nodup io (validGroup_normalize hgroup)

theorem any_importedId {P E : ConnectionStore → Prop}
    (hP : ∀ s s' : ConnectionStore, s'.data = s.data → P s → P s') (connection : SavedConnection) :
    (importedId io connection).Ensures P (fun _ s => P s ∧ True) E := by
  unfold importedId
  split
  · exact fun s hs => ⟨hP s _ rfl hs, trivial⟩
  · exact Ensures.pure fun s hs => ⟨hs, trivial⟩

/-! ## 4. A snapshot -/

theorem KeepsGroups.inApply {α : Type} {act : StoreM α} (h : KeepsGroups act) :
    ApplyKeepsData GroupsConsistent (inApply act) :=
  Ensures.onFst fun _ => h

theorem applyKeeps_applyDeletion (before : BeforeSnapshot) (id : Str) (recordUpdatedAt : Time) :
    ApplyKeepsData GroupsConsistent (applyDeletion io before id recordUpdatedAt) := by
  unfold applyDeletion
  split
  · exact fun _ hs => hs
  · refine (keepsGroups_removeConnectionWithTombstoneAt io id _).inApply.bind fun removed => ?_
    cases removed with
    | some removed => exact fun _ hs => hs
    | none =>
      refine (keepsGroups_upsertConnectionTombstone io id _).inApply.bind fun changed => ?_
      split <;> exact fun _ hs => hs

theorem validGroup_synced {payload : ConnectionInfo} {options : Option ConnectionOptions}
    {recordUpdatedAt : Time} {existing : Option SavedConnection} {preserveAuth : Bool}
    {next : SavedConnection}
    (h : buildSavedConnectionFromSyncPayload payload options recordUpdatedAt existing preserveAuth =
      .ok next) : ValidGroup next.group :=
  validGroup_normalize (synced_of_ok h).group

theorem applyKeeps_removeSameName (byName : Option SavedConnection) :
    ApplyKeepsData GroupsConsistent (removeSameName byName) := by
  cases byName with
  | none => exact Ensures.pure fun _ hs => hs
  | some sameName =>
    exact (keepsGroups_modifyData fun _ h =>
      removeConnectionWithoutTombstone_consistent _ h).inApply

theorem applyKeeps_noteStaleEntries (baseline : Option SavedConnection) (next : SavedConnection) :
    ApplyKeepsData GroupsConsistent (noteStaleEntries baseline next) := by
  cases baseline with
  | none => exact Ensures.pure fun _ hs => hs
  | some existing => exact fun _ hs => hs

theorem applyKeeps_applyConnection (strategy : SavedConnectionsConflictStrategy) (id : Str)
    (payload : ConnectionInfo) (options : Option ConnectionOptions) (recordUpdatedAt : Time) :
    ApplyKeepsData GroupsConsistent (applyConnection io strategy id payload options recordUpdatedAt) := by
  refine (sameData_getThe.keepsGroups.inApply).bind fun s => ?_
  dsimp only
  split
  · exact fun _ hs => hs
  · refine (applyKeeps_removeSameName _).bind fun _ => ?_
    refine Ensures.lift_bind (fun _ hs => hs) fun next hnext => ?_
    refine (applyKeeps_noteStaleEntries _ _).bind fun _ => ?_
    -- the group is filed first, and the connection that names it is added then
    refine Ensures.bind (M := fun _ s => GroupsOk s.1 ∧
      ∀ name, next.group = some name → name ∈ s.1.data.groups) ?_ fun _ => ?_
    · refine Ensures.onFst fun _ => ?_
      exact (ensureOptionalGroup_valid io (validGroup_synced hnext)).weaken
        (fun _ hs => GroupsOk.filedBut hs _) (fun _ _ h => h) fun _ h => h
    · refine Ensures.bind (M := fun _ s => GroupsOk s.1) ?_ fun _ => fun _ hs => hs
      exact Ensures.onFst fun _ => Ensures.modify fun _ hs => hs.1.add hs.2

/-! ## 5. Profiles -/

theorem keepsGroups_deleteOrQueue (reference : Str) :
    KeepsGroups (deleteOrQueueConnectionKeychainEntry io reference) := by
  refine (sameData_attempt (sameData_keychainDelete io reference)).keepsGroups.bind
    fun deleted => ?_
  refine KeepsGroups.getThe fun s => ?_
  split
  · refine KeepsGroups.bind ?_ fun _ => keepsGroups_save io
    exact keepsGroups_modifyData fun _ h => h.shrink rfl fun _ hg => hg
  · exact keepsGroups_pure _

theorem keepsGroups_upsertSerialProfile (request : SaveSerialProfileRequest) :
    KeepsGroups (upsertSerialProfile io request) := by
  refine KeepsGroups.lift fun group _ => ?_
  refine (preparing_clock io).keepsGroups.bind fun now => ?_
  refine (keepsGroups_orNewUuid io _).bind fun id => ?_
  refine KeepsGroups.getThe fun s => ?_
  refine KeepsGroups.lift fun _ _ => ?_
  refine keepsGroups_modifyData_bind (fun _ => rfl) fun _ => ?_
  refine fixesGroups_normalize_bind io fun _ => ?_
  exact (keepsGroups_save io).bind fun _ => keepsGroups_pure _

theorem keepsGroups_upsertTelnetProfile (request : SaveTelnetProfileRequest) :
    KeepsGroups (upsertTelnetProfile io request) := by
  refine KeepsGroups.lift fun group _ => ?_
  refine (preparing_clock io).keepsGroups.bind fun now => ?_
  refine (keepsGroups_orNewUuid io _).bind fun id => ?_
  refine KeepsGroups.getThe fun s => ?_
  refine KeepsGroups.lift fun _ _ => ?_
  refine keepsGroups_modifyData_bind (fun _ => rfl) fun _ => ?_
  refine fixesGroups_normalize_bind io fun _ => ?_
  exact (keepsGroups_save io).bind fun _ => keepsGroups_pure _

theorem keepsGroups_upsertRemoteDesktopProfile (request : SaveRemoteDesktopProfileRequest) :
    KeepsGroups (upsertRemoteDesktopProfile io request) := by
  refine KeepsGroups.lift fun group hgroup => ?_
  refine (preparing_clock io).keepsGroups.bind fun now => ?_
  refine (keepsGroups_orNewUuid io _).bind fun id => ?_
  refine KeepsGroups.getThe fun s => ?_
  refine KeepsGroups.lift fun _ _ => ?_
  refine KeepsGroups.lift fun _ _ => ?_
  refine KeepsGroups.bind ?_ fun _ => ?_
  · unfold storeCredential
    split
    · exact (preparing_keychainStore io _ _).keepsGroups
    · exact keepsGroups_pure _
  refine keepsGroups_modifyData_bind (fun _ => rfl) fun _ => ?_
  refine Ensures.bind (ensureOptionalGroup_nodup io (validGroup_normalize hgroup)) fun _ => ?_
  refine fixesGroups_normalize_bind io fun _ => ?_
  refine (keepsGroups_save io).bind fun _ => ?_
  refine KeepsGroups.bind ?_ fun _ => keepsGroups_pure _
  unfold deleteStaleCredential
  split
  · split
    · exact keepsGroups_deleteOrQueue io _
    · exact keepsGroups_pure _
  · exact keepsGroups_pure _

theorem keepsGroups_serial {f : List SerialProfile → List SerialProfile}
    (h : ∀ l, ∀ g ∈ (f l).filterMap (·.group), g ∈ l.filterMap (·.group)) :
    KeepsGroups (modifyData fun data => { data with serialProfiles := f data.serialProfiles }) :=
  keepsGroups_modifyData fun d hd => hd.shrink rfl <| assetGroups_mono
    (fun _ hg => mem_assetGroups_connections (d := d) hg)
    (fun g hg => mem_assetGroups_serial (h _ g hg))
    (fun _ hg => mem_assetGroups_telnet (d := d) hg)
    fun _ hg => mem_assetGroups_remoteDesktop (d := d) hg

theorem keepsGroups_telnet {f : List TelnetProfile → List TelnetProfile}
    (h : ∀ l, ∀ g ∈ (f l).filterMap (·.group), g ∈ l.filterMap (·.group)) :
    KeepsGroups (modifyData fun data => { data with telnetProfiles := f data.telnetProfiles }) :=
  keepsGroups_modifyData fun d hd => hd.shrink rfl <| assetGroups_mono
    (fun _ hg => mem_assetGroups_connections (d := d) hg)
    (fun _ hg => mem_assetGroups_serial (d := d) hg)
    (fun g hg => mem_assetGroups_telnet (h _ g hg))
    fun _ hg => mem_assetGroups_remoteDesktop (d := d) hg

theorem keepsGroups_remoteDesktop {f : List RemoteDesktopProfile → List RemoteDesktopProfile}
    (h : ∀ l, ∀ g ∈ (f l).filterMap (·.group), g ∈ l.filterMap (·.group)) :
    KeepsGroups (modifyData fun data =>
      { data with remoteDesktopProfiles := f data.remoteDesktopProfiles }) :=
  keepsGroups_modifyData fun d hd => hd.shrink rfl <| assetGroups_mono
    (fun _ hg => mem_assetGroups_connections (d := d) hg)
    (fun _ hg => mem_assetGroups_serial (d := d) hg)
    (fun _ hg => mem_assetGroups_telnet (d := d) hg)
    fun g hg => mem_assetGroups_remoteDesktop (h _ g hg)

theorem mem_filter_groups {α : Type} {group : α → Option Str} (p : α → Bool) (l : List α) :
    ∀ g ∈ (l.filter p).filterMap group, g ∈ l.filterMap group :=
  mem_filterMap_sublist List.filter_sublist

theorem mem_modifyFirst_groups {α : Type} {group : α → Option Str} {p : α → Bool} {f : α → α}
    (hf : ∀ a, group (f a) = group a) (l : List α) :
    ∀ g ∈ (modifyFirst p f l).filterMap group, g ∈ l.filterMap group := by
  intro g hg
  rwa [modifyFirst_filterMap hf] at hg

theorem keepsGroups_deleteSerialProfile (id : Str) : KeepsGroups (deleteSerialProfile io id) := by
  refine KeepsGroups.getThe fun s => ?_
  refine (keepsGroups_serial (mem_filter_groups _)).bind fun _ => ?_
  dsimp only
  split
  · exact (keepsGroups_save io).bind fun _ => keepsGroups_pure _
  · exact keepsGroups_pure _

theorem keepsGroups_deleteTelnetProfile (id : Str) : KeepsGroups (deleteTelnetProfile io id) := by
  refine KeepsGroups.getThe fun s => ?_
  refine (keepsGroups_telnet (mem_filter_groups _)).bind fun _ => ?_
  dsimp only
  split
  · exact (keepsGroups_save io).bind fun _ => keepsGroups_pure _
  · exact keepsGroups_pure _

theorem keepsGroups_markSerialProfileUsed (id : Str) :
    KeepsGroups (markSerialProfileUsed io id) := by
  refine KeepsGroups.getThe fun s => ?_
  split
  · refine (preparing_clock io).keepsGroups.bind fun now => ?_
    refine KeepsGroups.bind ?_ fun _ => ?_
    · exact keepsGroups_serial (mem_modifyFirst_groups fun _ => rfl)
    exact (keepsGroups_save io).bind fun _ => keepsGroups_pure _
  · exact keepsGroups_pure _

theorem keepsGroups_markTelnetProfileUsed (id : Str) :
    KeepsGroups (markTelnetProfileUsed io id) := by
  refine KeepsGroups.getThe fun s => ?_
  split
  · refine (preparing_clock io).keepsGroups.bind fun now => ?_
    refine KeepsGroups.bind ?_ fun _ => ?_
    · exact keepsGroups_telnet (mem_modifyFirst_groups fun _ => rfl)
    exact (keepsGroups_save io).bind fun _ => keepsGroups_pure _
  · exact keepsGroups_pure _

theorem keepsGroups_markRemoteDesktopProfileUsed (id : Str) :
    KeepsGroups (markRemoteDesktopProfileUsed io id) := by
  refine KeepsGroups.getThe fun s => ?_
  split
  · refine (preparing_clock io).keepsGroups.bind fun now => ?_
    refine KeepsGroups.bind ?_ fun _ => ?_
    · exact keepsGroups_remoteDesktop (mem_modifyFirst_groups fun _ => rfl)
    exact (keepsGroups_save io).bind fun _ => keepsGroups_pure _
  · exact keepsGroups_pure _

theorem keepsGroups_deleteRemoteDesktopProfile (id : Str) :
    KeepsGroups (deleteRemoteDesktopProfile io id) := by
  refine KeepsGroups.getThe fun s => ?_
  refine (keepsGroups_remoteDesktop (mem_filter_groups _)).bind fun _ => ?_
  by_cases hdeleted : s.data.remoteDesktopProfiles.any (·.id == id) = true
  · rw [if_pos hdeleted]
    refine (keepsGroups_save io).bind fun _ => ?_
    split
    · exact (keepsGroups_deleteOrQueue io _).bind fun _ => keepsGroups_pure _
    · exact keepsGroups_pure _
  · rw [if_neg hdeleted]
    exact keepsGroups_pure _

theorem keepsGroups_saveRemoteDesktopCredential (profileId : Str) (credential : Secret) :
    KeepsGroups (saveRemoteDesktopCredential io profileId credential) := by
  refine KeepsGroups.getThe fun s => ?_
  split
  · exact (sameData_throw _).keepsGroups
  · refine (preparing_keychainStore io _ _).keepsGroups.bind fun _ => ?_
    refine (preparing_clock io).keepsGroups.bind fun now => ?_
    refine KeepsGroups.bind ?_ fun _ => ?_
    · exact keepsGroups_remoteDesktop (mem_modifyFirst_groups fun _ => rfl)
    exact (keepsGroups_save io).bind fun _ => keepsGroups_pure _

theorem keepsGroups_deleteRemoteDesktopCredential (profileId : Str) :
    KeepsGroups (deleteRemoteDesktopCredential io profileId) := by
  refine KeepsGroups.getThe fun s => ?_
  split
  · exact keepsGroups_pure _
  · refine (preparing_clock io).keepsGroups.bind fun now => ?_
    refine KeepsGroups.bind ?_ fun _ => ?_
    · exact keepsGroups_remoteDesktop (mem_modifyFirst_groups fun _ => rfl)
    refine (keepsGroups_save io).bind fun _ => ?_
    exact (keepsGroups_deleteOrQueue io _).bind fun _ => keepsGroups_pure _

/-- A round over a profile from elsewhere: it does not fail, no group is touched, and where it is
    not applied nothing is. -/
def RoundOf (round : StoreM Bool) : Prop :=
  ∀ s, ∃ applied s', round s = (.ok applied, s') ∧ s'.data.groups = s.data.groups ∧
    (applied = false → s'.data = s.data)

theorem keepsGroups_applyProfiles {α β : Type} {records : List α} {round : α → StoreM Bool}
    (hround : ∀ record, RoundOf (round record)) {next : List Bool → StoreM β}
    (hfixed : ∀ applied, true ∈ applied → FixesGroups (next applied))
    (hkept : ∀ applied, KeepsGroups (next applied)) :
    KeepsGroups (each records round >>= next) := by
  let Filed : List Bool → ConnectionStore → Prop :=
    fun applied s => GroupsNodup s ∧ (true ∉ applied → GroupsOk s)
  have hloop : (each records round).Ensures (Filed []) Filed GroupsOk := by
    refine Ensures.each_results (fun record _ ys s hs => ?_) []
    obtain ⟨applied, s', hrun, hgroups, hsame⟩ := hround record s
    rw [hrun]
    have hnodup : s'.data.groups.Nodup := hgroups ▸ hs.1
    refine ⟨hnodup, fun hnone => ?_⟩
    have happlied : applied = false := by
      cases applied with
      | false => rfl
      | true => exact absurd (List.mem_append_right _ (List.mem_singleton_self _)) hnone
    exact (hs.2 fun h => hnone (List.mem_append_left _ h)).of_data (hsame happlied)
  refine Ensures.bind (hloop.weaken (fun _ hs => ⟨hs.nodup, fun _ => hs⟩) (fun _ _ h => h)
    fun _ h => h) fun applied s hs => ?_
  by_cases happlied : true ∈ applied
  · exact hfixed applied happlied s hs.1
  · exact hkept applied s (hs.2 happlied)

theorem keepsGroups_tidyIf {applied : List Bool} {n : Nat} :
    (true ∈ applied → FixesGroups (do
      if applied.any id then
        normalize io
        save io
      pure n : StoreM Nat)) ∧
    KeepsGroups (do
      if applied.any id then
        normalize io
        save io
      pure n : StoreM Nat) := by
  have hany : true ∈ applied → applied.any id = true := fun h => List.any_eq_true.mpr ⟨_, h, rfl⟩
  constructor
  · intro h
    rw [hany h]
    exact fixesGroups_normalize_bind io fun _ =>
      (keepsGroups_save io).bind fun _ => keepsGroups_pure _
  · split
    · exact (keepsGroups_normalize io).bind fun _ =>
        (keepsGroups_save io).bind fun _ => keepsGroups_pure _
    · exact keepsGroups_pure _

theorem applySerialProfile_unapplied {profiles : List SerialProfile} {profile : SerialProfile}
    (h : (applySerialProfile profiles profile).2 = false) :
    (applySerialProfile profiles profile).1 = profiles := by
  unfold applySerialProfile at h ⊢
  split
  · split
    · simp_all
    · rfl
  · simp_all

theorem applyRemoteDesktopProfile_unapplied {profiles : List RemoteDesktopProfile}
    {profile : RemoteDesktopProfile} (h : (applyRemoteDesktopProfile profiles profile).2 = false) :
    (applyRemoteDesktopProfile profiles profile).1 = profiles := by
  unfold applyRemoteDesktopProfile at h ⊢
  split
  · split
    · simp_all
    · rfl
  · simp_all

theorem keepsGroups_applySerialProfilesSnapshot (records : List SerialProfile) :
    KeepsGroups (applySerialProfilesSnapshot io records) := by
  refine (SameData.each fun profile _ => sameData_lift _).keepsGroups.bind fun _ => ?_
  refine keepsGroups_applyProfiles (fun profile s => ?_) (fun applied h => ?_) fun applied => ?_
  · refine ⟨_, _, rfl, rfl, fun h => ?_⟩
    show { s.data with serialProfiles := (applySerialProfile s.data.serialProfiles profile).1 } = _
    rw [applySerialProfile_unapplied h]
  · exact (keepsGroups_tidyIf io).1 h
  · exact (keepsGroups_tidyIf io).2

theorem keepsGroups_applyRemoteDesktopProfilesSnapshot (records : List RemoteDesktopProfile) :
    KeepsGroups (applyRemoteDesktopProfilesSnapshot io records) := by
  refine (SameData.each fun profile _ => sameData_lift _).keepsGroups.bind fun _ => ?_
  refine keepsGroups_applyProfiles (fun profile s => ?_) (fun applied h => ?_) fun applied => ?_
  · refine ⟨_, _, rfl, rfl, fun h => ?_⟩
    show { s.data with remoteDesktopProfiles :=
      (applyRemoteDesktopProfile s.data.remoteDesktopProfiles profile).1 } = _
    rw [applyRemoteDesktopProfile_unapplied h]
  · exact (keepsGroups_tidyIf io).1 h
  · exact (keepsGroups_tidyIf io).2

/-! ## 6. Groups -/

theorem keepsGroups_createGroup (name : Str) : KeepsGroups (createGroup io name) :=
  (keepsGroups_ensureGroup io name).bind fun _ => keepsGroups_save io

/-- A deletion leaves no asset and no group at or below the path, once the name is valid. -/
theorem deleteGroup_clears (name : Str) (s : ConnectionStore) :
    (∃ e, validateGroupName name = .error e ∧ deleteGroup io name s = (.error e, s)) ∨
      ∃ valid, validateGroupName name = .ok valid ∧ ∃ now,
        (deleteGroup io name s).2.data = deleteGroupData now valid s.data := by
  cases hvalid : validateGroupName name with
  | error e =>
    refine .inl ⟨e, rfl, ?_⟩
    unfold deleteGroup
    rw [hvalid]
    rfl
  | ok valid =>
    refine .inr ⟨valid, rfl, io.now s.calls, ?_⟩
    unfold deleteGroup
    rw [hvalid]
    exact sameData_save io _

theorem keepsGroups_deleteGroup (name : Str) : KeepsGroups (deleteGroup io name) := by
  refine KeepsGroups.lift fun name _ => ?_
  refine (preparing_clock io).keepsGroups.bind fun now => ?_
  refine KeepsGroups.bind ?_ fun _ => keepsGroups_save io
  exact keepsGroups_modifyData fun _ h => deleteGroupData_consistent now name h

/-- What a rename has done: exactly what was at or below the old path is moved, no two groups meet,
    and the groups are consistent. -/
structure RenamedBy (oldName newName : Str) (d d' : ConnectionStoreData) : Prop where
  moved : ∃ o n, validateGroupName oldName = .ok o ∧ validateGroupName newName = .ok n ∧
    RenamesExactly o n d d' ∧ Set.InjOn (movedGroup o n) {group | group ∈ d.groups}
  consistent : GroupsConsistent d'

theorem renamesExactly_self (name : Str) (d : ConnectionStoreData) :
    RenamesExactly name name d d := by
  have hid : movedGroup name name = id := funext (movedGroup_self name)
  constructor <;> simp [hid]

theorem destinationFree_of_not_any {oldName newName : Str} {groups : List Str}
    (h : ¬ (groups.any fun group =>
      groupPathIsWithin group newName && !groupPathIsWithin group oldName) = true) :
    DestinationFree oldName newName groups := by
  intro group hgroup hnew
  by_contra hold
  exact h (List.any_eq_true.mpr ⟨group, hgroup, by simp [hnew, hold]⟩)

/-- A rename moves exactly what is at or below the old path and merges no groups; where it fails
    before that, the data is as it was. -/
theorem renameGroup_ensures (oldName newName : Str) (hs : GroupsOk s) :
    (renameGroup io oldName newName).Ensures (fun s' => s' = s)
      (fun _ s' => RenamedBy oldName newName s.data s'.data)
      fun s' => s'.data = s.data ∨ RenamedBy oldName newName s.data s'.data := by
  refine Ensures.lift_bind (fun _ h => .inl (congrArg _ h)) fun o ho => ?_
  refine Ensures.lift_bind (fun _ h => .inl (congrArg _ h)) fun n hn => ?_
  split
  · next heq =>
      subst heq
      rintro _ rfl
      refine ⟨⟨o, o, ho, hn, renamesExactly_self o _, fun g _ g' _ hmoved => ?_⟩, hs⟩
      rwa [movedGroup_self, movedGroup_self] at hmoved
  · split
    · exact Ensures.throw fun _ h => .inl (congrArg _ h)
    · refine Ensures.getThe_bind fun s₀ hs₀ => ?_
      subst hs₀
      split
      · exact Ensures.throw fun _ h => .inl (congrArg _ h)
      · next hnot =>
          have hfree := destinationFree_of_not_any hnot
          refine Ensures.bind (M := fun _ s' => s'.data = s₀.data)
            (fun s' h => show s'.data = s₀.data from congrArg _ h) fun now => ?_
          have hconsistent := renameGroupData_consistent now hs hfree
          have hexact := renameGroupData_exact now o n s₀.data
          have hinj := movedGroup_injOn hfree
          refine Ensures.bind
            (M := fun _ s' => s'.data = renameGroupData now o n s₀.data) ?_ fun _ => ?_
          · exact Ensures.modify fun s' h => congrArg (renameGroupData now o n) h
          split
          · refine Ensures.bind
              (M := fun _ s' => RenamedBy oldName newName s₀.data s'.data) ?_ fun _ => ?_
            · refine Ensures.bind
                (M := fun _ s' => s'.data = renameGroupData now o n s₀.data) (fun _ h => h)
                fun now' => ?_
              refine Ensures.modify fun s' h => ?_
              have hnormal : (normalizeData io now' s'.data) =
                  normalizeData io now' (renameGroupData now o n s₀.data) := congrArg _ h
              rw [hnormal]
              exact ⟨⟨o, n, ho, hn, hexact.normalize io now' hconsistent, hinj⟩,
                normalizeData_consistent io now' hconsistent.nodup⟩
            · refine Ensures.bind
                (M := fun _ s' => RenamedBy oldName newName s₀.data s'.data) ?_
                fun _ => Ensures.pure fun _ h => h
              refine ((sameData_save io).ensures
                (P := fun s' => RenamedBy oldName newName s₀.data s'.data)
                fun hdata h => ?_).weaken (fun _ h => h) (fun _ _ h => h) fun _ h => .inr h
              rw [hdata]
              exact h
          · refine Ensures.pure fun s' h => ?_
            rw [h]
            exact ⟨⟨o, n, ho, hn, hexact, hinj⟩, hconsistent⟩

theorem keepsGroups_renameGroup (oldName newName : Str) :
    KeepsGroups (renameGroup io oldName newName) := by
  intro s hs
  exact (renameGroup_ensures io oldName newName hs).weaken (fun _ h => h)
    (fun _ _ h => h.consistent) (fun _ h => h.elim (fun hdata => hs.of_data hdata) (·.consistent))
    s rfl

theorem keepsGroups_moveSessionAssetsToGroup (connectionIds remoteDesktopIds : List Str)
    (group : Option Str) :
    KeepsGroups (moveSessionAssetsToGroup io connectionIds remoteDesktopIds group) := by
  refine KeepsGroups.lift fun group hgroup => ?_
  refine (preparing_clock io).keepsGroups.bind fun now => ?_
  refine KeepsGroups.getThe fun s => ?_
  refine Ensures.bind (M := fun _ => FiledBut group) ?_ fun _ => ?_
  · refine Ensures.modify fun s hs => ⟨hs.nodup, ?_⟩
    refine assetGroups_mono (fun g hg => ?_) (fun g hg => .inl (hs.covers g ?_))
      (fun g hg => .inl (hs.covers g ?_)) fun g hg => ?_
    · obtain ⟨conn', hconn', hname⟩ := List.mem_filterMap.mp hg
      obtain ⟨conn, hconn, rfl⟩ := List.mem_map.mp hconn'
      split at hname
      · exact .inr hname
      · refine .inl (hs.covers g (mem_assetGroups_connections ?_))
        exact List.mem_filterMap.mpr ⟨conn, hconn, hname⟩
    · exact mem_assetGroups_serial hg
    · exact mem_assetGroups_telnet hg
    · obtain ⟨profile', hprofile', hname⟩ := List.mem_filterMap.mp hg
      obtain ⟨profile, hprofile, rfl⟩ := List.mem_map.mp hprofile'
      split at hname
      · exact .inr hname
      · refine .inl (hs.covers g (mem_assetGroups_remoteDesktop ?_))
        exact List.mem_filterMap.mpr ⟨profile, hprofile, hname⟩
  · refine Ensures.bind (M := fun _ => GroupsOk) ?_ fun _ => ?_
    · exact (ensureOptionalGroup_valid io (validGroup_normalize hgroup)).weaken (fun _ h => h)
        (fun _ _ h => h.1) fun _ h => h
    · exact (keepsGroups_save io).bind fun _ => keepsGroups_pure _

/-! ## 7. Histories -/

end ConnectionStore

open ConnectionStore

theorem ConnectionOp.keepsGroups (io : Io) (op : ConnectionOp) (s : ConnectionStore)
    (hs : GroupsOk s) : GroupsOk (op.run io s) := by
  have hmade := madeGood_groups io
  cases op with
  | upsert request =>
    refine (hmade.upsert hs hs.nodup ?_).state rfl
    refine Ensures.weaken ?_ (fun _ h => h) (fun _ _ h => ⟨h, trivial⟩) fun _ h => h
    exact (preparing_orNewId _ (preparing_newUuid io)).sameData.holds hs
  | delete id =>
    have hremove := keepsGroups_removeConnectionWithTombstoneAt io id
    exact (keepsData_delete io (keepsGroups_normalize io) hremove).state hs
  | rename id name => exact (keepsGroups_renameConnection io id name).state hs
  | duplicate id => exact (hmade.duplicate hs hs.nodup fun _ _ _ => hs.nodup).state rfl
  | markUsed id => exact (keepsGroups_markUsed io id).state hs
  | importSsh connection => exact (keepsGroups_importSshConnection io connection).state hs
  | upsertImported connection =>
    refine (hmade.upsertImportedConnection hs hs.nodup ?_).state rfl
    exact any_importedId io (fun s s' hdata hs => hdata.trans hs) connection
  | importTransaction connections managedKeys =>
    refine (hmade.importTransaction hs hs.nodup managedKeys fun conn _ => ?_).state rfl
    exact any_importedId io (fun s s' hdata hs => hdata ▸ hs) conn
  | applySnapshot snapshot strategy =>
    refine (keepsData_applySnapshot io (keepsGroups_normalize io) (fun before rec => ?_)
      (fun _ _ _ h => h.shrink rfl fun _ hg => hg) snapshot).state hs
    exact applyKeepsData_applyRecord io (applyKeeps_applyDeletion io)
      (applyKeeps_applyConnection io strategy) before rec

theorem StoreOp.keepsGroups (io : Io) (op : StoreOp) (s : ConnectionStore) (hs : GroupsOk s) :
    GroupsOk (op.run io s) := by
  cases op with
  | connection op => exact op.keepsGroups io s hs
  | createGroup name => exact (keepsGroups_createGroup io name).state hs
  | deleteGroup name => exact (keepsGroups_deleteGroup io name).state hs
  | renameGroup oldName newName => exact (keepsGroups_renameGroup io oldName newName).state hs
  | moveToGroup connectionIds remoteDesktopIds group =>
    exact (keepsGroups_moveSessionAssetsToGroup io connectionIds remoteDesktopIds group).state hs
  | upsertSerial request => exact (keepsGroups_upsertSerialProfile io request).state hs
  | deleteSerial id => exact (keepsGroups_deleteSerialProfile io id).state hs
  | markSerialUsed id => exact (keepsGroups_markSerialProfileUsed io id).state hs
  | applySerial records => exact (keepsGroups_applySerialProfilesSnapshot io records).state hs
  | upsertTelnet request => exact (keepsGroups_upsertTelnetProfile io request).state hs
  | deleteTelnet id => exact (keepsGroups_deleteTelnetProfile io id).state hs
  | markTelnetUsed id => exact (keepsGroups_markTelnetProfileUsed io id).state hs
  | upsertRemoteDesktop request =>
    exact (keepsGroups_upsertRemoteDesktopProfile io request).state hs
  | deleteRemoteDesktop id => exact (keepsGroups_deleteRemoteDesktopProfile io id).state hs
  | markRemoteDesktopUsed id => exact (keepsGroups_markRemoteDesktopProfileUsed io id).state hs
  | saveCredential profileId credential =>
    exact (keepsGroups_saveRemoteDesktopCredential io profileId credential).state hs
  | deleteCredential profileId =>
    exact (keepsGroups_deleteRemoteDesktopCredential io profileId).state hs
  | applyRemoteDesktop records =>
    exact (keepsGroups_applyRemoteDesktopProfilesSnapshot io records).state hs

theorem runs_groupsOk (history : List (Io × StoreOp)) : GroupsOk (runs StoreOp.run {} history) :=
  runs_induction StoreOp.keepsGroups ⟨List.nodup_nil, fun _ h => absurd h List.not_mem_nil⟩ history

/-- **The tree of groups is consistent** after any history; what a rename and a deletion then do. -/
theorem group_tree_consistent (history : List (Io × StoreOp)) :
    let s := runs StoreOp.run {} history
    GroupsConsistent s.data ∧
    (∀ io oldName newName,
      match ConnectionStore.renameGroup io oldName newName s with
      | (.ok _, s') => RenamedBy oldName newName s.data s'.data
      | (.error _, s') => s'.data = s.data ∨ RenamedBy oldName newName s.data s'.data) ∧
    ∀ io name,
      match ConnectionStore.deleteGroup io name s with
      | (.ok _, s') => ∃ valid, validateGroupName name = .ok valid ∧ ClearOf valid s'.data
      | (.error _, s') =>
        s'.data = s.data ∨ ∃ valid, validateGroupName name = .ok valid ∧ ClearOf valid s'.data := by
  have hs := runs_groupsOk history
  refine ⟨hs, fun io oldName newName => ?_, fun io name => ?_⟩
  · have hrename := renameGroup_ensures io oldName newName hs _ rfl
    rcases hrun : ConnectionStore.renameGroup io oldName newName (runs StoreOp.run {} history) with
      ⟨e | count, s'⟩ <;> (rw [hrun] at hrename; exact hrename)
  · rcases deleteGroup_clears io name (runs StoreOp.run {} history) with
      ⟨e, -, hrun⟩ | ⟨valid, hvalid, now, hdata⟩
    · rw [hrun]
      exact .inl rfl
    · rcases hrun : ConnectionStore.deleteGroup io name (runs StoreOp.run {} history) with
        ⟨e | a, s'⟩
      · rw [hrun] at hdata
        exact .inr ⟨valid, hvalid, hdata ▸ deleteGroupData_clearOf now valid _⟩
      · rw [hrun] at hdata
        exact ⟨valid, hvalid, hdata ▸ deleteGroupData_clearOf now valid _⟩

end Hapcli.Connections
