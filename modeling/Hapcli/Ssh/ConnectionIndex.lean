/-
  Subject:   The index from connections to nodes: `node_id_for_connection` of a connection that some
             node is bound to.

  Several nodes may share a connection, and the index holds one of them. `disconnect_node`,
  `bind_connection` and `remove_subtree` drop the entry of a connection that a node loses, also
  when another node keeps it: the run must not take a shared connection from one node alone
  (`Unshares`).

  * **`indexed_loss_iff`** -- nodes that lose their connections, and when that is right;
  * **`index_of_unshared`** -- a run that takes no shared connection from one node alone.
-/
import Hapcli.Ssh.TreeShape

namespace Hapcli.Ssh.NodeRuntimeStore

open Hapcli.Rust Hapcli.Lib

/-! ## 1. The index -/

/-- **The index knows a node for every connection that a node is bound to, and that node is bound to
    it.** -/
def Indexed (store : NodeRuntimeStore) : Prop :=
  ∀ id connectionId, store.connectionIdForNode id = some connectionId →
    ∃ id', store.nodeIdForConnection connectionId = some id' ∧
      store.connectionIdForNode id' = some connectionId

theorem Indexed.empty : Indexed {} := by
  intro id connectionId h
  cases h

theorem Indexed.congr {store store' : NodeRuntimeStore} (h : store.Indexed)
    (hnodes : ∀ id, store'.connectionIdForNode id = store.connectionIdForNode id)
    (hindex : ∀ connectionId,
      store'.nodeIdForConnection connectionId = store.nodeIdForConnection connectionId) :
    store'.Indexed := by
  intro id connectionId hbound
  rw [hnodes] at hbound
  obtain ⟨id', hfound, hbound'⟩ := h id connectionId hbound
  exact ⟨id', by rw [hindex, hfound], by rw [hnodes, hbound']⟩

theorem indexed_rebuild (store : NodeRuntimeStore) : store.rebuildConnectionIndex.Indexed := by
  intro id connectionId hbound
  have hentry : ∀ id, store.connectionIdForNode id = some connectionId ↔
      (connectionId, id) ∈ store.nodes.entries.filterMap fun entry =>
        entry.2.connectionId.map fun connectionId => (connectionId, entry.1) := by
    intro id
    rw [connectionIdForNode, Option.bind_eq_some_iff, List.mem_filterMap]
    constructor
    · rintro ⟨route, hlookup, hroute⟩
      exact ⟨⟨id, route⟩, Map.lookup_eq_some_iff.mp hlookup, by simp [hroute]⟩
    · rintro ⟨⟨id', route⟩, hmem, hroute⟩
      obtain ⟨connectionId', hconnection, heq⟩ := Option.map_eq_some_iff.mp hroute
      cases heq
      exact ⟨route, Map.lookup_eq_some_iff.mpr hmem, hconnection⟩
  have hkey : connectionId ∈ store.rebuildConnectionIndex.connectionNodes.keys :=
    Map.mem_keys_insertAll.mpr (.inl (List.mem_map.mpr ⟨_, (hentry id).mp hbound, rfl⟩))
  obtain ⟨id', hlookup⟩ := Map.mem_keys_iff.mp hkey
  refine ⟨id', hlookup, (hentry id').mpr ?_⟩
  rcases Map.mem_of_lookup_insertAll hlookup with hmem | hnone
  · exact hmem
  · cases hnone

/-! ## 2. Losing and binding -/

/-- Nodes lose their connections, and the index loses what it had for these. -/
structure Lost (lost : List NodeId) (store store' : NodeRuntimeStore) : Prop where
  nodes : ∀ id, store'.connectionIdForNode id =
    if id ∈ lost then none else store.connectionIdForNode id
  index : ∀ connectionId, store'.nodeIdForConnection connectionId =
    if ∃ id ∈ lost, store.connectionIdForNode id = some connectionId then none
    else store.nodeIdForConnection connectionId

/-- No connection of these nodes is the connection of another. -/
def Unshared (store : NodeRuntimeStore) (lost : List NodeId) : Prop :=
  ∀ id ∈ lost, ∀ other, other ∉ lost → ∀ connectionId,
    store.connectionIdForNode id = some connectionId →
      store.connectionIdForNode other ≠ some connectionId

variable {nodeId : NodeId} {store store' : NodeRuntimeStore}

theorem unshared_of_unbound (h : store.connectionIdForNode nodeId = none) :
    store.Unshared [nodeId] := by
  intro id hid other _ connectionId hbound
  rw [List.mem_singleton.mp hid, h] at hbound
  cases hbound

theorem indexed_loss_iff {lost : List NodeId} (h : store.Indexed) (hlost : Lost lost store store') :
    store'.Indexed ↔ store.Unshared lost := by
  constructor
  · intro hafter id hid other hother connectionId hbound hshared
    have hkept : store'.connectionIdForNode other = some connectionId := by
      rw [hlost.nodes, if_neg hother, hshared]
    obtain ⟨id', hfound, -⟩ := hafter other connectionId hkept
    rw [hlost.index, if_pos ⟨id, hid, hbound⟩] at hfound
    cases hfound
  · intro hunshared id connectionId hbound
    rw [hlost.nodes] at hbound
    by_cases hid : id ∈ lost
    · rw [if_pos hid] at hbound
      cases hbound
    · rw [if_neg hid] at hbound
      obtain ⟨id', hfound, hbound'⟩ := h id connectionId hbound
      have hnone : ¬∃ gone ∈ lost, store.connectionIdForNode gone = some connectionId := by
        rintro ⟨gone, hgone, hconnection⟩
        exact hunshared gone hgone id hid connectionId hconnection hbound
      have hid' : id' ∉ lost := fun hmem => hnone ⟨id', hmem, hbound'⟩
      exact ⟨id', by rw [hlost.index, if_neg hnone, hfound],
        by rw [hlost.nodes, if_neg hid', hbound']⟩

theorem indexed_bind {connectionId : Str} (h : store.Indexed)
    (hfree : ∀ previousId, store.connectionIdForNode nodeId = some previousId →
      previousId = connectionId) (hnodes : ∀ id, store'.connectionIdForNode id =
      if id = nodeId then some connectionId else store.connectionIdForNode id)
    (hindex : ∀ id, store'.nodeIdForConnection id =
      if id = connectionId then some nodeId else store.nodeIdForConnection id) :
    store'.Indexed := by
  intro id other hbound
  by_cases hother : other = connectionId
  · subst hother
    exact ⟨nodeId, by rw [hindex, if_pos rfl], by rw [hnodes, if_pos rfl]⟩
  · have hid : id ≠ nodeId := by
      rintro rfl
      rw [hnodes, if_pos rfl] at hbound
      exact hother (Option.some.inj hbound).symm
    rw [hnodes, if_neg hid] at hbound
    obtain ⟨id', hfound, hbound'⟩ := h id other hbound
    have hid' : id' ≠ nodeId := by
      rintro rfl
      exact hother (hfree other hbound')
    exact ⟨id', by rw [hindex, if_neg hother, hfound], by rw [hnodes, if_neg hid', hbound']⟩

/-! ## 3. The operations -/

theorem lost_dropNode (store : NodeRuntimeStore) (nodeId : NodeId) :
    Lost [nodeId] store (store.dropNode nodeId) := by
  refine ⟨fun id => ?_, fun connectionId => ?_⟩
  · rw [connectionIdForNode, (store.dropNode_spec nodeId).2, connectionIdForNode]
    by_cases hid : id = nodeId <;> simp [hid]
  · simp only [List.mem_singleton, exists_eq_left, nodeIdForConnection, connectionIdForNode]
    unfold dropNode
    cases hlookup : store.nodes.lookup nodeId with
    | none => simp
    | some route =>
      cases hconnection : route.connectionId with
      | none => simp [hconnection]
      | some lostId =>
        simp only [Option.bind_some, hconnection, Option.some.injEq, Map.lookup_erase_eq]
        by_cases heq : connectionId = lostId
        · simp [heq]
        · simp [heq, Ne.symm heq]

theorem lost_dropNodes (store : NodeRuntimeStore) (removed : List NodeId) :
    Lost removed store (store.dropNodes removed) := by
  induction removed generalizing store with
  | nil => exact ⟨fun id => by simp [dropNodes], fun connectionId => by simp [dropNodes]⟩
  | cons nodeId rest ih =>
    have heq : store.dropNodes (nodeId :: rest) = (store.dropNode nodeId).dropNodes rest := rfl
    obtain ⟨hnodes, hindex⟩ := store.lost_dropNode nodeId
    refine ⟨fun id => ?_, fun connectionId => ?_⟩
    · rw [heq, (ih _).nodes, hnodes]
      by_cases hid : id ∈ rest <;> simp [hid]
    · rw [heq, (ih _).index, hindex]
      simp only [hnodes, List.mem_cons, exists_eq_or_imp]
      by_cases hfirst : store.connectionIdForNode nodeId = some connectionId
      · simp [hfirst]
      · simp only [hfirst, false_or]
        congr 1
        refine propext (exists_congr fun id => and_congr_right fun _ => ?_)
        by_cases hid : id = nodeId
        · subst hid
          simp [hfirst]
        · simp [hid]

theorem connectionIdForNode_detach (store : NodeRuntimeStore) (nodeId id : NodeId) :
    (store.detach nodeId).connectionIdForNode id = store.connectionIdForNode id := by
  unfold detach
  split
  · next parentId _ =>
      simp only [connectionIdForNode, Map.lookup_modify]
      by_cases hid : id = parentId
      · subst hid
        cases hlookup : store.nodes.lookup id <;> simp
      · simp [hid]
  · rfl

theorem nodeIdForConnection_detach (store : NodeRuntimeStore) (nodeId : NodeId)
    (connectionId : Str) :
    (store.detach nodeId).nodeIdForConnection connectionId =
      store.nodeIdForConnection connectionId := by
  unfold detach
  split <;> rfl

theorem lost_removeSubtree {removed : List NodeId}
    (h : store.removeSubtree nodeId = some (removed, store')) :
    store.subtreePostorder nodeId = some removed ∧ Lost removed store store' := by
  unfold removeSubtree at h
  obtain ⟨nodes, hnodes, heq⟩ := Option.bind_eq_some_iff.mp h
  cases heq
  obtain ⟨hkept, hindex⟩ := (store.detach nodeId).lost_dropNodes removed
  refine ⟨hnodes, fun id => ?_, fun connectionId => ?_⟩
  · rw [hkept, connectionIdForNode_detach]
  · rw [hindex, nodeIdForConnection_detach]
    simp only [connectionIdForNode_detach]

theorem lost_disconnectNode (store : NodeRuntimeStore) (nodeId : NodeId) (reason : Str) :
    Lost [nodeId] store (store.disconnectNode nodeId reason).2 := by
  unfold disconnectNode
  cases hlookup : store.nodes.lookup nodeId with
  | none =>
    have hnone : store.connectionIdForNode nodeId = none := by simp [connectionIdForNode, hlookup]
    refine ⟨fun id => ?_, fun connectionId => ?_⟩
    · by_cases hid : id = nodeId <;> simp [hid, hnone]
    · simp [hnone]
  | some route =>
    refine ⟨fun id => ?_, fun connectionId => ?_⟩
    · by_cases hid : id = nodeId
      · subst hid
        simp [connectionIdForNode]
      · simp [connectionIdForNode, hid]
    · simp only [List.mem_singleton, exists_eq_left, nodeIdForConnection, connectionIdForNode,
        hlookup, Option.bind_some]
      cases hconnection : route.connectionId with
      | none => simp
      | some lostId =>
        simp only [Option.some.injEq, Map.lookup_erase_eq]
        by_cases heq : connectionId = lostId
        · simp [heq]
        · simp [heq, Ne.symm heq]

/-- `bind_connection` of a node that has another connection: it loses that one first. -/
theorem bindConnection_spec {route : NodeRuntimeEntry}
    (hlookup : store.nodes.lookup nodeId = some route) (connectionId : Str)
    (state : ConnectionState) :
    ∃ freed, ((store.connectionIdForNode nodeId = some connectionId ∧ freed = store) ∨
        (store.connectionIdForNode nodeId ≠ some connectionId ∧ Lost [nodeId] store freed)) ∧
      (∀ previousId, freed.connectionIdForNode nodeId = some previousId →
        previousId = connectionId) ∧
      (∀ id, (store.bindConnection nodeId connectionId state).2.connectionIdForNode id =
        if id = nodeId then some connectionId else freed.connectionIdForNode id) ∧
      ∀ id, (store.bindConnection nodeId connectionId state).2.nodeIdForConnection id =
        if id = connectionId then some nodeId else freed.nodeIdForConnection id := by
  have hbound : store.connectionIdForNode nodeId = route.connectionId := by
    simp [connectionIdForNode, hlookup]
  by_cases hsame : route.connectionId = some connectionId
  · -- bound to it already
    refine ⟨store, .inl ⟨by rw [hbound, hsame], rfl⟩, ?_, fun id => ?_, fun id => ?_⟩
    · intro previousId hprevious
      rw [hbound, hsame] at hprevious
      exact (Option.some.inj hprevious).symm
    · by_cases hid : id = nodeId
      · subst hid
        simp [bindConnection, connectionIdForNode, hlookup]
      · simp [bindConnection, connectionIdForNode, hlookup, hid]
    · simp [bindConnection, nodeIdForConnection, hlookup, hsame, Map.lookup_insert_eq]
  · refine ⟨(store.disconnectNode nodeId []).2,
      .inr ⟨by rwa [hbound], store.lost_disconnectNode nodeId []⟩, ?_, fun id => ?_, fun id => ?_⟩
    · intro previousId hprevious
      rw [(store.lost_disconnectNode nodeId []).nodes] at hprevious
      simp at hprevious
    · rw [(store.lost_disconnectNode nodeId []).nodes]
      by_cases hid : id = nodeId
      · subst hid
        simp [bindConnection, connectionIdForNode, hlookup]
      · simp [bindConnection, connectionIdForNode, hlookup, hid]
    · cases hprevious : route.connectionId with
      | none =>
        simp [bindConnection, disconnectNode, nodeIdForConnection, hlookup, hprevious,
          Map.lookup_insert_eq]
      | some previousId =>
        have hne : previousId ≠ connectionId := by
          rintro rfl
          exact hsame hprevious
        simp [bindConnection, disconnectNode, nodeIdForConnection, hlookup, hprevious, hne,
          Map.lookup_insert_eq]

/-- An operation that takes no connection from a node while another node has it. -/
def Unshares (store : NodeRuntimeStore) : Operation → Prop
  | .bindConnection nodeId connectionId _ =>
    store.connectionIdForNode nodeId = some connectionId ∨ store.Unshared [nodeId]
  | .disconnectNode nodeId _ => store.Unshared [nodeId]
  | .removeSubtree nodeId =>
    ∀ removed, store.subtreePostorder nodeId = some removed → store.Unshared removed
  | _ => True

section

variable (h : store.Indexed)

include h

theorem indexed_bindConnection_iff (nodeId : NodeId) (connectionId : Str)
    (state : ConnectionState) :
    (store.bindConnection nodeId connectionId state).2.Indexed ↔
      (store.connectionIdForNode nodeId = some connectionId ∨ store.Unshared [nodeId]) := by
  cases hlookup : store.nodes.lookup nodeId with
  | none =>
    have hnone : store.connectionIdForNode nodeId = none := by simp [connectionIdForNode, hlookup]
    simp only [bindConnection, hlookup, h, true_iff]
    exact .inr (unshared_of_unbound hnone)
  | some route =>
    obtain ⟨freed, hfreed, hfree, hnodes, hindex⟩ :=
      bindConnection_spec hlookup connectionId state
    constructor
    · intro hafter
      rcases hfreed with ⟨hsame, -⟩ | ⟨hother, hlost⟩
      · exact .inl hsame
      refine .inr fun id hid other hne lostId hbound hshared => ?_
      rw [List.mem_singleton] at hid hne
      subst hid
      -- the other node keeps the connection, and the index has nothing for it
      have hlostId : lostId ≠ connectionId := by
        rintro rfl
        exact hother hbound
      have hmem : id ∈ [id] := List.mem_singleton.mpr rfl
      have hkept : (store.bindConnection id connectionId state).2.connectionIdForNode other =
          some lostId := by
        rw [hnodes, if_neg hne, hlost.nodes, if_neg (by simpa using hne), hshared]
      obtain ⟨id', hfound, -⟩ := hafter other lostId hkept
      rw [hindex, if_neg hlostId, hlost.index, if_pos ⟨id, hmem, hbound⟩] at hfound
      cases hfound
    · rintro hcase
      have hfreedIndexed : freed.Indexed := by
        rcases hfreed with ⟨-, rfl⟩ | ⟨hother, hlost⟩
        · exact h
        · exact (indexed_loss_iff h hlost).mpr (hcase.resolve_left hother)
      exact indexed_bind hfreedIndexed hfree hnodes hindex

theorem Indexed.quiet (hquiet : Quiet store store') : store'.Indexed := by
  refine h.congr (fun id => ?_) fun connectionId => ?_
  · have := congrArg (fun kept : Option (_ × Option Str) => kept.bind Prod.snd) (hquiet.kept id)
    simpa [connectionIdForNode, Option.bind_map, Function.comp_def] using this
  · rw [nodeIdForConnection, hquiet.connectionNodes, nodeIdForConnection]

theorem Indexed.upsertNode (nodeId : NodeId) (config : SshConfig)
    (origin : NodeOrigin) (now : Nat) :
    (store.upsertNodeWithOrigin nodeId config origin now).Indexed := by
  unfold upsertNodeWithOrigin
  cases hlookup : store.nodes.lookup nodeId with
  | some route =>
    refine h.congr (fun id => ?_) fun _ => rfl
    by_cases hid : id = nodeId
    · subst hid
      simp [connectionIdForNode, hlookup]
    · simp [connectionIdForNode, hid]
  | none =>
    refine h.congr (fun id => ?_) fun _ => rfl
    by_cases hid : id = nodeId
    · subst hid
      simp [connectionIdForNode, hlookup, newEntry]
    · simp [connectionIdForNode, hid]

theorem Indexed.upsertChild (parentId nodeId : NodeId) (config : SshConfig)
    (origin : NodeOrigin) (now : Nat) :
    (store.upsertChildNodeWithOrigin parentId nodeId config origin now).2.Indexed := by
  unfold upsertChildNodeWithOrigin
  cases hparent : store.nodes.lookup parentId with
  | none => exact h
  | some parent =>
    have hadopt : ∀ id, (store.adopt parentId nodeId).connectionIdForNode id =
        store.connectionIdForNode id := by
      intro id
      simp only [adopt, connectionIdForNode, Map.lookup_modify]
      by_cases hid : id = parentId
      · subst hid
        simp only [↓reduceIte, hparent, Option.map_some, Option.bind_some]
        split <;> rfl
      · simp [hid]
    refine h.congr (fun id => ?_) fun _ => rfl
    rw [← hadopt]
    by_cases hid : id = nodeId
    · subst hid
      cases hlookup : (store.adopt parentId id).nodes.lookup id with
      | none => simp [connectionIdForNode, hlookup, newEntry]
      | some route => simp [connectionIdForNode, hlookup]
    · simp [connectionIdForNode, hid]

theorem Indexed.attachChain (current : NodeId) (chain : List ChainNode) :
    (store.attachChain current chain).2.Indexed := by
  induction chain generalizing store current with
  | nil => exact h
  | cons node rest ih =>
    have hnext := h.upsertChild current node.nodeId node.config node.origin node.now
    unfold NodeRuntimeStore.attachChain
    split
    · next heq => rwa [heq] at hnext
    · next heq =>
        rw [heq] at hnext
        exact ih hnext node.nodeId

theorem Indexed.drillDown (parentId : NodeId) (config : SshConfig)
    (supply : Supply) : (store.drillDown parentId config supply).2.Indexed := by
  unfold NodeRuntimeStore.drillDown
  split
  · exact h
  · split_ifs
    · exact h
    · exact h
    · have hnext := h.upsertChild parentId (generatedTreeNodeId "drill".toList (supply.uuid 0))
        config (.drillDown (supply.nowMs 0 / 1000 : Nat)) (supply.nowMs 1)
      dsimp only
      split
      · next heq => rwa [heq] at hnext
      · next heq => rwa [heq] at hnext

theorem Indexed.expandPresetChainInternal (hops : List SshConfig)
    (target : SshConfig) (originForHop : Nat → NodeOrigin) (supply : Supply) :
    (store.expandPresetChainInternal hops target originForHop supply).2.Indexed := by
  unfold NodeRuntimeStore.expandPresetChainInternal
  cases hops with
  | nil => exact h.upsertNode _ _ _ _
  | cons hop rest =>
    dsimp only
    split_ifs
    · exact h
    · have hroot := h.upsertNode (generatedTreeNodeId "hop".toList (supply.uuid 0)) hop
        (originForHop 0) (supply.nowMs 0)
      split
      · next heq =>
          have := heq ▸ hroot.attachChain _ _
          exact this
      · next heq =>
          have := heq ▸ hroot.attachChain _ _
          exact this

theorem Indexed.expandPresetChainUnderParentInternal (parentId : NodeId) (hops : List SshConfig)
    (target : SshConfig) (originForHop : Nat → NodeOrigin) (supply : Supply) :
    (store.expandPresetChainUnderParentInternal parentId hops target originForHop
      supply).2.Indexed := by
  unfold NodeRuntimeStore.expandPresetChainUnderParentInternal
  split
  · exact h
  · dsimp only
    split_ifs
    · exact h
    · exact h
    all_goals
      split
      · next heq =>
          have := heq ▸ h.attachChain _ _
          exact this
      · next heq =>
          have := heq ▸ h.attachChain _ _
          exact this

theorem Indexed.applySnapshot {snapshot : NodeTreeSnapshot}
    {answer : Except RouteError Unit} (hstep : store.applySnapshot snapshot = some (answer, store')) :
    store'.Indexed := by
  unfold NodeRuntimeStore.applySnapshot at hstep
  dsimp only at hstep
  split at hstep
  · cases hstep
    exact h
  · split at hstep
    · cases hstep
      exact h
    · split at hstep
      · cases hstep
      · cases hstep
        exact h
      · split at hstep
        · cases hstep
        · split at hstep
          · cases hstep
            exact h
          · cases hstep
            exact indexed_rebuild _

end

/-! ## 4. Runs -/

/-- An operation leaves a right index exactly when it takes no shared connection from one node
    alone. -/
theorem indexed_step_iff (h : store.Indexed) {operation : Operation}
    (hstep : store.step operation = some store') : store'.Indexed ↔ store.Unshares operation := by
  by_cases hedit : operation.isEdit = true
  · obtain ⟨next, heq, hquiet⟩ := store.quiet_of_isEdit hedit
    rw [heq] at hstep
    cases hstep
    have htrivial : store.Unshares operation := by
      cases operation with
      | bindConnection | disconnectNode | removeSubtree => cases hedit
      | _ => trivial
    exact iff_of_true (h.quiet hquiet) htrivial
  cases operation with
  | bindConnection nodeId connectionId state =>
    cases hstep
    exact indexed_bindConnection_iff h nodeId connectionId state
  | disconnectNode nodeId reason =>
    cases hstep
    exact indexed_loss_iff h (store.lost_disconnectNode nodeId reason)
  | removeSubtree nodeId =>
    obtain ⟨⟨removed, next⟩, heq, rfl⟩ := Option.map_eq_some_iff.mp hstep
    obtain ⟨hwalk, hlost⟩ := lost_removeSubtree heq
    rw [indexed_loss_iff h hlost]
    constructor
    · intro hunshared other hother
      rw [hwalk] at hother
      cases hother
      exact hunshared
    · intro hunshared
      exact hunshared removed hwalk
  | upsertNode nodeId config origin now =>
    cases hstep
    exact iff_of_true (h.upsertNode nodeId config origin now) trivial
  | upsertChildNode parentId nodeId config origin now =>
    cases hstep
    exact iff_of_true (h.upsertChild parentId nodeId config origin now) trivial
  | drillDown parentId config supply =>
    cases hstep
    exact iff_of_true (h.drillDown parentId config supply) trivial
  | expandManualPreset savedConnectionId hops target supply =>
    cases hstep
    exact iff_of_true (h.expandPresetChainInternal hops target _ supply) trivial
  | expandManualPresetUnderParent parentId savedConnectionId hops target supply =>
    cases hstep
    exact iff_of_true
      (h.expandPresetChainUnderParentInternal parentId hops target _ supply) trivial
  | applySnapshot snapshot =>
    obtain ⟨⟨answer, next⟩, heq, rfl⟩ := Option.map_eq_some_iff.mp hstep
    exact iff_of_true (h.applySnapshot heq) trivial
  | clear =>
    cases hstep
    exact iff_of_true .empty trivial
  | reconcileWithConnections connections =>
    cases hstep
    exact iff_of_true (indexed_rebuild _) trivial
  | rehash nodes connections =>
    cases hstep
    refine iff_of_true (h.congr (fun id => ?_) fun connectionId => ?_) trivial
    · simp [connectionIdForNode]
    · simp [nodeIdForConnection]
  | _ => exact absurd rfl hedit

/-- A run that takes no shared connection from one node alone. -/
def UnsharingRun : NodeRuntimeStore → List Operation → Prop
  | _, [] => True
  | store, operation :: rest => store.Unshares operation ∧
      ∀ store', store.step operation = some store' → UnsharingRun store' rest

theorem Indexed.run (h : store.Indexed) {operations : List Operation}
    (hunshares : UnsharingRun store operations) (hrun : store.run operations = some store') :
    store'.Indexed := by
  induction operations generalizing store with
  | nil =>
    cases hrun
    exact h
  | cons operation rest ih =>
    rw [NodeRuntimeStore.run, List.foldlM_cons] at hrun
    obtain ⟨next, hstep, hrest⟩ := Option.bind_eq_some_iff.mp hrun
    exact ih ((indexed_step_iff h hstep).mpr hunshares.1) (hunshares.2 next hstep) hrest

/-- **After a run that takes no shared connection from one node alone, the index knows, for every
    connection that a node is bound to, a node that is bound to it.** -/
theorem index_of_unshared (operations : List Operation) (h : UnsharingRun {} operations)
    {store : NodeRuntimeStore} (hrun : NodeRuntimeStore.run {} operations = some store)
    (id : NodeId) {connectionId : Str} (hbound : store.connectionIdForNode id = some connectionId) :
    ∃ id', store.nodeIdForConnection connectionId = some id' ∧
      store.connectionIdForNode id' = some connectionId :=
  Indexed.empty.run h hrun id connectionId hbound

theorem index_of_unshared_two :
    ∃ store, NodeRuntimeStore.run {}
      [.upsertNode ⟨['a']⟩ {} .direct 1, .upsertNode ⟨['b']⟩ {} .direct 2,
        .bindConnection ⟨['a']⟩ ['x'] .active, .bindConnection ⟨['b']⟩ ['x'] .active] = some store ∧
      ∃ id', store.nodeIdForConnection ['x'] = some id' ∧
        store.connectionIdForNode id' = some ['x'] := by
  refine ⟨_, rfl, index_of_unshared
    [.upsertNode ⟨['a']⟩ {} .direct 1, .upsertNode ⟨['b']⟩ {} .direct 2,
      .bindConnection ⟨['a']⟩ ['x'] .active, .bindConnection ⟨['b']⟩ ['x'] .active] ?_ rfl ⟨['a']⟩
    (by decide)⟩
  refine ⟨trivial, ?_⟩
  rintro _ ⟨⟩
  refine ⟨trivial, ?_⟩
  rintro _ ⟨⟩
  refine ⟨.inr (unshared_of_unbound (by decide)), ?_⟩
  rintro _ ⟨⟩
  exact ⟨.inr (unshared_of_unbound (by decide)), fun _ _ => trivial⟩

/-- One of two nodes that share a connection is disconnected, and the other is not found any
    more. -/
theorem shared_connection_forgotten :
    ∃ store, NodeRuntimeStore.run {}
      [.upsertNode ⟨['a']⟩ {} .direct 1, .upsertNode ⟨['b']⟩ {} .direct 2,
        .bindConnection ⟨['a']⟩ ['x'] .active, .bindConnection ⟨['b']⟩ ['x'] .active,
        .disconnectNode ⟨['b']⟩ []] = some store ∧
      store.connectionIdForNode ⟨['a']⟩ = some ['x'] ∧
      store.nodeIdForConnection ['x'] = none := by
  refine ⟨_, rfl, ?_, ?_⟩
  · decide
  · decide

end Hapcli.Ssh.NodeRuntimeStore
