/-
  Subject:   The session tree over whole runs: its shape, and its walks.

  `upsert_child_node` puts a node below another whatever stood before. A node that has a parent
  already stays among the children of that one too, and a root with children keeps their depths:
  the run must attach with care (`Attaches`).

  * **`tree_shape_of_careful`** -- a run that attaches with care returns and keeps the shape.
-/
import Hapcli.Ssh.SnapshotShape
import Mathlib.Data.List.Chain

namespace Hapcli.Ssh.NodeRuntimeStore

open Hapcli.Rust Hapcli.Lib

/-! ## 1. One operation -/

variable {store : NodeRuntimeStore}

theorem Shaped.bindConnection (h : store.Shaped) (nodeId : NodeId) (connectionId : Str)
    (state : ConnectionState) : (store.bindConnection nodeId connectionId state).2.Shaped := by
  unfold NodeRuntimeStore.bindConnection
  cases hlookup : store.nodes.lookup nodeId with
  | none => exact h
  | some route =>
    refine h.congr rfl fun id => ?_
    by_cases hid : id = nodeId
    · subst hid
      simp [hlookup, NodeRuntimeEntry.place]
    · simp [hid]

theorem Shaped.disconnectNode (h : store.Shaped) (nodeId : NodeId) (reason : Str) :
    (store.disconnectNode nodeId reason).2.Shaped := by
  unfold NodeRuntimeStore.disconnectNode
  cases hlookup : store.nodes.lookup nodeId with
  | none => exact h
  | some route =>
    refine h.congr rfl fun id => ?_
    by_cases hid : id = nodeId
    · subst hid
      simp [hlookup, NodeRuntimeEntry.place]
    · simp [hid]

theorem reconcileEntry_place (connections : Map Str ConnectionState) (route : NodeRuntimeEntry) :
    (reconcileEntry connections route).place = route.place := by
  unfold reconcileEntry
  split
  · rfl
  · split <;> rfl

theorem Shaped.reconcileWithConnections (h : store.Shaped) (connections : Map Str ConnectionState) :
    (store.reconcileWithConnections connections).Shaped := by
  refine h.congr rfl fun id => ?_
  simp [NodeRuntimeStore.reconcileWithConnections, rebuildConnectionIndex, Function.comp_def,
    reconcileEntry_place]

/-- An attachment with care: the parent is not there and nothing happens, or the node can be put
    below it. -/
def Attaches (store : NodeRuntimeStore) : Operation → Prop
  | .upsertChildNode parentId nodeId _ _ _ =>
    parentId ∈ store.nodes.keys → store.Attachable parentId nodeId
  | _ => True

theorem Shaped.step (h : store.Shaped) {operation : Operation} (hfresh : store.FreshIds operation)
    (hattach : store.Attaches operation) :
    ∃ store', store.step operation = some store' ∧ store'.Shaped := by
  by_cases hedit : operation.isEdit = true
  · obtain ⟨store', heq, hquiet⟩ := store.quiet_of_isEdit hedit
    exact ⟨store', heq, h.quiet hquiet⟩
  cases operation with
  | upsertNode nodeId config origin now => exact ⟨_, rfl, h.upsertNode nodeId config origin now⟩
  | upsertChildNode parentId nodeId config origin now =>
    refine ⟨_, rfl, ?_⟩
    by_cases hparent : parentId ∈ store.nodes.keys
    · exact h.upsertChild hparent (hattach hparent) config origin now
    · simp only [upsertChildNodeWithOrigin, Map.notMem_keys_iff.mp hparent]
      exact h
  | drillDown parentId config supply => exact ⟨_, rfl, h.drillDown hfresh⟩
  | expandManualPreset savedConnectionId hops target supply =>
    exact ⟨_, rfl, h.expandManualPreset hfresh⟩
  | expandManualPresetUnderParent parentId savedConnectionId hops target supply =>
    exact ⟨_, rfl, h.expandManualPresetUnderParent hfresh⟩
  | removeSubtree nodeId =>
    obtain ⟨removed, store', heq, hshaped⟩ := h.removeSubtree nodeId
    exact ⟨store', by simp [NodeRuntimeStore.step, heq], hshaped⟩
  | applySnapshot snapshot =>
    obtain ⟨answer, store', heq, hshaped⟩ := h.applySnapshot snapshot
    exact ⟨store', by simp [NodeRuntimeStore.step, heq], hshaped⟩
  | clear => exact ⟨_, rfl, .empty⟩
  | reconcileWithConnections connections => exact ⟨_, rfl, h.reconcileWithConnections connections⟩
  | bindConnection nodeId connectionId state =>
    exact ⟨_, rfl, h.bindConnection nodeId connectionId state⟩
  | disconnectNode nodeId reason => exact ⟨_, rfl, h.disconnectNode nodeId reason⟩
  | rehash nodes connections => exact ⟨_, rfl, h.congr rfl fun id => by simp⟩
  | _ => exact absurd rfl hedit

/-! ## 2. What a reader sees -/

/-- The shape of the session tree. -/
structure TreeShape (store : NodeRuntimeStore) : Prop where
  /-- no node is above its own parent -/
  acyclic : ∀ id parentId, store.parentOf id = some parentId → ¬Above store.parentOf id parentId
  parents : ∀ id parentId, store.parentOf id = some parentId → parentId ∈ store.nodes.keys
  children : ∀ id child, child ∈ store.childrenOf id ↔ store.parentOf child = some id
  childrenNodup : ∀ id, (store.childrenOf id).Nodup
  roots : ∀ id, id ∈ store.rootIds ↔ id ∈ store.nodes.keys ∧ store.parentOf id = none
  rootsNodup : store.rootIds.Nodup
  depth : ∀ id parentId, store.parentOf id = some parentId →
    store.depthOf id = store.depthOf parentId + 1
  rootDepth : ∀ id, store.parentOf id = none → store.depthOf id = 0

/-- The walks return, and visit each node once. -/
structure WalksOnce (store : NodeRuntimeStore) : Prop where
  /-- from the root down to the node, each below the one before -/
  pathToNode : ∀ id ∈ store.nodes.keys, ∃ path, store.pathToNode id = some (.ok path) ∧
    path.Nodup ∧ (∀ m, m ∈ path ↔ Above store.parentOf m id) ∧ path.getLast? = some id ∧
    path.IsChain fun above below => store.parentOf below = some above
  /-- every node of the store -/
  flatten : ∃ flat, ∃ ids : List NodeId, store.flatten = some flat ∧
    flat.map (·.id) = ids.map NodeId.value ∧ ids.Nodup ∧ ∀ id, id ∈ ids ↔ id ∈ store.nodes.keys
  /-- the node and everything below it -/
  subtreePostorder : ∀ id, ∃ nodes, store.subtreePostorder id = some nodes ∧ nodes.Nodup ∧
    ∀ m, m ∈ nodes ↔ Above store.parentOf id m

section

variable (h : store.Shaped)

include h

theorem Shaped.treeShape : store.TreeShape where
  acyclic _ _ hp := not_above_parent h.forest.ranked hp
  parents := h.forest.mem
  children := h.forest.child
  childrenNodup := h.forest.nodup
  roots := h.roots
  rootsNodup := h.rootsNodup
  depth := h.forest.ranked
  rootDepth := h.forest.root

theorem Shaped.pathToNode {id : NodeId} (hid : id ∈ store.nodes.keys) :
    ∃ path, store.pathToNode id = some (.ok path) ∧ path.Nodup ∧
      (∀ m, m ∈ path ↔ Above store.parentOf m id) ∧ path.getLast? = some id ∧
      path.IsChain fun above below => store.parentOf below = some above := by
  have hlook : ∀ a ∈ store.nodes.keys, store.lookUp a = .ok (store.parentOf a) := by
    intro a ha
    obtain ⟨route, hlookup⟩ := Map.mem_keys_iff.mp ha
    rw [parentOf, place_of_lookup hlookup, lookUp, hlookup]
    rfl
  have hfuel : store.depthOf id < store.fuel := Nat.lt_succ_of_le (h.forest.depth_le id)
  obtain ⟨path, hpath, hnodup, hmem, hhead, hchain⟩ := h.forest.pathUp_eq hlook hid hfuel
  refine ⟨path.reverse, ?_, List.nodup_reverse.mpr hnodup, fun m => ?_, ?_, ?_⟩
  · unfold NodeRuntimeStore.pathToNode
    rw [hpath]
    rfl
  · rw [List.mem_reverse, hmem]
  · rw [List.getLast?_reverse, hhead]
  · exact List.isChain_reverse.mpr hchain

theorem Shaped.flatten : ∃ flat, ∃ ids : List NodeId, store.flatten = some flat ∧
      flat.map (·.id) = ids.map NodeId.value ∧ ids.Nodup ∧
        ∀ id, id ∈ ids ↔ id ∈ store.nodes.keys := by
  let out : NodeId → FlatNode := fun id =>
    store.flatNode id ((store.nodes.lookup id).getD (newEntry {} none 0 .direct 0))
  have hvisit : ∀ id ∈ store.nodes.keys, ((store.nodes.lookup id).map fun route =>
      (store.flatNode id route, route.childrenIds)) = some (out id, store.childrenOf id) := by
    intro id hid
    obtain ⟨route, hlookup⟩ := Map.mem_keys_iff.mp hid
    simp [out, hlookup, childrenOf]
  obtain ⟨parts, all, hparts, hall, hnodup, hmem⟩ := h.forest.preorder_roots hvisit
    (fun a p hp => mem_keys_of_parentOf hp) h.rootsNodup h.roots (Nat.lt_succ_self _)
  refine ⟨parts.flatten, all, ?_, ?_, hnodup, hmem⟩
  · unfold NodeRuntimeStore.flatten fuel
    rw [hparts]
    rfl
  · rw [hall, List.map_map]
    rfl

theorem Shaped.walksOnce : store.WalksOnce where
  pathToNode _ hid := h.pathToNode hid
  flatten := h.flatten
  subtreePostorder id := h.forest.postorder_eq (store.fuel_lt id)

end

/-! ## 3. Runs -/

/-- A run whose generated identifiers are new and whose nodes are attached with care. -/
def CarefulRun : NodeRuntimeStore → List Operation → Prop
  | _, [] => True
  | store, operation :: rest => store.FreshIds operation ∧ store.Attaches operation ∧
      ∀ store', store.step operation = some store' → CarefulRun store' rest

theorem Shaped.run (h : store.Shaped) {operations : List Operation}
    (hcareful : CarefulRun store operations) :
    ∃ store', store.run operations = some store' ∧ store'.Shaped := by
  induction operations generalizing store with
  | nil => exact ⟨store, rfl, h⟩
  | cons operation rest ih =>
    obtain ⟨hfresh, hattach, hrest⟩ := hcareful
    obtain ⟨next, heq, hshaped⟩ := h.step hfresh hattach
    obtain ⟨store', hrun, hfinal⟩ := ih hshaped (hrest next heq)
    refine ⟨store', ?_, hfinal⟩
    rw [NodeRuntimeStore.run, List.foldlM_cons, heq]
    exact hrun

/-- **A run that attaches with care returns; in the store it ends in the tree has its shape, and
    every walk returns and visits each node once.** -/
theorem tree_shape_of_careful {operations : List Operation} (h : CarefulRun {} operations) :
    ∃ store, NodeRuntimeStore.run {} operations = some store ∧ store.TreeShape ∧
      store.WalksOnce := by
  obtain ⟨store, hrun, hshaped⟩ := Shaped.empty.run h
  exact ⟨store, hrun, hshaped.treeShape, hshaped.walksOnce⟩

/-- A child is attached, and a root is moved below its parent; then the tree is removed. -/
theorem tree_shape_of_careful_moved :
    ∃ store, NodeRuntimeStore.run {}
      [.upsertNode ⟨['a']⟩ {} .direct 1, .upsertChildNode ⟨['a']⟩ ⟨['b']⟩ {} .direct 2,
        .upsertNode ⟨['c']⟩ {} .direct 3, .upsertChildNode ⟨['b']⟩ ⟨['c']⟩ {} .direct 4,
        .removeSubtree ⟨['b']⟩] = some store ∧ store.TreeShape ∧ store.WalksOnce := by
  have hfresh : ∀ (store : NodeRuntimeStore) {operation : Operation},
      operation.generatedIds = [] → store.FreshIds operation := by
    intro store operation hnone
    rw [FreshIds, hnone]
    exact ⟨List.nodup_nil, by simp⟩
  refine tree_shape_of_careful ⟨hfresh _ rfl, trivial, ?_⟩
  rintro _ ⟨⟩
  refine ⟨hfresh _ rfl, fun _ => .inl (by decide), ?_⟩
  rintro _ ⟨⟩
  refine ⟨hfresh _ rfl, trivial, ?_⟩
  rintro _ ⟨⟩
  refine ⟨hfresh _ rfl, fun _ => .inr (.inr ⟨by decide, by decide, by decide⟩), ?_⟩
  rintro _ ⟨⟩
  exact ⟨hfresh _ rfl, trivial, fun _ _ => trivial⟩

/-- A node that is given a second parent stays among the children of the first. -/
theorem reparented_listed_twice :
    ∃ store, NodeRuntimeStore.run {}
      [.upsertNode ⟨['a']⟩ {} .direct 1, .upsertNode ⟨['b']⟩ {} .direct 2,
        .upsertChildNode ⟨['a']⟩ ⟨['c']⟩ {} .direct 3,
        .upsertChildNode ⟨['b']⟩ ⟨['c']⟩ {} .direct 4] = some store ∧ ¬store.TreeShape := by
  refine ⟨_, rfl, fun h => ?_⟩
  have hlisted := (h.children ⟨['a']⟩ ⟨['c']⟩).mp (by decide)
  revert hlisted
  decide

end Hapcli.Ssh.NodeRuntimeStore
