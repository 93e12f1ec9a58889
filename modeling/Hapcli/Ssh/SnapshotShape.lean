/-
  Subject:   The shape of the session tree after `apply_snapshot`.

  * **`Shaped.applySnapshot`** -- a snapshot is refused, or the store it gives has the shape.
-/
import Hapcli.Ssh.TreeShape

namespace Hapcli.Ssh.NodeRuntimeStore

open Hapcli.Rust Hapcli.Lib

/-! ## 1. Depths -/

variable {parentById : Map NodeId (Option NodeId)}

section Depths

variable {fuel : Nat} {nodeId : NodeId} {path starts : List NodeId}

theorem mem_keys_of_join {parentId : NodeId}
    (hp : (parentById.lookup nodeId).join = some parentId) : nodeId ∈ parentById.keys := by
  rw [Map.mem_keys_iff]
  cases hl : parentById.lookup nodeId with
  | none =>
    rw [hl] at hp
    cases hp
  | some parent => exact ⟨parent, rfl⟩

theorem snapshotNodeDepth_unique {fuel' : Nat} {depth depth' : Nat}
    (h : snapshotNodeDepth parentById fuel nodeId = some depth)
    (h' : snapshotNodeDepth parentById fuel' nodeId = some depth') : depth = depth' := by
  induction fuel generalizing fuel' nodeId depth depth' with
  | zero => cases h
  | succ fuel ih =>
    cases fuel' with
    | zero => cases h'
    | succ fuel' =>
      unfold snapshotNodeDepth at h h'
      cases hparent : (parentById.lookup nodeId).join with
      | none =>
        rw [hparent] at h h'
        cases h
        cases h'
        rfl
      | some parentId =>
        rw [hparent] at h h'
        obtain ⟨d, hd, rfl⟩ := Option.map_eq_some_iff.mp h
        obtain ⟨d', hd', rfl⟩ := Option.map_eq_some_iff.mp h'
        rw [ih hd hd']

theorem snapshotNodeDepth_of_acyclic (h : findParentCycle parentById fuel path nodeId = some none) :
    ∃ depth, snapshotNodeDepth parentById fuel nodeId = some depth := by
  induction fuel generalizing path nodeId with
  | zero => cases h
  | succ fuel ih =>
    unfold findParentCycle at h
    split at h
    · cases h
    · unfold snapshotNodeDepth
      cases hparent : (parentById.lookup nodeId).join with
      | none => exact ⟨0, rfl⟩
      | some parentId =>
        rw [hparent] at h
        obtain ⟨depth, hdepth⟩ := ih h
        exact ⟨depth + 1, by simp [hdepth]⟩

/-- The search for cycles returns: its path has no node twice, and only nodes of the graph. -/
theorem findParentCycle_returns
    (hclosed : ∀ id parentId, (parentById.lookup id).join = some parentId →
    parentId ∈ parentById.keys) (hpath : path.Nodup) (hsub : ∀ id ∈ path, id ∈ parentById.keys)
    (hnode : nodeId ∈ parentById.keys) (hfuel : parentById.keys.length < fuel + path.length) :
    ∃ answer, findParentCycle parentById fuel path nodeId = some answer := by
  induction fuel generalizing path nodeId with
  | zero =>
    have := (hpath.subperm hsub).length_le
    omega
  | succ fuel ih =>
    unfold findParentCycle
    by_cases hmem : nodeId ∈ path
    · exact ⟨some nodeId, if_pos hmem⟩
    · rw [if_neg hmem]
      cases hparent : (parentById.lookup nodeId).join with
      | none => exact ⟨none, rfl⟩
      | some parentId =>
        refine ih (List.nodup_cons.mpr ⟨hmem, hpath⟩)
          (List.forall_mem_cons.mpr ⟨hnode, hsub⟩) (hclosed nodeId parentId hparent) ?_
        rw [List.length_cons]
        omega

/-- In a graph whose depths grow from parent to child the search finds no cycle, and the depth. -/
theorem walks_of_ranked {depth : NodeId → Nat}
    (hroot : ∀ id ∈ parentById.keys, (parentById.lookup id).join = none → depth id = 0)
    (hrank : ∀ id parentId, (parentById.lookup id).join = some parentId →
      parentId ∈ parentById.keys ∧ depth id = depth parentId + 1) (hnode : nodeId ∈ parentById.keys)
    (hpath : ∀ m ∈ path, depth nodeId < depth m) (hfuel : depth nodeId < fuel) :
    findParentCycle parentById fuel path nodeId = some none ∧
      snapshotNodeDepth parentById fuel nodeId = some (depth nodeId) := by
  induction fuel generalizing path nodeId with
  | zero => omega
  | succ fuel ih =>
    unfold findParentCycle snapshotNodeDepth
    rw [if_neg fun hmem => Nat.lt_irrefl _ (hpath nodeId hmem)]
    cases hparent : (parentById.lookup nodeId).join with
    | none => exact ⟨rfl, by rw [hroot nodeId hnode hparent]⟩
    | some parentId =>
      obtain ⟨hmem, hdepth⟩ := hrank nodeId parentId hparent
      have hdeeper : ∀ m ∈ nodeId :: path, depth parentId < depth m :=
        List.forall_mem_cons.mpr ⟨by omega, fun m hm => by have := hpath m hm; omega⟩
      obtain ⟨hwalk, hfound⟩ := ih hmem hdeeper (by omega)
      exact ⟨hwalk, by simp only [hfound, hdepth, Option.map_some]⟩

theorem validate_of_acyclic (h : ∀ start ∈ starts,
    findParentCycle parentById (parentById.keys.length + 1) [] start = some none) :
    validateSnapshotParentGraph parentById starts = some (.ok ()) := by
  induction starts with
  | nil => rfl
  | cons start rest ih =>
    rw [List.forall_mem_cons] at h
    unfold validateSnapshotParentGraph
    rw [h.1]
    exact ih h.2

theorem validate_of_ok (h : validateSnapshotParentGraph parentById starts = some (.ok ())) :
    ∀ start ∈ starts,
      findParentCycle parentById (parentById.keys.length + 1) [] start = some none := by
  induction starts with
  | nil => simp
  | cons start rest ih =>
    unfold validateSnapshotParentGraph at h
    split at h
    · cases h
    · cases h
    · next hwalk => exact List.forall_mem_cons.mpr ⟨hwalk, ih h⟩

theorem validate_returns (hclosed : ∀ id parentId, (parentById.lookup id).join = some parentId →
    parentId ∈ parentById.keys) (hstarts : ∀ start ∈ starts, start ∈ parentById.keys) :
    ∃ answer, validateSnapshotParentGraph parentById starts = some answer := by
  induction starts with
  | nil => exact ⟨_, rfl⟩
  | cons start rest ih =>
    rw [List.forall_mem_cons] at hstarts
    obtain ⟨answer, hwalk⟩ := findParentCycle_returns hclosed List.nodup_nil (by simp) hstarts.1
      (Nat.lt_succ_self _)
    unfold validateSnapshotParentGraph
    rw [hwalk]
    cases answer with
    | some nodeId => exact ⟨_, rfl⟩
    | none => exact ih hstarts.2

end Depths

/-! ## 2. Reconciling -/

theorem foldl_insertNew {l roots : List NodeId} (h : ∀ id ∈ l, id ∈ roots) :
    l.foldl (fun roots id => if id ∈ roots then roots else roots ++ [id]) roots = roots := by
  induction l with
  | nil => rfl
  | cons id l ih =>
    rw [List.forall_mem_cons] at h
    rw [List.foldl_cons, if_pos h.1, ih h.2]

variable {id : NodeId} {store : NodeRuntimeStore}

theorem mem_computedRoots {nodes : Map NodeId NodeRuntimeEntry} :
    id ∈ computedRoots nodes ↔
      ∃ place, (nodes.lookup id).map (·.place) = some place ∧ place.1 = none := by
  rw [computedRoots, List.mem_mergeSort, List.mem_filterMap]
  constructor
  · rintro ⟨⟨id', route⟩, hentry, hroot⟩
    split at hroot
    · next hnone =>
        cases hroot
        exact ⟨route.place, by rw [Map.lookup_eq_some_iff.mpr hentry, Option.map_some], hnone⟩
    · cases hroot
  · rintro ⟨place, hplace, hroot⟩
    obtain ⟨route, hlookup, rfl⟩ := Option.map_eq_some_iff.mp hplace
    exact ⟨⟨id, route⟩, Map.lookup_eq_some_iff.mp hlookup, if_pos hroot⟩

theorem Shaped.lookup_reconciledNodes (h : store.Shaped) (id : NodeId) :
    store.reconciledNodes.lookup id = store.nodes.lookup id := by
  rw [reconciledNodes, Map.lookup_mapValues]
  cases hlookup : store.nodes.lookup id with
  | none => rfl
  | some route =>
    have hplace := place_of_lookup hlookup
    have hchildren : route.childrenIds.filter (· ∈ store.nodes.keys) = route.childrenIds := by
      rw [List.filter_eq_self]
      intro child hchild
      have hmem : child ∈ store.childrenOf id := by
        rw [childrenOf_eq, hplace]
        exact hchild
      exact decide_eq_true (mem_keys_of_parentOf ((h.forest.child id child).mp hmem))
    cases hp : route.parentId with
    | none =>
      simp only [hp, hchildren, Option.map_some]
      rw [← hp]
    | some parentId =>
      have hmem : parentId ∈ store.nodes.keys := by
        refine h.forest.mem id parentId ?_
        rw [parentOf, hplace]
        exact hp
      simp only [hp, hmem, hchildren, ↓reduceIte, Option.map_some]
      rw [← hp]

theorem Shaped.reconcileTopology_rootIds (h : store.Shaped) :
    store.reconcileTopology.rootIds = store.rootIds := by
  -- the computed roots are the roots
  have hcomputed : ∀ id, id ∈ computedRoots store.reconciledNodes ↔ id ∈ store.rootIds := by
    intro id
    rw [mem_computedRoots, h.lookup_reconciledNodes, h.roots, parentOf, Map.mem_keys_iff]
    constructor
    · rintro ⟨place, hplace, hroot⟩
      obtain ⟨route, hlookup, rfl⟩ := Option.map_eq_some_iff.mp hplace
      exact ⟨⟨route, hlookup⟩, by rw [place_of_lookup hlookup, hroot]⟩
    · rintro ⟨⟨route, hlookup⟩, hroot⟩
      rw [place_of_lookup hlookup] at hroot
      exact ⟨route.place, by rw [hlookup, Option.map_some], hroot⟩
  have hkept : (store.rootIds.filter fun id => id ∈ store.nodes.keys ∧
      id ∈ computedRoots store.reconciledNodes) = store.rootIds := by
    rw [List.filter_eq_self]
    intro id hid
    rw [decide_eq_true_eq, hcomputed]
    exact ⟨((h.roots id).mp hid).1, hid⟩
  show List.foldl _ (List.filter _ _) _ = _
  rw [hkept]
  exact foldl_insertNew fun id hid => (hcomputed id).mp hid

theorem Shaped.reconcileTopology (h : store.Shaped) : store.reconcileTopology.Shaped :=
  h.congr h.reconcileTopology_rootIds fun id =>
    congrArg (Option.map (·.place)) (h.lookup_reconciledNodes id)

/-! ## 3. The restored store -/

theorem nodup_eraseDups (ids : List NodeId) : ids.eraseDups.Nodup := by
  induction hn : ids.length using Nat.strongRecOn generalizing ids with
  | ind n ih =>
    cases ids with
    | nil => exact List.nodup_nil
    | cons id rest =>
      rw [List.eraseDups_cons, List.nodup_cons, List.mem_eraseDups]
      refine ⟨by simp, ih _ ?_ _ rfl⟩
      have := List.length_filter_le (fun other => !other == id) rest
      rw [← hn, List.length_cons]
      omega

theorem mem_orderedSnapshotIds {preferred derived : List NodeId} :
    id ∈ orderedSnapshotIds preferred derived ↔ id ∈ derived := by
  rw [orderedSnapshotIds, List.mem_eraseDups, List.mem_append, List.mem_filter, decide_eq_true_eq]
  exact ⟨fun h => h.elim And.right fun hmem => hmem, .inr⟩

variable {nodes : List NodeTreeSnapshotNode} {node : NodeTreeSnapshotNode}

section Restored

theorem lookup_parentById (hnodup : (nodes.map (·.id)).Nodup) (hnode : node ∈ nodes) :
    (Map.insertAll ∅ (nodes.map fun node => (node.id, node.parentId))).lookup node.id =
      some node.parentId := by
  have hmem : (node.id, node.parentId) ∈ nodes.map fun node => (node.id, node.parentId) :=
    List.mem_map_of_mem hnode
  exact Map.lookup_insertAll_of_mem (by rw [List.map_map]; exact hnodup) hmem ∅

theorem mem_keys_parentById :
    id ∈ (Map.insertAll ∅ (nodes.map fun node => (node.id, node.parentId))).keys ↔
      id ∈ nodes.map (·.id) := by
  rw [Map.mem_keys_insertAll, List.map_map]
  simp [Function.comp_def]

/-- What a store finds that holds the nodes of a snapshot at these depths. -/
structure Restores (nodes : List NodeTreeSnapshotNode) (depth : NodeId → Nat)
    (store : NodeRuntimeStore) : Prop where
  mem_keys : ∀ id, id ∈ store.nodes.keys ↔ ∃ node ∈ nodes, node.id = id
  place : ∀ node ∈ nodes, store.place node.id = (restoredEntry nodes (depth node.id) node).place

theorem lookup_restored (hnodup : (nodes.map (·.id)).Nodup) (depth : NodeId → Nat)
    (hnode : node ∈ nodes) :
    (Map.insertAll ∅ (nodes.map fun node =>
      (node.id, restoredEntry nodes (depth node.id) node))).lookup node.id =
      some (restoredEntry nodes (depth node.id) node) := by
  have hmem : (node.id, restoredEntry nodes (depth node.id) node) ∈
      nodes.map fun node => (node.id, restoredEntry nodes (depth node.id) node) :=
    List.mem_map_of_mem hnode
  exact Map.lookup_insertAll_of_mem (by rw [List.map_map]; exact hnodup) hmem ∅

theorem restores_insertAll (hnodup : (nodes.map (·.id)).Nodup) (depth : NodeId → Nat)
    (rootIds : List NodeId) (connectionNodes : Map Str NodeId) :
    Restores nodes depth {
      nodes := Map.insertAll ∅ (nodes.map fun node =>
        (node.id, restoredEntry nodes (depth node.id) node))
      rootIds := rootIds
      connectionNodes := connectionNodes } := by
  refine ⟨fun id => ?_, fun node hnode => place_of_lookup (lookup_restored hnodup depth hnode)⟩
  rw [Map.mem_keys_insertAll, List.map_map]
  simp [Function.comp_def]

namespace Restores

variable {depth : NodeId → Nat}

section

variable (h : Restores nodes depth store)

include h

theorem parentOf_node (hnode : node ∈ nodes) : store.parentOf node.id = node.parentId := by
  rw [parentOf, h.place node hnode]
  rfl

theorem depthOf_node (hnode : node ∈ nodes) : store.depthOf node.id = depth node.id := by
  rw [depthOf, h.place node hnode]
  rfl

theorem parentOf_iff {parentId : NodeId} : store.parentOf id = some parentId ↔
      ∃ node ∈ nodes, node.id = id ∧ node.parentId = some parentId := by
  constructor
  · intro hp
    obtain ⟨node, hnode, rfl⟩ := (h.mem_keys id).mp (mem_keys_of_parentOf hp)
    rw [h.parentOf_node hnode] at hp
    exact ⟨node, hnode, rfl, hp⟩
  · rintro ⟨node, hnode, rfl, hp⟩
    rw [h.parentOf_node hnode, hp]

theorem mem_childrenOf (hclosed : ∀ node ∈ nodes, ∀ parentId, node.parentId = some parentId →
      parentId ∈ nodes.map (·.id)) (id child : NodeId) :
    child ∈ store.childrenOf id ↔ store.parentOf child = some id := by
  rw [h.parentOf_iff]
  by_cases hmem : id ∈ store.nodes.keys
  · obtain ⟨node, hnode, rfl⟩ := (h.mem_keys id).mp hmem
    rw [childrenOf_eq, h.place node hnode]
    simp only [NodeRuntimeEntry.place, restoredEntry, mem_orderedSnapshotIds, List.mem_map,
      List.mem_filter, decide_eq_true_eq]
    constructor
    · rintro ⟨childNode, ⟨hchild, hp⟩, rfl⟩
      exact ⟨childNode, hchild, rfl, hp⟩
    · rintro ⟨childNode, hchild, rfl, hp⟩
      exact ⟨childNode, ⟨hchild, hp⟩, rfl⟩
  · rw [childrenOf_eq, place_of_notMem hmem]
    refine ⟨fun hchild => absurd hchild List.not_mem_nil, ?_⟩
    rintro ⟨childNode, hchild, -, hp⟩
    obtain ⟨parent, hparentNode, rfl⟩ := List.mem_map.mp (hclosed childNode hchild id hp)
    exact absurd ((h.mem_keys _).mpr ⟨parent, hparentNode, rfl⟩) hmem

theorem nodup_childrenOf (id : NodeId) : (store.childrenOf id).Nodup := by
  by_cases hmem : id ∈ store.nodes.keys
  · obtain ⟨node, hnode, rfl⟩ := (h.mem_keys id).mp hmem
    rw [childrenOf_eq, h.place node hnode]
    exact nodup_eraseDups _
  · rw [childrenOf_eq, place_of_notMem hmem]
    exact List.nodup_nil

theorem mem_rootIds (id : NodeId) :
    id ∈ rootIdsFromNodes nodes ↔ id ∈ store.nodes.keys ∧ store.parentOf id = none := by
  rw [h.mem_keys, rootIdsFromNodes, List.mem_map]
  simp only [List.mem_filter, decide_eq_true_eq]
  constructor
  · rintro ⟨node, ⟨hnode, hp⟩, rfl⟩
    exact ⟨⟨node, hnode, rfl⟩, by rw [h.parentOf_node hnode, hp]⟩
  · rintro ⟨⟨node, hnode, rfl⟩, hp⟩
    rw [h.parentOf_node hnode] at hp
    exact ⟨node, ⟨hnode, hp⟩, rfl⟩

end

end Restores

/-- A snapshot as it is accepted: no identifier occurs twice, no parent is missing, and the depths
    of the nodes are bounded. -/
structure Valid (nodes : List NodeTreeSnapshotNode) (depth : NodeId → Nat) : Prop where
  nodup : (nodes.map (·.id)).Nodup
  closed : ∀ node ∈ nodes, ∀ parentId, node.parentId = some parentId → parentId ∈ nodes.map (·.id)
  root : ∀ node ∈ nodes, node.parentId = none → depth node.id = 0
  child : ∀ node ∈ nodes, ∀ parentId, node.parentId = some parentId →
    depth node.id = depth parentId + 1
  shallow : ∀ node ∈ nodes, depth node.id ≤ maxSessionTreeDepth

/-- The store that an accepted snapshot gives, before it is reconciled. -/
def restored (snapshot : NodeTreeSnapshot) (depth : NodeId → Nat) : NodeRuntimeStore where
  nodes := Map.insertAll ∅ (snapshot.nodes.map fun node =>
    (node.id, restoredEntry snapshot.nodes (depth node.id) node))
  rootIds := orderedSnapshotIds snapshot.rootIds (rootIdsFromNodes snapshot.nodes)
  connectionNodes := Map.insertAll ∅ (snapshot.nodes.filterMap fun node =>
    node.connectionId.map fun connectionId => (connectionId, node.id))

theorem Valid.shaped {snapshot : NodeTreeSnapshot} {depth : NodeId → Nat}
    (hvalid : Valid snapshot.nodes depth) : (restored snapshot depth).Shaped := by
  have h : Restores snapshot.nodes depth (restored snapshot depth) :=
    restores_insertAll hvalid.nodup depth _ _
  refine ⟨⟨?_, ?_, ?_, h.mem_childrenOf hvalid.closed, h.nodup_childrenOf⟩, fun id => ?_,
    nodup_eraseDups _⟩
  · intro id parentId hp
    obtain ⟨node, hnode, rfl, hup⟩ := h.parentOf_iff.mp hp
    obtain ⟨parent, hparentNode, rfl⟩ := List.mem_map.mp (hvalid.closed node hnode parentId hup)
    rw [h.depthOf_node hnode, h.depthOf_node hparentNode, hvalid.child node hnode _ hup]
  · intro id hp
    by_cases hmem : ∃ node ∈ snapshot.nodes, node.id = id
    · obtain ⟨node, hnode, rfl⟩ := hmem
      rw [h.parentOf_node hnode] at hp
      rw [h.depthOf_node hnode, hvalid.root node hnode hp]
    · rw [depthOf, place_of_notMem fun hkeys => hmem ((h.mem_keys id).mp hkeys)]
  · intro id parentId hp
    obtain ⟨node, hnode, rfl, hup⟩ := h.parentOf_iff.mp hp
    obtain ⟨parent, hparentNode, rfl⟩ := List.mem_map.mp (hvalid.closed node hnode parentId hup)
    exact (h.mem_keys _).mpr ⟨parent, hparentNode, rfl⟩
  · rw [← h.mem_rootIds]
    exact mem_orderedSnapshotIds

end Restored

/-! ## 4. Applying a snapshot -/

/-- What `apply_snapshot` finds when it looks a parent up: that of the node, and one that is there
    itself. -/
structure Looks (nodes : List NodeTreeSnapshotNode) (parentById : Map NodeId (Option NodeId)) :
    Prop where
  keys : ∀ {id}, id ∈ parentById.keys ↔ id ∈ nodes.map (·.id)
  parent : ∀ node ∈ nodes, (parentById.lookup node.id).join = node.parentId
  closed : ∀ node ∈ nodes, ∀ parentId, node.parentId = some parentId →
    parentId ∈ nodes.map (·.id)

theorem looks_insertAll (hnodup : (nodes.map (·.id)).Nodup)
    (hmissing : (nodes.findSome? fun node => node.parentId.bind fun parentId =>
      if parentId ∈ nodes.map (·.id) then none else some parentId) = none) :
    Looks nodes (Map.insertAll ∅ (nodes.map fun node => (node.id, node.parentId))) := by
  refine ⟨mem_keys_parentById, fun node hnode => ?_, fun node hnode parentId hp => ?_⟩
  · rw [lookup_parentById hnodup hnode, Option.join_some]
  · have hfound := List.findSome?_eq_none_iff.mp hmissing node hnode
    rw [hp, Option.bind_some] at hfound
    by_contra hmem
    rw [if_neg hmem] at hfound
    cases hfound

namespace Looks

theorem mem_of_parent (h : Looks nodes parentById) (id parentId : NodeId)
    (hp : (parentById.lookup id).join = some parentId) : parentId ∈ parentById.keys := by
  obtain ⟨node, hnode, rfl⟩ := List.mem_map.mp (h.keys.mp (mem_keys_of_join hp))
  rw [h.parent node hnode] at hp
  exact h.keys.mpr (h.closed node hnode parentId hp)

/-- The depth of a node, once the parents are known to be acyclic. -/
def depth (parentById : Map NodeId (Option NodeId)) (id : NodeId) : Nat :=
  (snapshotNodeDepth parentById (parentById.keys.length + 1) id).getD 0

section Depth

variable (h : Looks nodes parentById)
  (hvalid : validateSnapshotParentGraph parentById parentById.keys = some (.ok ()))
  (hnode : node ∈ nodes)

include h hvalid hnode

theorem depth_eq : snapshotNodeDepth parentById (parentById.keys.length + 1) node.id =
    some (depth parentById node.id) := by
  have hacyclic := validate_of_ok hvalid node.id (h.keys.mpr (List.mem_map_of_mem hnode))
  obtain ⟨d, hd⟩ := snapshotNodeDepth_of_acyclic hacyclic
  rw [depth, hd, Option.getD_some]

theorem depth_root (hp : node.parentId = none) : depth parentById node.id = 0 := by
  have hd := h.depth_eq hvalid hnode
  unfold snapshotNodeDepth at hd
  rw [h.parent node hnode, hp] at hd
  exact (Option.some.inj hd).symm

theorem depth_child {parentId : NodeId} (hp : node.parentId = some parentId) :
    depth parentById node.id = depth parentById parentId + 1 := by
  have hd := h.depth_eq hvalid hnode
  unfold snapshotNodeDepth at hd
  rw [h.parent node hnode, hp] at hd
  obtain ⟨d, hparent, hsucc⟩ := Option.map_eq_some_iff.mp hd
  obtain ⟨parent, hparentNode, rfl⟩ := List.mem_map.mp (h.closed node hnode parentId hp)
  rw [← hsucc, snapshotNodeDepth_unique hparent (h.depth_eq hvalid hparentNode)]

end Depth

end Looks

/-- A snapshot without missing parents, whose depths are bounded, is accepted. -/
theorem applySnapshot_of_valid (store : NodeRuntimeStore) {snapshot : NodeTreeSnapshot}
    {depth : NodeId → Nat} (hvalid : Valid snapshot.nodes depth) :
    store.applySnapshot snapshot = some (.ok (), (restored snapshot depth).reconcileTopology) := by
  have hmissing : (snapshot.nodes.findSome? fun node => node.parentId.bind fun parentId =>
      if parentId ∈ snapshot.nodes.map (·.id) then none else some parentId) = none := by
    rw [List.findSome?_eq_none_iff]
    intro node hnode
    cases hp : node.parentId with
    | none => rfl
    | some parentId => simp only [Option.bind_some, if_pos (hvalid.closed node hnode parentId hp)]
  have hlooks := looks_insertAll hvalid.nodup hmissing
  unfold NodeRuntimeStore.applySnapshot
  simp only [hvalid.nodup, not_true_eq_false, ↓reduceIte, hmissing]
  generalize (Map.insertAll ∅ (snapshot.nodes.map fun node => (node.id, node.parentId)) :
    Map NodeId (Option NodeId)) = parentById at hlooks ⊢
  have hwalks : ∀ node ∈ snapshot.nodes,
      findParentCycle parentById (parentById.keys.length + 1) [] node.id = some none ∧
      snapshotNodeDepth parentById (parentById.keys.length + 1) node.id = some (depth node.id) := by
    intro node hnode
    have hlookup : ∀ id ∈ parentById.keys, ∃ node ∈ snapshot.nodes,
        node.id = id ∧ (parentById.lookup id).join = node.parentId := by
      intro id hid
      obtain ⟨node, hnode, rfl⟩ := List.mem_map.mp (hlooks.keys.mp hid)
      exact ⟨node, hnode, rfl, hlooks.parent node hnode⟩
    refine walks_of_ranked (fun id hid hp => ?_) (fun id parentId hp => ?_)
      (hlooks.keys.mpr (List.mem_map_of_mem hnode)) (by simp) ?_
    · obtain ⟨node, hnode, rfl, hparent⟩ := hlookup id hid
      exact hvalid.root node hnode (hparent ▸ hp)
    · obtain ⟨node, hnode, rfl, hparent⟩ := hlookup id (mem_keys_of_join hp)
      exact ⟨hlooks.mem_of_parent _ _ hp, hvalid.child node hnode parentId (hparent ▸ hp)⟩
    · -- a forest is no deeper than it is large
      have hrestores : Restores snapshot.nodes depth (restored snapshot depth) :=
        restores_insertAll hvalid.nodup depth _ _
      have hdepth := hvalid.shaped.forest.depth_le node.id
      rw [hrestores.depthOf_node hnode] at hdepth
      have hlength := ((restored snapshot depth).nodes.keys_nodup.subperm
        fun id hid => hlooks.keys.mpr (List.mem_map.mpr ((hrestores.mem_keys id).mp hid))).length_le
      omega
  have hverdict : validateSnapshotParentGraph parentById parentById.keys = some (.ok ()) := by
    refine validate_of_acyclic fun start hstart => ?_
    obtain ⟨node, hnode, rfl⟩ := List.mem_map.mp (hlooks.keys.mp hstart)
    exact (hwalks node hnode).1
  have hmap : (snapshot.nodes.mapM fun node =>
      (snapshotNodeDepth parentById (parentById.keys.length + 1) node.id).map fun depth =>
        (node, depth)) = some (snapshot.nodes.map fun node => (node, depth node.id)) :=
    mapM_eq_some fun node hnode => by rw [(hwalks node hnode).2, Option.map_some]
  have hshallow : ((snapshot.nodes.map fun node => (node, depth node.id)).any fun node =>
      node.2 > maxSessionTreeDepth) = false := by
    simpa using hvalid.shallow
  simp only [hverdict, hmap, hshallow, Bool.false_eq_true, ↓reduceIte, List.map_map]
  rfl

theorem applySnapshot_cases (store : NodeRuntimeStore) (snapshot : NodeTreeSnapshot) :
    (∃ error, store.applySnapshot snapshot = some (.error error, store)) ∨
      ∃ depth, Valid snapshot.nodes depth ∧
        store.applySnapshot snapshot = some (.ok (), (restored snapshot depth).reconcileTopology) := by
  unfold NodeRuntimeStore.applySnapshot
  by_cases hnodup : (snapshot.nodes.map (·.id)).Nodup
  swap
  · simp only [hnodup, not_false_eq_true, ↓reduceIte]
    exact .inl ⟨_, rfl⟩
  simp only [hnodup, not_true_eq_false, ↓reduceIte]
  cases hmissing : snapshot.nodes.findSome? fun node => node.parentId.bind fun parentId =>
      if parentId ∈ snapshot.nodes.map (·.id) then none else some parentId with
  | some parentId => exact .inl ⟨_, rfl⟩
  | none =>
    have hlooks := looks_insertAll hnodup hmissing
    generalize (Map.insertAll ∅ (snapshot.nodes.map fun node => (node.id, node.parentId)) :
      Map NodeId (Option NodeId)) = parentById at hlooks ⊢
    obtain ⟨verdict, hverdict⟩ := validate_returns hlooks.mem_of_parent fun _ hstart => hstart
    simp only [hverdict]
    cases verdict with
    | error error => exact .inl ⟨_, rfl⟩
    | ok _ =>
      have hmap : (snapshot.nodes.mapM fun node =>
          (snapshotNodeDepth parentById (parentById.keys.length + 1) node.id).map fun depth =>
            (node, depth)) =
          some (snapshot.nodes.map fun node => (node, Looks.depth parentById node.id)) :=
        mapM_eq_some fun node hnode => by
          rw [hlooks.depth_eq hverdict hnode, Option.map_some]
      simp only [hmap]
      split
      · exact .inl ⟨_, rfl⟩
      · next hdeep =>
        refine .inr ⟨Looks.depth parentById, ⟨hnodup, hlooks.closed,
          fun node hnode hp => hlooks.depth_root hverdict hnode hp,
          fun node hnode parentId hp => hlooks.depth_child hverdict hnode hp,
          fun node hnode => ?_⟩, ?_⟩
        · simp only [List.any_map, List.any_eq_true, not_exists, not_and, Function.comp_apply,
            decide_eq_true_eq, Nat.not_lt] at hdeep
          exact hdeep node hnode
        · rw [List.map_map]
          rfl

/-- A snapshot is refused and changes nothing, or the store it gives has the shape. -/
theorem Shaped.applySnapshot (h : store.Shaped) (snapshot : NodeTreeSnapshot) :
    ∃ answer store', store.applySnapshot snapshot = some (answer, store') ∧ store'.Shaped := by
  rcases store.applySnapshot_cases snapshot with ⟨error, heq⟩ | ⟨depth, hvalid, heq⟩
  · exact ⟨_, store, heq, h⟩
  · exact ⟨_, _, heq, hvalid.shaped.reconcileTopology⟩

end Hapcli.Ssh.NodeRuntimeStore
