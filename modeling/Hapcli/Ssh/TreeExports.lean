/-
  Subject:   What is read out of the session tree: the roots of a selection, the snapshot, and the
             snapshot that is kept on disk (`router/runtime_store.rs`).

  * `minimalSubtreeRoots`, **`minimal_subtree_roots`** -- the topmost of the selected nodes;
  * `exportSnapshot`, **`snapshot_round_trip`** -- a snapshot of the tree gives the tree again, and
    one that is no tree is refused;
  * `exportPersistenceSnapshot`, **`persistence_export`** -- what is kept is again a tree: the nodes
    below no node that holds a secret.
-/
import Hapcli.Ssh.SnapshotShape
import Mathlib.Data.Char
import Mathlib.Data.List.Lex

namespace Hapcli.Ssh

open Hapcli.Rust Hapcli.Lib

/-- `saved_connection_id`. -/
def NodeOrigin.savedConnectionId : NodeOrigin → Option Str
  | .manualPreset savedConnectionId _ | .restored savedConnectionId => some savedConnectionId
  | .autoRoute .. | .drillDown _ | .direct => none

/-- How the tuples compare by which the nodes are sorted. -/
def sortKeyLe (key key' : Nat × Nat × Str) : Bool :=
  key.1 < key'.1 || (key.1 == key'.1 &&
    (key.2.1 < key'.2.1 || (key.2.1 == key'.2.1 && decide (key.2.2 ≤ key'.2.2))))

theorem sortKeyLe_trans {key key' key'' : Nat × Nat × Str} (h : sortKeyLe key key' = true)
    (h' : sortKeyLe key' key'' = true) : sortKeyLe key key'' = true := by
  simp only [sortKeyLe, Bool.or_eq_true, Bool.and_eq_true, decide_eq_true_eq, beq_iff_eq] at h h' ⊢
  grind

theorem sortKeyLe_total (key key' : Nat × Nat × Str) :
    (sortKeyLe key key' || sortKeyLe key' key) = true := by
  simp only [sortKeyLe, Bool.or_eq_true, Bool.and_eq_true, decide_eq_true_eq, beq_iff_eq]
  grind

theorem pairwise_sorted {α : Type} (key : α → Nat × Nat × Str) (l : List α) :
    (l.mergeSort fun a b => sortKeyLe (key a) (key b)).Pairwise fun a b =>
      (key a).1 ≤ (key b).1 := by
  have hsorted : (l.mergeSort fun a b => sortKeyLe (key a) (key b)).Pairwise fun a b =>
      sortKeyLe (key a) (key b) = true :=
    List.pairwise_mergeSort (fun a b c => @sortKeyLe_trans (key a) (key b) (key c))
      (fun a b => sortKeyLe_total (key a) (key b)) l
  refine hsorted.imp fun {a b} hle => ?_
  simp only [sortKeyLe, Bool.or_eq_true, Bool.and_eq_true, decide_eq_true_eq, beq_iff_eq] at hle
  omega

namespace NodeRuntimeStore

variable {store : NodeRuntimeStore}

/-! ## 1. The roots of a selection -/

def nodeIsDescendantOrSame (store : NodeRuntimeStore) : Nat → NodeId → NodeId → Option Bool
  | 0, _, _ => none
  | fuel + 1, nodeId, ancestorId =>
    if nodeId = ancestorId then some true
    else match (store.nodes.lookup nodeId).bind (·.parentId) with
      | none => some false
      | some parentId => nodeIsDescendantOrSame store fuel parentId ancestorId

/-- The loop of `minimal_subtree_roots`. -/
def collectRoots (store : NodeRuntimeStore) : List NodeId → List NodeId → Option (List NodeId)
  | roots, [] => some roots
  | roots, nodeId :: rest => do
    if ← roots.anyM fun rootId => store.nodeIsDescendantOrSame store.fuel nodeId rootId then
      collectRoots store roots rest
    else collectRoots store (roots ++ [nodeId]) rest

def minimalSubtreeRoots (store : NodeRuntimeStore) (candidateNodeIds : List NodeId) :
    Option (List NodeId) :=
  let depth := fun nodeId => match store.nodes.lookup nodeId with
    | some node => node.depth
    | none => 2 ^ 32 - 1
  store.collectRoots [] ((candidateNodeIds.filter (· ∈ store.nodes.keys)).mergeSort fun id id' =>
    sortKeyLe (depth id, 0, id.value) (depth id', 0, id'.value))

theorem nodeIsDescendantOrSame_eq (h : store.Shaped) {fuel : Nat} {nodeId : NodeId}
    (ancestorId : NodeId) (hfuel : store.depthOf nodeId < fuel) :
    ∃ below, store.nodeIsDescendantOrSame fuel nodeId ancestorId = some below ∧
      (below = true ↔ Above store.parentOf ancestorId nodeId) := by
  induction fuel generalizing nodeId with
  | zero => omega
  | succ fuel ih =>
    unfold nodeIsDescendantOrSame
    by_cases hsame : nodeId = ancestorId
    · subst hsame
      exact ⟨true, if_pos rfl, by simp [Above.refl]⟩
    rw [if_neg hsame, bind_parentId]
    cases hp : store.parentOf nodeId with
    | none => exact ⟨false, rfl, by simpa using fun habove => hsame (habove.eq_of_root hp)⟩
    | some parentId =>
      have hdepth := h.forest.ranked nodeId parentId hp
      obtain ⟨below, heq, hbelow⟩ := ih (show store.depthOf parentId < fuel by omega)
      refine ⟨below, heq, hbelow.trans ⟨.step hp, fun habove => ?_⟩⟩
      cases habove with
      | refl => exact absurd rfl hsame
      | step hstep habove =>
        rw [hp] at hstep
        cases hstep
        exact habove

theorem anyM_eq {f : NodeId → Option Bool} {P : NodeId → Prop} (ids : List NodeId)
    (h : ∀ id ∈ ids, ∃ b, f id = some b ∧ (b = true ↔ P id)) :
    ∃ b, ids.anyM f = some b ∧ (b = true ↔ ∃ id ∈ ids, P id) := by
  induction ids with
  | nil => exact ⟨false, rfl, by simp⟩
  | cons id ids ih =>
    rw [List.forall_mem_cons] at h
    obtain ⟨⟨b, hb, hP⟩, hrest⟩ := h
    obtain ⟨b', hb', hP'⟩ := ih hrest
    cases b with
    | true => exact ⟨true, by simp [List.anyM, hb], by simp [← hP]⟩
    | false =>
      refine ⟨b', by simpa [List.anyM, hb] using hb', ?_⟩
      rw [hP', List.exists_mem_cons_iff, ← hP]
      simp

/-- What the loop has collected of the nodes it has seen: none below another, and every node seen
    below one of them. -/
structure Collected (parent : NodeId → Option NodeId) (roots seen : List NodeId) : Prop where
  nodup : roots.Nodup
  sub : ∀ r ∈ roots, r ∈ seen
  antichain : ∀ r ∈ roots, ∀ r' ∈ roots, Above parent r r' → r = r'
  covers : ∀ id ∈ seen, ∃ r ∈ roots, Above parent r id

theorem collectRoots_eq (h : store.Shaped) {rest roots seen : List NodeId}
    (hroots : Collected store.parentOf roots seen)
    (hsorted : (seen ++ rest).Pairwise fun id id' => store.depthOf id ≤ store.depthOf id') :
    ∃ all, store.collectRoots roots rest = some all ∧
      Collected store.parentOf all (seen ++ rest) := by
  induction rest generalizing roots seen with
  | nil => exact ⟨roots, rfl, by rwa [List.append_nil]⟩
  | cons id rest ih =>
    have hfuel : store.depthOf id < store.fuel := Nat.lt_succ_of_le (h.forest.depth_le id)
    obtain ⟨below, heq, hbelow⟩ := anyM_eq roots fun r _ =>
      store.nodeIsDescendantOrSame_eq h r hfuel
    have hassoc : seen ++ id :: rest = (seen ++ [id]) ++ rest := by simp
    rw [hassoc] at hsorted ⊢
    unfold collectRoots
    rw [heq, Option.bind_eq_bind, Option.bind_some]
    cases below with
    | true =>
      obtain ⟨r, hr, habove⟩ := hbelow.mp rfl
      refine ih ⟨hroots.nodup, fun r hr => List.mem_append_left _ (hroots.sub r hr),
        hroots.antichain, ?_⟩ hsorted
      rw [List.forall_mem_append, List.forall_mem_singleton]
      exact ⟨hroots.covers, r, hr, habove⟩
    | false =>
      have hfree : ∀ r ∈ roots, ¬Above store.parentOf r id := fun r hr habove =>
        Bool.false_ne_true (hbelow.mpr ⟨r, hr, habove⟩)
      -- a root above which the node stood would be deeper, or the node itself
      have hover : ∀ r ∈ roots, ¬Above store.parentOf id r := by
        intro r hr habove
        have hle : store.depthOf r ≤ store.depthOf id :=
          (List.pairwise_append.mp (List.pairwise_append.mp hsorted).1).2.2 r (hroots.sub r hr) id
            (List.mem_singleton_self id)
        have hsame := habove.unique h.forest.ranked .refl
          (Nat.le_antisymm (habove.depth_le h.forest.ranked) hle)
        exact hfree r hr (hsame ▸ .refl)
      refine ih ⟨?_, ?_, ?_, ?_⟩ hsorted
      · exact hroots.nodup.append (List.nodup_singleton id)
          (List.disjoint_singleton.mpr fun hmem => hfree id hmem .refl)
      · rw [List.forall_mem_append, List.forall_mem_singleton]
        exact ⟨fun r hr => List.mem_append_left _ (hroots.sub r hr), by simp⟩
      · simp only [List.forall_mem_append, List.forall_mem_singleton]
        exact ⟨fun r hr => ⟨hroots.antichain r hr, fun habove => absurd habove (hfree r hr)⟩,
          fun r hr habove => absurd habove (hover r hr), fun _ => trivial⟩
      · simp only [List.forall_mem_append, List.forall_mem_singleton]
        refine ⟨fun m hm => ?_, id, by simp, .refl⟩
        obtain ⟨r, hr, habove⟩ := hroots.covers m hm
        exact ⟨r, List.mem_append_left _ hr, habove⟩

/-- **The topmost of the selected nodes: none is below another, and every selected node of the tree
    is one of them or below exactly one.** -/
theorem minimal_subtree_roots (h : store.Shaped) (candidateNodeIds : List NodeId) :
    ∃ roots, store.minimalSubtreeRoots candidateNodeIds = some roots ∧ roots.Nodup ∧
      (∀ r ∈ roots, r ∈ candidateNodeIds) ∧
      (∀ r ∈ roots, ∀ r' ∈ roots, Above store.parentOf r r' → r = r') ∧
      ∀ id ∈ candidateNodeIds, id ∈ store.nodes.keys →
        ∃! r, r ∈ roots ∧ Above store.parentOf r id := by
  obtain ⟨sorted, hsort, hmem, hsorted⟩ : ∃ sorted,
      store.minimalSubtreeRoots candidateNodeIds = store.collectRoots [] sorted ∧
      (∀ id, id ∈ sorted ↔ id ∈ candidateNodeIds ∧ id ∈ store.nodes.keys) ∧
      sorted.Pairwise fun id id' => store.depthOf id ≤ store.depthOf id' := by
    refine ⟨_, rfl, fun id => by simp [List.mem_mergeSort], ?_⟩
    refine (pairwise_sorted (fun id : NodeId => (_, 0, id.value)) _).imp_of_mem ?_
    intro id id' hid hid' hle
    rw [List.mem_mergeSort, List.mem_filter, decide_eq_true_eq, Map.mem_keys_iff] at hid hid'
    obtain ⟨-, route, hlookup⟩ := hid
    obtain ⟨-, route', hlookup'⟩ := hid'
    rw [depthOf, depthOf, place_of_lookup hlookup, place_of_lookup hlookup']
    simpa only [hlookup, hlookup', NodeRuntimeEntry.place] using hle
  have hstart : Collected store.parentOf [] [] := ⟨List.nodup_nil, by simp, by simp, by simp⟩
  obtain ⟨roots, heq, hroots⟩ := collectRoots_eq h hstart hsorted
  refine ⟨roots, hsort.trans heq, hroots.nodup, fun r hr => ((hmem r).mp (hroots.sub r hr)).1,
    hroots.antichain, fun id hid hkey => ?_⟩
  obtain ⟨r, hr, habove⟩ := hroots.covers id ((hmem id).mpr ⟨hid, hkey⟩)
  refine ⟨r, ⟨hr, habove⟩, ?_⟩
  rintro r' ⟨hr', habove'⟩
  rcases habove'.total habove with hdown | hdown
  · exact hroots.antichain r' hr' r hr hdown
  · exact (hroots.antichain r hr r' hr' hdown).symm

/-- The tree with the root `a`, and `b` below it. -/
def twoNodes : NodeRuntimeStore :=
  ((NodeRuntimeStore.upsertNode {} ⟨['a']⟩ {} 1).upsertChildNode ⟨['a']⟩ ⟨['b']⟩ {} 2).2

theorem shaped_twoNodes : twoNodes.Shaped :=
  (Shaped.empty.upsertNode ⟨['a']⟩ {} .direct 1).upsertChild (by decide) (.inl (by decide)) {}
    .direct 2

/-- Both nodes selected, one twice, with one that is not there. -/
theorem minimal_subtree_roots_two :
    ∃ roots, twoNodes.minimalSubtreeRoots [⟨['b']⟩, ⟨['a']⟩, ⟨['b']⟩, ⟨['z']⟩] = some roots ∧
      ∃! r, r ∈ roots ∧ Above twoNodes.parentOf r ⟨['b']⟩ := by
  obtain ⟨roots, heq, -, -, -, hcovers⟩ :=
    minimal_subtree_roots shaped_twoNodes [⟨['b']⟩, ⟨['a']⟩, ⟨['b']⟩, ⟨['z']⟩]
  exact ⟨roots, heq, hcovers ⟨['b']⟩ (by decide) (by decide)⟩

/-! ## 2. The snapshot -/

def exportedNode (id : NodeId) (route : NodeRuntimeEntry) : NodeTreeSnapshotNode where
  id := id
  parentId := route.parentId
  childrenIds := route.childrenIds
  depth := route.depth
  config := route.config
  origin := route.origin
  state := route.state
  connectionId := route.connectionId
  terminalSessionId := route.terminalSessionId
  terminalEndpoints := route.terminalEndpoints
  sftpSessionId := route.sftpSessionId
  createdAtMs := route.createdAtMs
  generation := route.generation

def exportSnapshot (store : NodeRuntimeStore) (now : Nat) : NodeTreeSnapshot where
  version := 1
  exportedAtMs := now
  rootIds := store.rootIds
  nodes := (store.nodes.entries.map fun entry => exportedNode entry.1 entry.2).mergeSort
    fun node node' => sortKeyLe (node.depth, node.createdAtMs, node.id.value)
      (node'.depth, node'.createdAtMs, node'.id.value)

theorem mem_exportSnapshot {now : Nat} {node : NodeTreeSnapshotNode} :
    node ∈ (store.exportSnapshot now).nodes ↔
      ∃ route, store.nodes.lookup node.id = some route ∧ node = exportedNode node.id route := by
  rw [exportSnapshot, List.mem_mergeSort, List.mem_map]
  constructor
  · rintro ⟨entry, hentry, rfl⟩
    exact ⟨entry.2, Map.lookup_eq_some_iff.mpr hentry, rfl⟩
  · rintro ⟨route, hlookup, heq⟩
    exact ⟨⟨node.id, route⟩, Map.lookup_eq_some_iff.mp hlookup, heq.symm⟩

theorem nodup_exportSnapshot (store : NodeRuntimeStore) (now : Nat) :
    ((store.exportSnapshot now).nodes.map (·.id)).Nodup := by
  rw [exportSnapshot, ((List.mergeSort_perm _ _).map _).nodup_iff, List.map_map]
  exact store.nodes.keys_nodup

theorem valid_exportSnapshot (h : store.Shaped)
    (hshallow : ∀ id, store.depthOf id ≤ maxSessionTreeDepth) (now : Nat) :
    Valid (store.exportSnapshot now).nodes store.depthOf := by
  have hparent : ∀ node ∈ (store.exportSnapshot now).nodes,
      store.parentOf node.id = node.parentId := by
    intro node hnode
    obtain ⟨route, hlookup, heq⟩ := (mem_exportSnapshot).mp hnode
    rw [parentOf, place_of_lookup hlookup, heq]
    rfl
  refine ⟨store.nodup_exportSnapshot now, fun node hnode parentId hp => ?_,
    fun node hnode hp => h.forest.root _ ((hparent node hnode).trans hp),
    fun node hnode parentId hp => h.forest.ranked _ _ ((hparent node hnode).trans hp),
    fun node _ => hshallow node.id⟩
  obtain ⟨route, hlookup⟩ := Map.mem_keys_iff.mp
    (h.forest.mem _ _ ((hparent node hnode).trans hp))
  exact List.mem_map.mpr ⟨exportedNode parentId route, (mem_exportSnapshot).mpr ⟨route, hlookup, rfl⟩,
    rfl⟩

variable {id : NodeId}

theorem mem_exported_below {now : Nat} {parent : Option NodeId} :
    id ∈ ((store.exportSnapshot now).nodes.filter fun node => node.parentId = parent).map (·.id) ↔
      id ∈ store.nodes.keys ∧ store.parentOf id = parent := by
  simp only [List.mem_map, List.mem_filter, decide_eq_true_eq, mem_exportSnapshot, Map.mem_keys_iff]
  constructor
  · rintro ⟨node, ⟨⟨route, hlookup, heq⟩, hp⟩, rfl⟩
    refine ⟨⟨route, hlookup⟩, ?_⟩
    rw [parentOf, place_of_lookup hlookup, ← hp, heq]
    rfl
  · rintro ⟨⟨route, hlookup⟩, hp⟩
    rw [parentOf, place_of_lookup hlookup] at hp
    exact ⟨exportedNode id route, ⟨⟨route, hlookup, rfl⟩, hp⟩, rfl⟩

theorem eraseDups_of_nodup {ids : List NodeId} (h : ids.Nodup) : ids.eraseDups = ids := by
  induction ids with
  | nil => rfl
  | cons id ids ih =>
    rw [List.nodup_cons] at h
    rw [List.eraseDups_cons, List.filter_eq_self.mpr fun other hother => ?_, ih h.2]
    simp only [Bool.not_eq_true', beq_eq_false_iff_ne]
    rintro rfl
    exact h.1 hother

theorem orderedSnapshotIds_eq {preferred derived : List NodeId} (hnodup : preferred.Nodup)
    (hmem : ∀ id, id ∈ derived ↔ id ∈ preferred) :
    orderedSnapshotIds preferred derived = preferred := by
  have hnone : derived.removeAll preferred = [] := by
    rw [List.removeAll, List.filter_eq_nil_iff]
    intro id hid
    simp [(hmem id).mp hid]
  rw [orderedSnapshotIds, List.filter_eq_self.mpr fun id hid => decide_eq_true ((hmem id).mpr hid),
    List.eraseDups_append, hnone, List.eraseDups_nil, List.append_nil, eraseDups_of_nodup hnodup]

/-- A node as `apply_snapshot` restores it: an endpoint in the place of older versions is moved. -/
def migrated (route : NodeRuntimeEntry) : NodeRuntimeEntry :=
  { route with
    terminalEndpoints := restoredTerminalEndpoints route.terminalEndpoints route.state.wsEndpoint
    state := { route.state with wsEndpoint := none } }

variable {route : NodeRuntimeEntry}

theorem migrated_eq (h : route.state.wsEndpoint = none) :
    migrated route = route := by
  have hendpoints : restoredTerminalEndpoints route.terminalEndpoints none =
      route.terminalEndpoints := by
    cases hempty : route.terminalEndpoints <;> rfl
  rw [migrated, h, hendpoints, ← h]

theorem applySnapshot_export (h : store.Shaped)
    (hshallow : ∀ id, store.depthOf id ≤ maxSessionTreeDepth) (now : Nat)
    (store' : NodeRuntimeStore) :
    ∃ final, store'.applySnapshot (store.exportSnapshot now) = some (.ok (), final) ∧
      final.rootIds = store.rootIds ∧
      ∀ id, final.nodes.lookup id = (store.nodes.lookup id).map migrated := by
  have hvalid := valid_exportSnapshot h hshallow now
  refine ⟨_, store'.applySnapshot_of_valid hvalid, ?_, fun id => ?_⟩
  · rw [hvalid.shaped.reconcileTopology_rootIds]
    refine orderedSnapshotIds_eq h.rootsNodup fun id => ?_
    rw [rootIdsFromNodes, mem_exported_below, exportSnapshot, h.roots]
  have hrestores : Restores (store.exportSnapshot now).nodes store.depthOf
      (restored (store.exportSnapshot now) store.depthOf) :=
    restores_insertAll hvalid.nodup store.depthOf _ _
  show (restored _ _).reconciledNodes.lookup id = _
  rw [hvalid.shaped.lookup_reconciledNodes]
  cases hlookup : store.nodes.lookup id with
  | none =>
    rw [Option.map_none, ← Map.notMem_keys_iff]
    intro hmem
    obtain ⟨node, hnode, rfl⟩ := (hrestores.mem_keys id).mp hmem
    obtain ⟨route, hroute, -⟩ := (mem_exportSnapshot).mp hnode
    rw [hlookup] at hroute
    cases hroute
  | some route =>
    have hnode : exportedNode id route ∈ (store.exportSnapshot now).nodes :=
      (mem_exportSnapshot).mpr ⟨route, hlookup, rfl⟩
    have hplace := place_of_lookup hlookup
    have hchildren : orderedSnapshotIds route.childrenIds
        (((store.exportSnapshot now).nodes.filter fun child => child.parentId = some id).map
          (·.id)) = route.childrenIds := by
      have hbelow : store.childrenOf id = route.childrenIds := by
        rw [childrenOf_eq, hplace]
        rfl
      refine orderedSnapshotIds_eq (hbelow ▸ h.forest.nodup id) fun child => ?_
      rw [mem_exported_below, ← hbelow, h.forest.child]
      exact ⟨And.right, fun hp => ⟨mem_keys_of_parentOf hp, hp⟩⟩
    have hdepth : store.depthOf id = route.depth := by
      rw [depthOf, hplace]
      rfl
    refine (lookup_restored hvalid.nodup store.depthOf hnode).trans (congrArg some ?_)
    show ({ migrated route with
      childrenIds := orderedSnapshotIds route.childrenIds _, depth := store.depthOf id } :
        NodeRuntimeEntry) = migrated route
    rw [hdepth]
    exact congrArg (fun ids => { migrated route with childrenIds := ids }) hchildren

/-- The parent that a snapshot gives a node. -/
def snapshotParent (nodes : List NodeTreeSnapshotNode) (id : NodeId) : Option NodeId :=
  (nodes.find? (·.id = id)).bind (·.parentId)

/-- A snapshot that is no tree of the depth that is allowed. -/
inductive Malformed (nodes : List NodeTreeSnapshotNode) : Prop where
  | duplicate (h : ¬(nodes.map (·.id)).Nodup)
  | missing {node : NodeTreeSnapshotNode} {parentId : NodeId} (hnode : node ∈ nodes)
      (hp : node.parentId = some parentId) (hmissing : parentId ∉ nodes.map (·.id))
  | cycle {id parentId : NodeId} (hp : snapshotParent nodes id = some parentId)
      (hcycle : Above (snapshotParent nodes) id parentId)
  /-- more nodes on a path up than the depth allows -/
  | deep {id : NodeId} {above : List NodeId} (hlength : maxSessionTreeDepth < above.length)
      (hchain : (id :: above).IsChain fun below above => snapshotParent nodes below = some above)

variable {parent : NodeId → Option NodeId} {depth : NodeId → Nat}

theorem length_le_depth (hrank : Ranked parent depth) {above : List NodeId}
    (hchain : (id :: above).IsChain fun below above => parent below = some above) :
    above.length ≤ depth id := by
  induction above generalizing id with
  | nil => exact Nat.zero_le _
  | cons parentId above ih =>
    rw [List.isChain_cons_cons] at hchain
    rw [hrank id parentId hchain.1]
    exact Nat.succ_le_succ (ih hchain.2)

theorem not_malformed {nodes : List NodeTreeSnapshotNode}
    (hvalid : Valid nodes depth) : ¬Malformed nodes := by
  have hfound : ∀ {id parentId}, snapshotParent nodes id = some parentId →
      ∃ node ∈ nodes, node.id = id ∧ node.parentId = some parentId := by
    intro id parentId hp
    obtain ⟨node, hfind, hp⟩ := Option.bind_eq_some_iff.mp hp
    exact ⟨node, List.mem_of_find?_eq_some hfind, by simpa using List.find?_some hfind, hp⟩
  have hrank : Ranked (snapshotParent nodes) depth := by
    intro id parentId hp
    obtain ⟨node, hnode, rfl, hup⟩ := hfound hp
    exact hvalid.child node hnode parentId hup
  intro h
  cases h with
  | duplicate h => exact h hvalid.nodup
  | missing hnode hp hmissing => exact hmissing (hvalid.closed _ hnode _ hp)
  | cycle hp hcycle => exact not_above_parent hrank hp hcycle
  | @deep id above hlength hchain =>
    cases above with
    | nil => cases hlength
    | cons parentId above =>
      obtain ⟨node, hnode, rfl, -⟩ := hfound (List.isChain_cons_cons.mp hchain).1
      have hle := hvalid.shallow node hnode
      have := length_le_depth hrank hchain
      omega

/-- A session tree: it has the shape, and the depth that is allowed. -/
structure WellFormed (store : NodeRuntimeStore) : Prop where
  shaped : store.Shaped
  shallow : ∀ id, store.depthOf id ≤ maxSessionTreeDepth

/-- **The snapshot of a tree gives the tree again; a snapshot that is no tree is refused, and
    changes nothing.** -/
theorem snapshot_round_trip :
    (∀ store : NodeRuntimeStore, store.WellFormed → ∀ now,
      ∃ final, applySnapshot {} (store.exportSnapshot now) = some (.ok (), final) ∧
        final.rootIds = store.rootIds ∧
        (∀ id, final.nodes.lookup id = (store.nodes.lookup id).map migrated) ∧
        ∀ route : NodeRuntimeEntry, route.state.wsEndpoint = none → migrated route = route) ∧
      ∀ (store : NodeRuntimeStore) (snapshot : NodeTreeSnapshot), Malformed snapshot.nodes →
        ∃ error, store.applySnapshot snapshot = some (.error error, store) := by
  refine ⟨fun store h now => ?_, fun store snapshot hmalformed => ?_⟩
  · obtain ⟨final, heq, hroots, hlookup⟩ := applySnapshot_export h.shaped h.shallow now {}
    exact ⟨final, heq, hroots, hlookup, fun _ => migrated_eq⟩
  · rcases store.applySnapshot_cases snapshot with herror | ⟨depth, hvalid, -⟩
    · exact herror
    · exact absurd hmalformed (not_malformed hvalid)

/-- A tree of two nodes, and a snapshot with a node that is its own parent. -/
theorem snapshot_round_trip_two :
    (∃ final, applySnapshot {} (twoNodes.exportSnapshot 3) = some (.ok (), final) ∧
      final.rootIds = [⟨['a']⟩]) ∧
    ∃ error, twoNodes.applySnapshot ⟨1, 3, [], [{ exportedNode ⟨['a']⟩
      (newEntry {} (some ⟨['a']⟩) 0 .direct 1) with childrenIds := [⟨['a']⟩] }]⟩ =
        some (.error error, twoNodes) := by
  have hshallow : ∀ id, twoNodes.depthOf id ≤ maxSessionTreeDepth := fun id =>
    (shaped_twoNodes.forest.depth_le id).trans (by decide)
  obtain ⟨final, heq, hroots, -⟩ :=
    snapshot_round_trip.1 twoNodes ⟨shaped_twoNodes, hshallow⟩ 3
  exact ⟨⟨final, heq, hroots⟩,
    snapshot_round_trip.2 twoNodes _ (.cycle (show snapshotParent _ ⟨['a']⟩ = some _ from rfl) .refl)⟩

/-! ## 3. The snapshot on disk -/

structure NodeTreePersistenceNode where
  id : NodeId
  parentId : Option NodeId
  childrenIds : List NodeId
  depth : Nat
  origin : NodeOrigin
  config : Option SshConfig
  createdAtMs : Nat
  generation : Nat
  deriving DecidableEq

structure NodeTreePersistenceSnapshot where
  version : Nat
  exportedAtMs : Nat
  rootIds : List NodeId
  nodes : List NodeTreePersistenceNode
  deriving DecidableEq

/-- What the filter of `export_persistence_snapshot` makes of a node. -/
def persistenceNode (id : NodeId) (route : NodeRuntimeEntry) : Option NodeTreePersistenceNode :=
  let node := fun config => ⟨id, route.parentId, route.childrenIds, route.depth, route.origin,
    config, route.createdAtMs, route.generation⟩
  if route.origin.savedConnectionId.isSome then some (node none)
  else if route.config.hasRuntimeAuthSecret then none
  else some (node (some route.config))

/-- The loop: nodes whose parent is not kept are dropped until nothing changes. -/
def pruneOrphans : Nat → List NodeTreePersistenceNode → Option (List NodeTreePersistenceNode)
  | 0, _ => none
  | fuel + 1, nodes =>
    let kept := nodes.filter fun node => node.parentId.all (· ∈ nodes.map (·.id))
    if kept.length = nodes.length then some kept else pruneOrphans fuel kept

def exportPersistenceSnapshot (store : NodeRuntimeStore) (now : Nat) :
    Option NodeTreePersistenceSnapshot := do
  let nodes := store.nodes.entries.filterMap fun entry => persistenceNode entry.1 entry.2
  let nodes ← pruneOrphans (nodes.length + 1) nodes
  let retainedIds := nodes.map (·.id)
  let nodes := nodes.map fun node =>
    { node with childrenIds := node.childrenIds.filter (· ∈ retainedIds) }
  return {
    version := 1
    exportedAtMs := now
    rootIds := store.rootIds.filter (· ∈ retainedIds)
    nodes := nodes.mergeSort fun node node' =>
      sortKeyLe (node.depth, node.createdAtMs, node.id.value)
        (node'.depth, node'.createdAtMs, node'.id.value) }

/-- A node that may be written: its origin is a saved connection, or it holds no secret. -/
def Exportable (store : NodeRuntimeStore) (id : NodeId) : Prop :=
  ∃ route, store.nodes.lookup id = some route ∧
    (route.origin.savedConnectionId.isSome = true ∨ route.config.hasRuntimeAuthSecret = false)

theorem pruneOrphans_eq {nodes : List NodeTreePersistenceNode}
    (hparent : ∀ node ∈ nodes, node.parentId = parent node.id) {fuel : Nat}
    (hfuel : nodes.length < fuel) :
    ∃ kept, pruneOrphans fuel nodes = some kept ∧ kept.Sublist nodes ∧ ∀ node ∈ nodes,
      (node ∈ kept ↔ ∀ a, Above parent a node.id → a ∈ nodes.map (·.id)) := by
  induction fuel generalizing nodes with
  | zero => omega
  | succ fuel ih =>
    unfold pruneOrphans
    set kept := nodes.filter fun node => node.parentId.all (· ∈ nodes.map (·.id)) with hkept
    have hsub : kept.Sublist nodes := List.filter_sublist
    have hmem : ∀ node ∈ nodes, node ∈ kept ↔ ∀ p, parent node.id = some p →
        p ∈ nodes.map (·.id) := by
      intro node hnode
      rw [hkept, List.mem_filter, hparent node hnode]
      cases parent node.id <;> simp [hnode]
    by_cases hlength : kept.length = nodes.length
    · -- every parent is there
      have hall := hsub.eq_of_length hlength
      refine ⟨kept, if_pos hlength, hsub, fun node hnode => ⟨fun _ a habove => ?_,
        fun _ => hall ▸ hnode⟩⟩
      have hup : ∀ b p, b ∈ nodes.map (·.id) → parent b = some p → p ∈ nodes.map (·.id) := by
        intro b p hb hp
        obtain ⟨other, hother, rfl⟩ := List.mem_map.mp hb
        exact (hmem other hother).mp (hall ▸ hother) p hp
      exact habove.closed hup (List.mem_map_of_mem hnode)
    · have hshorter : kept.length < fuel := by
        have := hsub.length_le
        omega
      obtain ⟨final, heq, hfinal, hiff⟩ :=
        ih (fun node hnode => hparent node (hsub.mem hnode)) hshorter
      refine ⟨final, by simp only [if_neg hlength, heq], hfinal.trans hsub,
        fun node hnode => ⟨fun hin a habove => ?_, fun habove => ?_⟩⟩
      · exact (hsub.map _).mem ((hiff node (hfinal.mem hin)).mp hin a habove)
      · refine (hiff node ((hmem node hnode).mpr fun p hp => habove p (.step hp .refl))).mpr
          fun a ha => ?_
        -- what is above an ancestor is above the node
        obtain ⟨other, hother, rfl⟩ := List.mem_map.mp (habove a ha)
        exact List.mem_map_of_mem ((hmem other hother).mpr fun p hp =>
          habove p (Above.trans (.step hp .refl) ha))

variable {node : NodeTreePersistenceNode}

theorem persistenceNode_eq_some (h : persistenceNode id route = some node) :
    node.id = id ∧ (node.parentId, node.childrenIds, node.depth) = route.place := by
  unfold persistenceNode at h
  split_ifs at h <;> cases h <;> exact ⟨rfl, rfl⟩

theorem persistenceNode_isSome (id : NodeId) :
    (persistenceNode id route).isSome = true ↔ route.origin.savedConnectionId.isSome = true ∨
      route.config.hasRuntimeAuthSecret = false := by
  unfold persistenceNode
  split_ifs with hsaved hsecret <;> simp [*]

theorem mem_persistenceNodes
    (h : node ∈ store.nodes.entries.filterMap fun entry => persistenceNode entry.1 entry.2) :
    store.place node.id = (node.parentId, node.childrenIds, node.depth) ∧
      store.Exportable node.id := by
  obtain ⟨⟨id, route⟩, hentry, hnode⟩ := List.mem_filterMap.mp h
  have hlookup := Map.lookup_eq_some_iff.mpr hentry
  obtain ⟨rfl, hplace⟩ := persistenceNode_eq_some hnode
  exact ⟨(place_of_lookup hlookup).trans hplace.symm, route, hlookup,
    (persistenceNode_isSome _).mp (Option.isSome_iff_exists.mpr ⟨node, hnode⟩)⟩

theorem mem_ids_persistenceNodes :
    id ∈ (store.nodes.entries.filterMap fun entry => persistenceNode entry.1 entry.2).map (·.id) ↔
      store.Exportable id := by
  constructor
  · intro h
    obtain ⟨node, hnode, rfl⟩ := List.mem_map.mp h
    exact (mem_persistenceNodes hnode).2
  · rintro ⟨route, hlookup, hexportable⟩
    obtain ⟨node, hnode⟩ := Option.isSome_iff_exists.mp
      ((persistenceNode_isSome id).mpr hexportable)
    exact List.mem_map.mpr ⟨node, List.mem_filterMap.mpr
      ⟨⟨id, route⟩, Map.lookup_eq_some_iff.mp hlookup, hnode⟩, (persistenceNode_eq_some hnode).1⟩

theorem nodup_persistenceNodes (store : NodeRuntimeStore) :
    ((store.nodes.entries.filterMap fun entry =>
      persistenceNode entry.1 entry.2).map (·.id)).Nodup := by
  have hkeys := List.nodupKeys_iff_pairwise.mp store.nodes.nodupKeys
  refine List.pairwise_map.mpr (List.pairwise_filterMap.mpr (hkeys.imp fun hne node hnode => ?_))
  intro node' hnode' hsame
  rw [(persistenceNode_eq_some hnode).1, (persistenceNode_eq_some hnode').1] at hsame
  exact hne hsame

/-- The place that a snapshot gives a node. -/
def NodeTreePersistenceSnapshot.place (snapshot : NodeTreePersistenceSnapshot) (id : NodeId) :
    Option NodeId × List NodeId × Nat :=
  match snapshot.nodes.find? (·.id = id) with
  | none => (none, [], 0)
  | some node => (node.parentId, node.childrenIds, node.depth)

/-- Parents, children, depths and roots of a snapshot describe one forest of its nodes. -/
structure NodeTreePersistenceSnapshot.Shaped (snapshot : NodeTreePersistenceSnapshot) : Prop where
  idsNodup : (snapshot.nodes.map (·.id)).Nodup
  forest : Forest (snapshot.nodes.map (·.id)) (fun id => (snapshot.place id).1)
    (fun id => (snapshot.place id).2.1) fun id => (snapshot.place id).2.2
  roots : ∀ id, id ∈ snapshot.rootIds ↔
    id ∈ snapshot.nodes.map (·.id) ∧ (snapshot.place id).1 = none
  rootsNodup : snapshot.rootIds.Nodup

/-- Nodes of a tree that hold, with a node, its parent are a tree. -/
theorem shaped_of_closed (h : store.Shaped) {snapshot : NodeTreePersistenceSnapshot}
    (hnodup : (snapshot.nodes.map (·.id)).Nodup)
    (hkeys : ∀ id ∈ snapshot.nodes.map (·.id), id ∈ store.nodes.keys)
    (hup : ∀ id parentId, id ∈ snapshot.nodes.map (·.id) → store.parentOf id = some parentId →
      parentId ∈ snapshot.nodes.map (·.id))
    (hplace : ∀ node ∈ snapshot.nodes, (node.parentId, node.childrenIds, node.depth) =
      (store.parentOf node.id, (store.childrenOf node.id).filter (· ∈ snapshot.nodes.map (·.id)),
        store.depthOf node.id))
    (hroots : snapshot.rootIds = store.rootIds.filter (· ∈ snapshot.nodes.map (·.id))) :
    snapshot.Shaped := by
  have hfound : ∀ id, snapshot.place id = if id ∈ snapshot.nodes.map (·.id) then
      (store.parentOf id, (store.childrenOf id).filter (· ∈ snapshot.nodes.map (·.id)),
        store.depthOf id) else (none, [], 0) := by
    intro id
    unfold NodeTreePersistenceSnapshot.place
    cases hfind : snapshot.nodes.find? (·.id = id) with
    | none =>
      rw [if_neg]
      intro hmem
      obtain ⟨node, hnode, rfl⟩ := List.mem_map.mp hmem
      simpa using List.find?_eq_none.mp hfind node hnode
    | some node =>
      have hnode := List.mem_of_find?_eq_some hfind
      have hid : node.id = id := by simpa using List.find?_some hfind
      subst hid
      rw [if_pos (List.mem_map_of_mem hnode)]
      exact hplace node hnode
  refine ⟨hnodup, ?_, fun id => ?_, hroots ▸ h.rootsNodup.filter _⟩
  · have hforest := h.forest.restrict hup fun m _ hm => hm
    convert hforest using 1 <;> funext id <;> rw [hfound] <;> split_ifs <;> rfl
  · rw [hroots, hfound, List.mem_filter, h.roots, decide_eq_true_eq]
    by_cases hid : id ∈ snapshot.nodes.map (·.id)
    · rw [if_pos hid]
      exact ⟨fun hroot => ⟨hid, hroot.1.2⟩, fun hroot => ⟨⟨hkeys id hid, hroot.2⟩, hid⟩⟩
    · simp only [hid, and_false, false_and]

theorem exportPersistenceSnapshot_eq {nodes kept : List NodeTreePersistenceNode}
    (hnodes : store.nodes.entries.filterMap (fun entry => persistenceNode entry.1 entry.2) = nodes)
    (heq : pruneOrphans (nodes.length + 1) nodes = some kept) (now : Nat) :
    ∃ snapshot, store.exportPersistenceSnapshot now = some snapshot ∧
      (snapshot.nodes.map (·.id)).Perm (kept.map (·.id)) ∧
      (∀ node ∈ snapshot.nodes, ∃ other ∈ kept, node =
        { other with childrenIds := other.childrenIds.filter (· ∈ kept.map (·.id)) }) ∧
      snapshot.rootIds = store.rootIds.filter (· ∈ kept.map (·.id)) := by
  unfold exportPersistenceSnapshot
  simp only [hnodes, heq, Option.bind_eq_bind, Option.bind_some, Option.pure_def]
  refine ⟨_, rfl, ?_, fun node hnode => ?_, rfl⟩
  · refine ((List.mergeSort_perm _ _).map _).trans ?_
    rw [List.map_map]
    rfl
  · rw [List.mem_mergeSort, List.mem_map] at hnode
    obtain ⟨other, hother, rfl⟩ := hnode
    exact ⟨other, hother, rfl⟩

/-- **What is kept on disk are the nodes that may be written, with all their ancestors, with the
    children and the roots among them; it is again a tree.** -/
theorem persistence_export (h : store.Shaped) (now : Nat) :
    ∃ snapshot, store.exportPersistenceSnapshot now = some snapshot ∧
      (∀ id, id ∈ snapshot.nodes.map (·.id) ↔
        ∀ a, Above store.parentOf a id → store.Exportable a) ∧
      (∀ node ∈ snapshot.nodes, (node.parentId, node.childrenIds, node.depth) =
        (store.parentOf node.id,
          (store.childrenOf node.id).filter (· ∈ snapshot.nodes.map (·.id)),
          store.depthOf node.id)) ∧
      snapshot.rootIds = store.rootIds.filter (· ∈ snapshot.nodes.map (·.id)) ∧
      snapshot.Shaped := by
  obtain ⟨nodes, hnodes⟩ : ∃ nodes, store.nodes.entries.filterMap
    (fun entry => persistenceNode entry.1 entry.2) = nodes := ⟨_, rfl⟩
  have hids : ∀ id, id ∈ nodes.map (·.id) ↔ store.Exportable id := fun id =>
    hnodes ▸ mem_ids_persistenceNodes
  have hplace : ∀ node ∈ nodes, store.place node.id =
      (node.parentId, node.childrenIds, node.depth) := fun node hnode =>
    (mem_persistenceNodes (hnodes ▸ hnode)).1
  have hparent : ∀ node ∈ nodes, node.parentId = store.parentOf node.id := by
    intro node hnode
    rw [parentOf, hplace node hnode]
  obtain ⟨kept, heq, hsub, hiff⟩ := pruneOrphans_eq hparent (Nat.lt_succ_self _)
  obtain ⟨snapshot, hsnapshot, hperm, hkept, hroots⟩ :=
    exportPersistenceSnapshot_eq hnodes heq now
  have hretained : ∀ id, id ∈ snapshot.nodes.map (·.id) ↔
      ∀ a, Above store.parentOf a id → store.Exportable a := by
    intro id
    rw [hperm.mem_iff]
    constructor
    · intro hid a habove
      obtain ⟨node, hnode, rfl⟩ := List.mem_map.mp hid
      exact (hids a).mp ((hiff node (hsub.mem hnode)).mp hnode a habove)
    · intro hall
      obtain ⟨node, hnode, rfl⟩ := List.mem_map.mp ((hids id).mpr (hall id .refl))
      exact List.mem_map_of_mem ((hiff node hnode).mpr fun a habove => (hids a).mpr (hall a habove))
  have hplaces : ∀ node ∈ snapshot.nodes, (node.parentId, node.childrenIds, node.depth) =
      (store.parentOf node.id, (store.childrenOf node.id).filter (· ∈ snapshot.nodes.map (·.id)),
        store.depthOf node.id) := by
    intro node hnode
    obtain ⟨other, hother, rfl⟩ := hkept node hnode
    simp only [parentOf, childrenOf_eq, depthOf, hplace other (hsub.mem hother), hperm.mem_iff]
  have hrootIds : snapshot.rootIds = store.rootIds.filter (· ∈ snapshot.nodes.map (·.id)) := by
    simp only [hroots, hperm.mem_iff]
  refine ⟨snapshot, hsnapshot, hretained, hplaces, hrootIds,
    shaped_of_closed h ?_ (fun id hid => ?_) (fun id parentId hid hp => ?_) hplaces hrootIds⟩
  · exact hperm.nodup_iff.mpr ((hnodes ▸ store.nodup_persistenceNodes).sublist (hsub.map _))
  · obtain ⟨route, hlookup, -⟩ := (hretained id).mp hid id .refl
    exact Map.mem_keys_iff.mpr ⟨route, hlookup⟩
  · exact (hretained parentId).mpr fun a ha => (hretained id).mp hid a (ha.trans (.step hp .refl))

/-- The root holds a password: it is not kept, nor is the node below it. -/
theorem persistence_export_two :
    ∃ snapshot, twoNodes.exportPersistenceSnapshot 3 = some snapshot ∧
      ⟨['b']⟩ ∉ snapshot.nodes.map (·.id) := by
  obtain ⟨snapshot, heq, hkept, -⟩ := persistence_export shaped_twoNodes 3
  refine ⟨snapshot, heq, fun hmem => ?_⟩
  obtain ⟨route, hlookup, hexportable⟩ := (hkept _).mp hmem ⟨['a']⟩ (.step rfl .refl)
  cases hlookup
  revert hexportable
  decide

end NodeRuntimeStore

end Hapcli.Ssh
