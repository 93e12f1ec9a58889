/-
  Subject:   The shape of the session tree: parents, children, roots and depths agree.

  * `Shaped.upsertNode`, **`Shaped.upsertChild`**, `Shaped.attachChain`, `Shaped.drillDown`,
    **`Shaped.removeSubtree`** -- what keeps it.
-/
import Hapcli.Ssh.NodeStore

namespace Hapcli.Ssh

open Hapcli.Rust Hapcli.Lib

/-! ## 1. The shape -/

/-- Where a node stands: its parent, its children and its depth. -/
def NodeRuntimeEntry.place (route : NodeRuntimeEntry) : Option NodeId × List NodeId × Nat :=
  (route.parentId, route.childrenIds, route.depth)

namespace NodeRuntimeStore

/-- Where a node stands; one that is not there has no parent, no children and depth zero. -/
@[grind] def place (store : NodeRuntimeStore) (nodeId : NodeId) : Option NodeId × List NodeId × Nat :=
  match store.nodes.lookup nodeId with
  | none => (none, [], 0)
  | some route => route.place

/-- The parent of a node. -/
def parentOf (store : NodeRuntimeStore) (nodeId : NodeId) : Option NodeId :=
  (store.place nodeId).1

/-- The depth of a node. -/
def depthOf (store : NodeRuntimeStore) (nodeId : NodeId) : Nat :=
  (store.place nodeId).2.2

/-- **Parents, children, depths and roots describe one forest of the nodes of the store.** -/
structure Shaped (store : NodeRuntimeStore) : Prop where
  forest : Forest store.nodes.keys store.parentOf store.childrenOf store.depthOf
  roots : ∀ id, id ∈ store.rootIds ↔ id ∈ store.nodes.keys ∧ store.parentOf id = none
  rootsNodup : store.rootIds.Nodup

section Lookup

variable {store store' : NodeRuntimeStore} {nodeId : NodeId}

theorem childrenOf_eq (store : NodeRuntimeStore) (nodeId : NodeId) :
    store.childrenOf nodeId = (store.place nodeId).2.1 := by
  unfold childrenOf place
  cases store.nodes.lookup nodeId <;> rfl

theorem place_of_lookup {route : NodeRuntimeEntry} (h : store.nodes.lookup nodeId = some route) :
    store.place nodeId = route.place := by
  simp [place, h]

theorem place_of_notMem (h : nodeId ∉ store.nodes.keys) : store.place nodeId = (none, [], 0) := by
  simp [place, Map.notMem_keys_iff.mp h]

theorem place_congr (h : (store'.nodes.lookup nodeId).map (·.place) =
    (store.nodes.lookup nodeId).map (·.place)) : store'.place nodeId = store.place nodeId := by
  unfold place
  cases hafter : store'.nodes.lookup nodeId <;> cases hbefore : store.nodes.lookup nodeId <;>
    simp_all

theorem mem_keys_of_parentOf {parentId : NodeId} (h : store.parentOf nodeId = some parentId) :
    nodeId ∈ store.nodes.keys := by
  by_contra hmem
  rw [parentOf, place_of_notMem hmem] at h
  cases h

theorem forest_congr (h : Forest store.nodes.keys store.parentOf store.childrenOf store.depthOf)
    (hkeys : ∀ id ∈ store.nodes.keys, id ∈ store'.nodes.keys)
    (hplace : ∀ id, store'.place id = store.place id) :
    Forest store'.nodes.keys store'.parentOf store'.childrenOf store'.depthOf := by
  have hparent : store'.parentOf = store.parentOf := funext fun id => by simp [parentOf, hplace]
  have hchildren : store'.childrenOf = store.childrenOf :=
    funext fun id => by simp [childrenOf_eq, hplace]
  have hdepth : store'.depthOf = store.depthOf := funext fun id => by simp [depthOf, hplace]
  rw [hparent, hchildren, hdepth]
  exact h.mono hkeys

/-- A change that leaves the nodes where they stand, and the roots, keeps the shape. -/
theorem Shaped.congr (h : store.Shaped) (hroots : store'.rootIds = store.rootIds)
    (hplace : ∀ id, (store'.nodes.lookup id).map (·.place) = (store.nodes.lookup id).map (·.place)) :
    store'.Shaped := by
  have hkeys : ∀ id, id ∈ store'.nodes.keys ↔ id ∈ store.nodes.keys := by
    intro id
    have := congrArg Option.isSome (hplace id)
    rw [Option.isSome_map, Option.isSome_map] at this
    rw [← AList.mem_keys, ← AList.mem_keys, ← AList.lookup_isSome, ← AList.lookup_isSome, this]
  refine ⟨forest_congr h.forest (fun id => (hkeys id).mpr) fun id => place_congr (hplace id),
    fun id => ?_, hroots ▸ h.rootsNodup⟩
  rw [hroots, h.roots, hkeys, parentOf, parentOf, place_congr (hplace id)]

end Lookup

theorem Shaped.empty : Shaped {} := by
  refine ⟨⟨?_, ?_, ?_, ?_, ?_⟩, ?_, List.nodup_nil⟩ <;>
    simp [Ranked, parentOf, depthOf, childrenOf, place, AList.lookup_empty]

/-! ## 2. Attaching nodes -/

variable {parentId : NodeId} {store : NodeRuntimeStore}

theorem Shaped.upsertNode (h : store.Shaped) (nodeId : NodeId) (config : SshConfig)
    (origin : NodeOrigin) (now : Nat) :
    (store.upsertNodeWithOrigin nodeId config origin now).Shaped := by
  unfold upsertNodeWithOrigin
  cases hlookup : store.nodes.lookup nodeId with
  | some route =>
    refine h.congr rfl fun id => ?_
    by_cases hid : id = nodeId
    · subst hid
      simp [hlookup, NodeRuntimeEntry.place]
    · simp [hid]
  | none =>
    have hnew : nodeId ∉ store.nodes.keys := Map.notMem_keys_iff.mpr hlookup
    have hroot : nodeId ∉ store.rootIds := fun hmem => hnew ((h.roots nodeId).mp hmem).1
    simp only [hroot, ↓reduceIte]
    -- a node that was not there stood where the new one stands
    have hplace : ∀ id, NodeRuntimeStore.place
        { store with
          nodes := store.nodes.insert nodeId (newEntry config none 0 origin now)
          rootIds := store.rootIds ++ [nodeId] } id = store.place id := by
      intro id
      by_cases hid : id = nodeId
      · subst hid
        rw [place_of_notMem hnew]
        simp [NodeRuntimeStore.place, NodeRuntimeEntry.place, newEntry]
      · simp [NodeRuntimeStore.place, hid]
    refine ⟨forest_congr h.forest (fun id hid => ?_) hplace, fun id => ?_, ?_⟩
    · exact Map.mem_keys_insert.mpr (.inr hid)
    · rw [parentOf, hplace, List.mem_append, List.mem_singleton, h.roots, parentOf,
        Map.mem_keys_insert]
      by_cases hid : id = nodeId
      · subst hid
        simp [place_of_notMem hnew]
      · simp [hid]
    · exact h.rootsNodup.append (List.nodup_singleton nodeId) (List.disjoint_singleton.mpr hroot)

/-- A node that `upsert_child_node` can put below a parent: it is new, or it is below that parent
    already, or it is another root without children. -/
def Attachable (store : NodeRuntimeStore) (parentId nodeId : NodeId) : Prop :=
  nodeId ∉ store.nodes.keys ∨ store.parentOf nodeId = some parentId ∨
    (nodeId ≠ parentId ∧ store.parentOf nodeId = none ∧ store.childrenOf nodeId = [])

/-- The children of a parent that has taken a node among them. -/
def withChild (store : NodeRuntimeStore) (parentId nodeId : NodeId) : List NodeId :=
  if nodeId ∈ store.childrenOf parentId then store.childrenOf parentId
  else store.childrenOf parentId ++ [nodeId]

theorem adopt_place (hparent : parentId ∈ store.nodes.keys) (nodeId id : NodeId) :
    (store.adopt parentId nodeId).place id =
      if id = parentId then
        (store.parentOf parentId, store.withChild parentId nodeId, store.depthOf parentId)
      else store.place id := by
  obtain ⟨parent, hlookup⟩ := Map.mem_keys_iff.mp hparent
  have hplace := place_of_lookup hlookup
  by_cases hid : id = parentId
  · subst hid
    have hafter : (store.adopt id nodeId).nodes.lookup id = some
        (if nodeId ∈ parent.childrenIds then parent
        else
          { parent with
            childrenIds := parent.childrenIds ++ [nodeId], generation := parent.generation + 1 }) := by
      simp [adopt, Map.lookup_modify, hlookup]
    rw [if_pos rfl, place_of_lookup hafter, withChild, childrenOf_eq, parentOf, depthOf, hplace]
    by_cases hmem : nodeId ∈ parent.childrenIds
    · simp [hmem, NodeRuntimeEntry.place]
    · simp [hmem, NodeRuntimeEntry.place]
  · have hafter : (store.adopt parentId nodeId).nodes.lookup id = store.nodes.lookup id := by
      simp [adopt, Map.lookup_modify, hid]
    rw [if_neg hid, place, place, hafter]

theorem upsertChild_eq {parent : NodeRuntimeEntry}
    (hlookup : store.nodes.lookup parentId = some parent) (nodeId : NodeId) (config : SshConfig)
    (origin : NodeOrigin) (now : Nat) :
    ∃ entry : NodeRuntimeEntry,
      entry.place = (some parentId, (store.adopt parentId nodeId).childrenOf nodeId,
        parent.depth + 1) ∧
      store.upsertChildNodeWithOrigin parentId nodeId config origin now = (.ok (),
        { store.adopt parentId nodeId with
          nodes := (store.adopt parentId nodeId).nodes.insert nodeId entry
          rootIds := store.rootIds.filter (· ≠ nodeId) }) := by
  refine ⟨_, ?_, by simp only [upsertChildNodeWithOrigin, hlookup]; rfl⟩
  cases hnode : (store.adopt parentId nodeId).nodes.lookup nodeId with
  | none => simp [childrenOf, hnode, NodeRuntimeEntry.place, newEntry]
  | some route => simp [childrenOf, hnode, NodeRuntimeEntry.place]

theorem upsertChild_spec (hparent : parentId ∈ store.nodes.keys) (nodeId : NodeId)
    (config : SshConfig) (origin : NodeOrigin) (now : Nat) :
    ∃ store', store.upsertChildNodeWithOrigin parentId nodeId config origin now = (.ok (), store') ∧
      (∀ id, id ∈ store'.nodes.keys ↔ id = nodeId ∨ id ∈ store.nodes.keys) ∧
      store'.parentOf = Function.update store.parentOf nodeId (some parentId) ∧
      store'.childrenOf = Function.update store.childrenOf parentId
        (store.withChild parentId nodeId) ∧
      store'.depthOf = Function.update store.depthOf nodeId (store.depthOf parentId + 1) ∧
      store'.rootIds = store.rootIds.filter (· ≠ nodeId) := by
  obtain ⟨parent, hlookup⟩ := Map.mem_keys_iff.mp hparent
  obtain ⟨entry, hentry, heq⟩ := upsertChild_eq hlookup nodeId config origin now
  have hdepth : parent.depth = store.depthOf parentId := by
    rw [depthOf, place_of_lookup hlookup]
    rfl
  have hadopt := adopt_place hparent nodeId
  have hplace : ∀ id, NodeRuntimeStore.place
      { store.adopt parentId nodeId with
        nodes := (store.adopt parentId nodeId).nodes.insert nodeId entry
        rootIds := store.rootIds.filter (· ≠ nodeId) } id =
      if id = nodeId then
        (some parentId, (store.adopt parentId nodeId).childrenOf nodeId, store.depthOf parentId + 1)
      else (store.adopt parentId nodeId).place id := by
    intro id
    by_cases hid : id = nodeId
    · subst hid
      rw [if_pos rfl, ← hdepth, ← hentry]
      exact place_of_lookup (AList.lookup_insert _)
    · rw [if_neg hid, place, place]
      simp only [AList.lookup_insert_ne hid]
  refine ⟨_, heq, fun id => ?_, ?_, ?_, ?_, rfl⟩
  · rw [Map.mem_keys_insert, adopt, Map.mem_keys_modify]
  · funext id
    rw [parentOf, hplace, hadopt]
    by_cases hid : id = nodeId
    · subst hid
      simp
    · by_cases hidp : id = parentId
      · subst hidp
        simp [hid]
      · simp [hid, hidp, parentOf]
  · funext id
    rw [childrenOf_eq, hplace, childrenOf_eq, hadopt]
    by_cases hid : id = parentId
    · subst hid
      by_cases hidn : id = nodeId
      · simp [hidn]
      · simp [hidn, hadopt]
    · by_cases hidn : id = nodeId
      · subst hidn
        simp [hid, childrenOf_eq]
      · simp [hid, hidn, hadopt, childrenOf_eq]
  · funext id
    rw [depthOf, hplace, hadopt]
    by_cases hid : id = nodeId
    · subst hid
      simp
    · by_cases hidp : id = parentId
      · subst hidp
        simp [hid]
      · simp [hid, hidp, depthOf]

theorem Shaped.upsertChild (h : store.Shaped) {nodeId : NodeId}
    (hparent : parentId ∈ store.nodes.keys) (hattach : store.Attachable parentId nodeId)
    (config : SshConfig) (origin : NodeOrigin) (now : Nat) :
    (store.upsertChildNodeWithOrigin parentId nodeId config origin now).2.Shaped := by
  obtain ⟨store', heq, hkeys, hparents, hchildren, hdepths, hroots⟩ :=
    upsertChild_spec hparent nodeId config origin now
  rw [heq]
  have hrootIds : ∀ id, id ∈ store'.rootIds ↔
      id ∈ store'.nodes.keys ∧ store'.parentOf id = none := by
    intro id
    rw [hroots, hkeys, hparents, List.mem_filter, h.roots, decide_eq_true_eq]
    by_cases hid : id = nodeId
    · subst hid
      simp
    · simp [hid]
  refine ⟨?_, hrootIds, hroots ▸ h.rootsNodup.filter _⟩
  rw [hparents, hchildren, hdepths]
  have hsub : ∀ id ∈ store.nodes.keys, id ∈ store'.nodes.keys := fun id hid => (hkeys id).mpr (.inr hid)
  -- below that parent already: nothing moves
  by_cases hbelow : store.parentOf nodeId = some parentId
  · have hchild : nodeId ∈ store.childrenOf parentId := (h.forest.child _ _).mpr hbelow
    have hdepth := h.forest.ranked _ _ hbelow
    rw [withChild, if_pos hchild, ← hdepth, ← hbelow, Function.update_eq_self,
      Function.update_eq_self, Function.update_eq_self]
    exact h.forest.mono hsub
  -- new, or a root without children: a leaf is attached
  · have hleaf : nodeId ≠ parentId ∧ store.parentOf nodeId = none ∧
        store.childrenOf nodeId = [] := by
      rcases hattach with hnew | hchild | hleaf
      · refine ⟨?_, ?_, ?_⟩
        · rintro rfl
          exact hnew hparent
        · rw [parentOf, place_of_notMem hnew]
        · rw [childrenOf_eq, place_of_notMem hnew]
      · exact absurd hchild hbelow
      · exact hleaf
    have hchild : nodeId ∉ store.childrenOf parentId := fun hmem =>
      hbelow ((h.forest.child _ _).mp hmem)
    rw [withChild, if_neg hchild]
    exact h.forest.attach hsub hparent hleaf.1 hleaf.2.1 hleaf.2.2

theorem Shaped.attachChain (h : store.Shaped) {current : NodeId}
    (hcurrent : current ∈ store.nodes.keys) (chain : List ChainNode)
    (hnodup : (chain.map (·.nodeId)).Nodup)
    (hnew : ∀ id ∈ chain.map (·.nodeId), id ∉ store.nodes.keys) :
    ∃ store', store.attachChain current chain = (.ok (), store') ∧ store'.Shaped := by
  induction chain generalizing store current with
  | nil => exact ⟨store, rfl, h⟩
  | cons node rest ih =>
    rw [List.map_cons] at hnodup hnew
    rw [List.nodup_cons] at hnodup
    rw [List.forall_mem_cons] at hnew
    obtain ⟨store', heq, hkeys, -⟩ :=
      upsertChild_spec hcurrent node.nodeId node.config node.origin node.now
    have hshaped := h.upsertChild hcurrent (.inl hnew.1) node.config node.origin node.now
    rw [heq] at hshaped
    have hnew' : ∀ id ∈ rest.map (·.nodeId), id ∉ store'.nodes.keys := by
      intro id hid hmem
      rcases (hkeys id).mp hmem with rfl | hmem
      · exact hnodup.1 hid
      · exact hnew.2 id hid hmem
    obtain ⟨final, hfinal, hdone⟩ :=
      ih hshaped ((hkeys _).mpr (.inl rfl)) hnodup.2 hnew'
    exact ⟨final, by simp [NodeRuntimeStore.attachChain, heq, hfinal], hdone⟩

/-- The identifiers generated for the hops from `index` on. -/
def hopIds (supply : Supply) (index count : Nat) : List NodeId :=
  (List.range' index count).map fun i => generatedTreeNodeId "hop".toList (supply.uuid i)

theorem hopChain_ids (originForHop : Nat → NodeOrigin) (supply : Supply) (index : Nat)
    (hops : List SshConfig) :
    (hopChain originForHop supply index hops).map (·.nodeId) = hopIds supply index hops.length := by
  induction hops generalizing index with
  | nil => rfl
  | cons hop rest ih => simp [hopChain, hopIds, ih, List.range'_succ]

/-- The identifiers that an operation generates. -/
def Operation.generatedIds : Operation → List NodeId
  | .drillDown _ _ supply => [generatedTreeNodeId "drill".toList (supply.uuid 0)]
  | .expandManualPreset _ [] _ supply => [generatedTreeNodeId "direct".toList (supply.uuid 0)]
  | .expandManualPreset _ (hop :: rest) _ supply =>
    hopIds supply 0 (hop :: rest).length ++
      [generatedTreeNodeId "target".toList (supply.uuid (hop :: rest).length)]
  | .expandManualPresetUnderParent _ _ hops _ supply =>
    hopIds supply 0 hops.length ++
      [generatedTreeNodeId (if hops = [] then "direct".toList else "target".toList)
        (supply.uuid hops.length)]
  | _ => []

/-- What `Uuid::new_v4` promises: the identifiers that an operation generates are new. -/
def FreshIds (store : NodeRuntimeStore) (operation : Operation) : Prop :=
  operation.generatedIds.Nodup ∧ ∀ id ∈ operation.generatedIds, id ∉ store.nodes.keys

variable {supply : Supply}

theorem Shaped.drillDown (h : store.Shaped) {config : SshConfig}
    (hfresh : FreshIds store (.drillDown parentId config supply)) :
    (store.drillDown parentId config supply).2.Shaped := by
  unfold NodeRuntimeStore.drillDown
  cases hlookup : store.nodes.lookup parentId with
  | none => exact h
  | some parent =>
    have hparent : parentId ∈ store.nodes.keys := Map.mem_keys_iff.mpr ⟨parent, hlookup⟩
    have hnew : generatedTreeNodeId "drill".toList (supply.uuid 0) ∉ store.nodes.keys :=
      hfresh.2 _ (List.mem_singleton.mpr rfl)
    have hshaped := h.upsertChild hparent (.inl hnew) config
      (.drillDown (supply.nowMs 0 / 1000 : Nat)) (supply.nowMs 1)
    simp only
    split_ifs
    · exact h
    · exact h
    · split
      · next heq => rwa [heq] at hshaped
      · next heq => rwa [heq] at hshaped

theorem upsertNode_keys (store : NodeRuntimeStore) (nodeId : NodeId) (config : SshConfig)
    (origin : NodeOrigin) (now : Nat) (id : NodeId) :
    id ∈ (store.upsertNodeWithOrigin nodeId config origin now).nodes.keys ↔
      id = nodeId ∨ id ∈ store.nodes.keys := by
  unfold upsertNodeWithOrigin
  cases store.nodes.lookup nodeId <;> exact Map.mem_keys_insert

variable {savedConnectionId : Str} {hops : List SshConfig} {target : SshConfig}

theorem Shaped.expandManualPreset (h : store.Shaped)
    (hfresh : FreshIds store (.expandManualPreset savedConnectionId hops target supply)) :
    (store.expandManualPreset savedConnectionId hops target supply).2.Shaped := by
  unfold NodeRuntimeStore.expandManualPreset expandPresetChainInternal
  cases hops with
  | nil => exact h.upsertNode _ _ _ _
  | cons hop rest =>
    obtain ⟨hnodup, hnew⟩ := hfresh
    have hids : Operation.generatedIds (.expandManualPreset savedConnectionId (hop :: rest) target
        supply) = generatedTreeNodeId "hop".toList (supply.uuid 0) ::
          (hopIds supply 1 rest.length ++
            [generatedTreeNodeId "target".toList (supply.uuid (rest.length + 1))]) := by
      simp [Operation.generatedIds, hopIds, List.range'_succ]
    rw [hids] at hnodup hnew
    rw [List.nodup_cons] at hnodup
    rw [List.forall_mem_cons] at hnew
    simp only
    split_ifs
    · exact h
    · have hrooted := h.upsertNode (generatedTreeNodeId "hop".toList (supply.uuid 0)) hop
        (.manualPreset savedConnectionId 0) (supply.nowMs 0)
      have hkeys := upsertNode_keys store (generatedTreeNodeId "hop".toList (supply.uuid 0)) hop
        (.manualPreset savedConnectionId 0) (supply.nowMs 0)
      obtain ⟨store', heq, hshaped⟩ := hrooted.attachChain ((hkeys _).mpr (.inl rfl))
        (hopChain (.manualPreset savedConnectionId) supply 1 rest ++
          [⟨generatedTreeNodeId "target".toList (supply.uuid (rest.length + 2 - 1)), target,
            .manualPreset savedConnectionId (rest.length + 2 - 1),
            supply.nowMs (rest.length + 2 - 1)⟩])
        (by simpa [hopChain_ids] using hnodup.2) (by
          intro id hid hmem
          rw [List.map_append, hopChain_ids] at hid
          rcases (hkeys id).mp hmem with rfl | hmem
          · exact hnodup.1 hid
          · exact hnew.2 id hid hmem)
      rw [heq]
      exact hshaped

theorem Shaped.expandManualPresetUnderParent (h : store.Shaped) (hfresh : FreshIds store
      (.expandManualPresetUnderParent parentId savedConnectionId hops target supply)) :
    (store.expandManualPresetUnderParent parentId savedConnectionId hops target supply).2.Shaped := by
  unfold NodeRuntimeStore.expandManualPresetUnderParent expandPresetChainUnderParentInternal
  cases hlookup : store.nodes.lookup parentId with
  | none => exact h
  | some parent =>
    have hparent : parentId ∈ store.nodes.keys := Map.mem_keys_iff.mpr ⟨parent, hlookup⟩
    by_cases hready : parent.state.readiness ≠ .ready
    · simp only [if_pos hready]
      exact h
    by_cases hdeep : parent.depth + (hops.length + 1) > maxSessionTreeDepth
    · simp only [if_neg hready, if_pos hdeep]
      exact h
    obtain ⟨store', heq, hshaped⟩ := h.attachChain hparent
      (hopChain (.manualPreset savedConnectionId) supply 0 hops ++
        [⟨generatedTreeNodeId (if hops = [] then "direct".toList else "target".toList)
            (supply.uuid (hops.length + 1 - 1)), target,
          .manualPreset savedConnectionId (hops.length + 1 - 1),
          supply.nowMs (hops.length + 1 - 1)⟩])
      (by
        rw [List.map_append, hopChain_ids]
        exact hfresh.1)
      (by
        rw [List.map_append, hopChain_ids]
        exact hfresh.2)
    simp only [if_neg hready, if_neg hdeep, heq]
    exact hshaped

/-! ## 3. Removing a subtree -/

theorem dropNode_spec (store : NodeRuntimeStore) (nodeId : NodeId) :
    (store.dropNode nodeId).rootIds = store.rootIds ∧
      ∀ id, (store.dropNode nodeId).nodes.lookup id =
        if id = nodeId then none else store.nodes.lookup id := by
  unfold dropNode
  cases hlookup : store.nodes.lookup nodeId with
  | some removed => exact ⟨rfl, Map.lookup_erase_eq store.nodes nodeId⟩
  | none =>
    refine ⟨rfl, fun id => ?_⟩
    by_cases hid : id = nodeId
    · subst hid
      simp [hlookup]
    · simp [hid]

theorem dropNodes_spec (store : NodeRuntimeStore) (removed : List NodeId) :
    (store.dropNodes removed).rootIds = store.rootIds ∧
      ∀ id, (store.dropNodes removed).nodes.lookup id =
        if id ∈ removed then none else store.nodes.lookup id := by
  induction removed generalizing store with
  | nil => simp [dropNodes]
  | cons nodeId rest ih =>
    have heq : store.dropNodes (nodeId :: rest) = (store.dropNode nodeId).dropNodes rest := rfl
    obtain ⟨hroots, hlookup⟩ := store.dropNode_spec nodeId
    rw [heq, (ih _).1, hroots]
    refine ⟨rfl, fun id => ?_⟩
    rw [(ih _).2, hlookup]
    by_cases hrest : id ∈ rest
    · simp [hrest]
    · simp [hrest]

theorem bind_parentId (store : NodeRuntimeStore) (nodeId : NodeId) :
    (store.nodes.lookup nodeId).bind (·.parentId) = store.parentOf nodeId := by
  unfold parentOf place
  cases store.nodes.lookup nodeId <;> rfl

/-- What `remove_subtree` leaves of the places. -/
theorem detach_place (h : store.Shaped) (nodeId id : NodeId) :
    (store.detach nodeId).place id =
      (store.parentOf id, (store.childrenOf id).filter (· ≠ nodeId), store.depthOf id) := by
  have hother : store.parentOf nodeId ≠ some id →
      (store.childrenOf id).filter (· ≠ nodeId) = store.childrenOf id := by
    intro hne
    rw [List.filter_eq_self]
    intro child hchild
    rw [decide_eq_true_eq]
    rintro rfl
    exact hne ((h.forest.child id child).mp hchild)
  have hplace : store.place id = (store.parentOf id, store.childrenOf id, store.depthOf id) := by
    rw [childrenOf_eq]
    rfl
  unfold detach
  rw [bind_parentId]
  cases hp : store.parentOf nodeId with
  | none =>
    rw [hother (by simp [hp])]
    exact hplace
  | some parentId =>
    by_cases hid : id = parentId
    · subst hid
      obtain ⟨route, hlookup⟩ := Map.mem_keys_iff.mp (h.forest.mem nodeId id hp)
      have hroute := place_of_lookup hlookup
      rw [parentOf, childrenOf_eq, depthOf, hroute]
      simp [place, Map.lookup_modify, hlookup, NodeRuntimeEntry.place]
    · have hne : store.parentOf nodeId ≠ some id := by
        rw [hp]
        rintro ⟨⟩
        exact hid rfl
      rw [hother hne, ← hplace]
      simp [place, Map.lookup_modify, hid]

theorem detach_spec (nodeId : NodeId) :
    (∀ id, id ∈ (store.detach nodeId).nodes.keys ↔ id ∈ store.nodes.keys) ∧
      (store.detach nodeId).rootIds = match store.parentOf nodeId with
        | none => store.rootIds.filter (· ≠ nodeId)
        | some _ => store.rootIds := by
  unfold detach
  rw [bind_parentId]
  cases store.parentOf nodeId with
  | none => exact ⟨fun id => Iff.rfl, rfl⟩
  | some parentId => exact ⟨fun id => Map.mem_keys_modify, rfl⟩

theorem fuel_lt (store : NodeRuntimeStore) (nodeId : NodeId) :
    store.nodes.keys.length < store.fuel + store.depthOf nodeId := by
  unfold fuel
  omega

theorem Shaped.removeSubtree (h : store.Shaped) (nodeId : NodeId) :
    ∃ removed store', store.removeSubtree nodeId = some (removed, store') ∧ store'.Shaped := by
  obtain ⟨gone, hwalk, hnodup, hgone⟩ := h.forest.postorder_eq (store.fuel_lt nodeId)
  refine ⟨gone, (store.detach nodeId).dropNodes gone, ?_, ?_⟩
  · simp [NodeRuntimeStore.removeSubtree, subtreePostorder, hwalk]
  obtain ⟨hroots, hlookup⟩ := (store.detach nodeId).dropNodes_spec gone
  obtain ⟨hdetached, hdetachedRoots⟩ := store.detach_spec nodeId
  have hkeys : ∀ id, id ∈ ((store.detach nodeId).dropNodes gone).nodes.keys ↔
      id ∈ store.nodes.keys ∧ id ∉ gone := by
    intro id
    rw [← hdetached, Map.mem_keys_iff, Map.mem_keys_iff, hlookup]
    by_cases hid : id ∈ gone <;> simp [hid]
  have hplace : ∀ id, ((store.detach nodeId).dropNodes gone).place id =
      if id ∈ gone then (none, [], 0)
      else (store.parentOf id, (store.childrenOf id).filter (· ≠ nodeId), store.depthOf id) := by
    intro id
    rw [← detach_place h, place, hlookup]
    by_cases hid : id ∈ gone
    · simp [hid]
    · simp [hid, place]
  have hparents : ((store.detach nodeId).dropNodes gone).parentOf =
      fun id => if id ∈ gone then none else store.parentOf id := by
    funext id
    rw [parentOf, hplace]
    by_cases hid : id ∈ gone <;> simp [hid]
  refine ⟨?_, fun id => ?_, ?_⟩
  · have hpruned := h.forest.prune hgone fun id hid hgone => (hkeys id).mpr ⟨hid, hgone⟩
    rw [hparents]
    convert hpruned using 1
    · funext id
      rw [childrenOf_eq, hplace]
      by_cases hid : id ∈ gone <;> simp [hid]
    · funext id
      rw [depthOf, hplace]
      by_cases hid : id ∈ gone <;> simp [hid]
  · -- a removed root is the node itself
    have hself : id ∈ gone → store.parentOf id = none → id = nodeId := fun hid hroot =>
      ((hgone id).mp hid).eq_of_root hroot
    have hnode : nodeId ∈ gone := (hgone nodeId).mpr .refl
    rw [hroots, hdetachedRoots, hkeys, hparents]
    cases hp : store.parentOf nodeId with
    | none =>
      simp only [List.mem_filter, h.roots, decide_eq_true_eq]
      grind
    | some parentId =>
      simp only [h.roots]
      grind
  · rw [hroots, hdetachedRoots]
    cases store.parentOf nodeId with
    | none => exact h.rootsNodup.filter _
    | some _ => exact h.rootsNodup

/-! ## 4. Changes of one node -/

/-- The operations that are an `editNode`. -/
def Operation.isEdit : Operation → Bool
  | .updateOrigin .. | .applyNodeReadiness .. | .updateConnectionState ..
  | .bindTerminalSession .. | .bindTerminalEndpoint .. | .unbindTerminalSession ..
  | .bindSftpSession .. | .setSftpReady .. | .sharedSftpSessionChanged .. => true
  | _ => false

/-- Every node stands where it stood, under the connection it had. -/
structure Quiet (store store' : NodeRuntimeStore) : Prop where
  rootIds : store'.rootIds = store.rootIds
  connectionNodes : store'.connectionNodes = store.connectionNodes
  kept : ∀ id, (store'.nodes.lookup id).map (fun route => (route.place, route.connectionId)) =
    (store.nodes.lookup id).map fun route => (route.place, route.connectionId)

theorem quiet_editNode {T : Type} (store : NodeRuntimeStore) (nodeId : NodeId)
    {edit : NodeRuntimeEntry → NodeRuntimeEntry} (answer : NodeRuntimeEntry → T)
    (hedit : ∀ route, (edit route).place = route.place ∧
      (edit route).connectionId = route.connectionId) :
    Quiet store (store.editNode nodeId edit answer).2 := by
  unfold editNode
  cases hlookup : store.nodes.lookup nodeId with
  | none => exact ⟨rfl, rfl, fun _ => rfl⟩
  | some route =>
    refine ⟨rfl, rfl, fun id => ?_⟩
    by_cases hid : id = nodeId
    · subst hid
      simp [hlookup, hedit]
    · simp [hid]

theorem quiet_of_isEdit (store : NodeRuntimeStore) {operation : Operation}
    (h : operation.isEdit = true) :
    ∃ store', store.step operation = some store' ∧ Quiet store store' := by
  cases operation with
  | updateOrigin nodeId origin =>
    exact ⟨_, rfl, quiet_editNode store nodeId _ fun route => ⟨rfl, rfl⟩⟩
  | applyNodeReadiness nodeId readiness reason =>
    exact ⟨_, rfl, quiet_editNode store nodeId _ fun route => ⟨rfl, rfl⟩⟩
  | updateConnectionState nodeId state reason =>
    exact ⟨_, rfl, quiet_editNode store nodeId _ fun route => ⟨rfl, rfl⟩⟩
  | bindTerminalSession nodeId sessionId =>
    refine ⟨_, rfl, quiet_editNode store nodeId _ fun route => ?_⟩
    split <;> exact ⟨rfl, rfl⟩
  | bindTerminalEndpoint nodeId endpoint =>
    refine ⟨_, rfl, quiet_editNode store nodeId _ fun route => ?_⟩
    split_ifs <;> exact ⟨rfl, rfl⟩
  | unbindTerminalSession nodeId sessionId =>
    refine ⟨_, rfl, quiet_editNode store nodeId _ fun route => ?_⟩
    dsimp only
    split_ifs <;> exact ⟨rfl, rfl⟩
  | bindSftpSession nodeId sessionId cwd =>
    exact ⟨_, rfl, quiet_editNode store nodeId _ fun route => ⟨rfl, rfl⟩⟩
  | setSftpReady nodeId ready cwd =>
    exact ⟨_, rfl, quiet_editNode store nodeId _ fun route => ⟨rfl, rfl⟩⟩
  | sharedSftpSessionChanged nodeId connectionId sessionGeneration ready =>
    exact ⟨_, rfl, quiet_editNode store nodeId _ fun route => ⟨rfl, rfl⟩⟩
  | _ => cases h

theorem Shaped.quiet {store' : NodeRuntimeStore} (h : store.Shaped) (hquiet : Quiet store store') :
    store'.Shaped := by
  refine h.congr hquiet.rootIds fun id => ?_
  have := congrArg (Option.map Prod.fst) (hquiet.kept id)
  simpa only [Option.map_map, Function.comp_def] using this

end NodeRuntimeStore

end Hapcli.Ssh
