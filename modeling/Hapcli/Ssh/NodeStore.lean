/-
  Subject:   The session tree (`router/runtime_store.rs`): its nodes, and the operations on them.

  A call of `now_ms` or `Uuid::new_v4` reads the next value of a `Supply`. The recursions of the
  source have fuel, one more than there are nodes: a walk that needs more has met a node twice and
  does not return, and is `none` here.
-/
import Hapcli.Lib.Forest
import Hapcli.Rust.Maps
import Hapcli.Ssh.Config

namespace Hapcli.Ssh

open Hapcli.Rust Hapcli.Lib

/-! ## 1. Nodes -/

structure NodeId where
  value : Str
  deriving DecidableEq

/-- `RouteError`, with the variants the store returns. -/
inductive RouteError where
  | nodeNotFound (node : Str)
  | connectionError (text : Str)
  | parentNotConnected (node : Str)
  | maxDepthExceeded (depth : Nat)
  deriving DecidableEq

inductive NodeReadiness where
  | ready
  | connecting
  | error
  | disconnected
  deriving DecidableEq

inductive NodeOrigin where
  | manualPreset (savedConnectionId : Str) (hopIndex : Nat)
  | autoRoute (targetHost routeId : Str) (hopIndex : Nat)
  | drillDown (timestamp : Int)
  | direct
  | restored (savedConnectionId : Str)
  deriving DecidableEq

def NodeOrigin.originType : NodeOrigin → Str
  | .manualPreset _ _ => "manual_preset".toList
  | .autoRoute _ _ _ => "auto_route".toList
  | .drillDown _ => "drill_down".toList
  | .direct => "direct".toList
  | .restored _ => "restored".toList

structure TerminalEndpoint where
  wsPort : UInt16
  wsToken : Str
  sessionId : Str
  deriving DecidableEq

/-- `NodeState`, with its default. -/
structure NodeState where
  readiness : NodeReadiness := .disconnected
  error : Option Str := none
  sftpReady : Bool := false
  sftpCwd : Option Str := none
  wsEndpoint : Option TerminalEndpoint := none
  deriving DecidableEq

structure NodeRuntimeEntry where
  config : SshConfig
  parentId : Option NodeId
  childrenIds : List NodeId
  depth : Nat
  origin : NodeOrigin
  connectionId : Option Str
  terminalSessionId : Option Str
  terminalEndpoints : List TerminalEndpoint
  sftpSessionId : Option Str
  state : NodeState
  createdAtMs : Nat
  generation : Nat
  deriving DecidableEq

/-- `NodeStateEvent`, with the variants the store returns. -/
inductive NodeStateEvent where
  | connectionStateChanged (nodeId : Str) (generation : Nat) (state : NodeReadiness) (reason : Str)
  | sftpReady (nodeId : Str) (generation : Nat) (ready : Bool) (cwd : Option Str)
  | sharedSftpSessionChanged (nodeId : Str) (generation : Nat) (connectionId : Str)
      (sessionGeneration : Option Nat) (ready : Bool)
  | terminalEndpointChanged (nodeId : Str) (generation : Nat) (available : Bool)
  deriving DecidableEq

structure NodeTreeExpansion where
  targetNodeId : NodeId
  pathNodeIds : List NodeId
  chainDepth : Nat
  deriving DecidableEq

structure NodeTreeSnapshotNode where
  id : NodeId
  parentId : Option NodeId
  childrenIds : List NodeId
  depth : Nat
  config : SshConfig
  origin : NodeOrigin
  state : NodeState
  connectionId : Option Str
  terminalSessionId : Option Str
  terminalEndpoints : List TerminalEndpoint
  sftpSessionId : Option Str
  createdAtMs : Nat
  generation : Nat
  deriving DecidableEq

structure NodeTreeSnapshot where
  version : Nat
  exportedAtMs : Nat
  rootIds : List NodeId
  nodes : List NodeTreeSnapshotNode
  deriving DecidableEq

structure FlatNode where
  id : Str
  parentId : Option Str
  depth : Nat
  host : Str
  port : UInt16
  username : Str
  displayName : Option Str
  state : NodeReadiness
  error : Option Str
  hasChildren : Bool
  isLastChild : Bool
  originType : Str
  terminalSessionId : Option Str
  sftpSessionId : Option Str
  sshConnectionId : Option Str
  deriving DecidableEq

def maxSessionTreeDepth : Nat := 10

def readinessForConnectionState : ConnectionState → NodeReadiness
  | .active | .idle => .ready
  | .connecting | .reconnecting => .connecting
  | .error _ | .linkDown => .error
  | .disconnecting | .disconnected => .disconnected

/-- The error text that goes with a connection state. -/
def errorForConnectionState : ConnectionState → Option Str
  | .error error => some error
  | .linkDown => some "Link down".toList
  | _ => none

/-- What the calls of `Uuid::new_v4` and `now_ms` inside one operation return, in their order. -/
structure Supply where
  uuid : Nat → Str
  nowMs : Nat → Nat

def generatedTreeNodeId ( label uuid : Str) : NodeId := ⟨label ++ "-".toList ++ uuid⟩

/-! ## 2. The store -/

structure NodeRuntimeStore where
  nodes : Map NodeId NodeRuntimeEntry := ∅
  rootIds : List NodeId := []
  connectionNodes : Map Str NodeId := ∅

namespace NodeRuntimeStore

/-- What an operation that can fail returns, with the store after it. -/
abbrev Answer (T : Type) := Except RouteError T × NodeRuntimeStore

variable (store : NodeRuntimeStore)

/-- A node as both upserts insert it. -/
def newEntry (config : SshConfig) (parentId : Option NodeId) (depth : Nat) (origin : NodeOrigin)
    (now : Nat) : NodeRuntimeEntry where
  config := config
  parentId := parentId
  childrenIds := []
  depth := depth
  origin := origin
  connectionId := none
  terminalSessionId := none
  terminalEndpoints := []
  sftpSessionId := none
  state := {}
  createdAtMs := now
  generation := 0

variable (nodeId : NodeId)

def upsertNodeWithOrigin (config : SshConfig) (origin : NodeOrigin) (now : Nat) :
    NodeRuntimeStore :=
  match store.nodes.lookup nodeId with
  | some route =>
    { store with
      nodes := store.nodes.insert nodeId
        { route with config := config, origin := origin, generation := route.generation + 1 } }
  | none =>
    { store with
      nodes := store.nodes.insert nodeId (newEntry config none 0 origin now)
      rootIds := if nodeId ∈ store.rootIds then store.rootIds else store.rootIds ++ [nodeId] }

def upsertNode (config : SshConfig) (now : Nat) : NodeRuntimeStore :=
  store.upsertNodeWithOrigin nodeId config .direct now

/-- The first part of `upsert_child_node_with_origin`: the parent takes the node among its
    children. -/
def adopt (parentId nodeId : NodeId) : NodeRuntimeStore :=
  { store with
    nodes := store.nodes.modify parentId fun parent =>
      if nodeId ∈ parent.childrenIds then parent
      else
        { parent with
          childrenIds := parent.childrenIds ++ [nodeId], generation := parent.generation + 1 } }

def upsertChildNodeWithOrigin (parentId nodeId : NodeId) (config : SshConfig) (origin : NodeOrigin)
    (now : Nat) : Answer Unit :=
  match store.nodes.lookup parentId with
  | none => (.error (.nodeNotFound parentId.value), store)
  | some parent =>
    let adopted := store.adopt parentId nodeId
    let entry := match adopted.nodes.lookup nodeId with
      | some route =>
        { route with
          config := config
          parentId := some parentId
          depth := parent.depth + 1
          origin := origin
          generation := route.generation + 1 }
      | none => newEntry config (some parentId) (parent.depth + 1) origin now
    (.ok (), { adopted with
      nodes := adopted.nodes.insert nodeId entry
      rootIds := adopted.rootIds.filter (· ≠ nodeId) })

def upsertChildNode (parentId nodeId : NodeId) (config : SshConfig) (now : Nat) : Answer Unit :=
  store.upsertChildNodeWithOrigin parentId nodeId config .direct now

def drillDown (parentId : NodeId) (config : SshConfig) (supply : Supply) : Answer NodeId :=
  match store.nodes.lookup parentId with
  | none => (.error (.nodeNotFound parentId.value), store)
  | some parent =>
    if parent.state.readiness ≠ .ready then (.error (.parentNotConnected parentId.value), store)
    else if parent.depth + 1 > maxSessionTreeDepth then
      (.error (.maxDepthExceeded maxSessionTreeDepth), store)
    else
      let nodeId := generatedTreeNodeId "drill".toList (supply.uuid 0)
      match store.upsertChildNodeWithOrigin parentId nodeId config
          (.drillDown (supply.nowMs 0 / 1000 : Nat)) (supply.nowMs 1) with
      | (.error error, store) => (.error error, store)
      | (.ok (), store) => (.ok nodeId, store)

/-- One node of a chain: its identifier, and what it is inserted with. -/
structure ChainNode where
  nodeId : NodeId
  config : SshConfig
  origin : NodeOrigin
  now : Nat

/-- The loops of the expansions: each node is put below the one before. -/
def attachChain : NodeRuntimeStore → NodeId → List ChainNode → Answer Unit
  | store, _, [] => (.ok (), store)
  | store, current, node :: rest =>
    match store.upsertChildNodeWithOrigin current node.nodeId node.config node.origin node.now with
    | (.error error, store) => (.error error, store)
    | (.ok (), store) => attachChain store node.nodeId rest

/-- The nodes for the hops from `index` on. -/
def hopChain (originForHop : Nat → NodeOrigin) (supply : Supply) : Nat → List SshConfig →
    List ChainNode
  | _, [] => []
  | index, hop :: rest =>
    ⟨generatedTreeNodeId "hop".toList (supply.uuid index), hop, originForHop index,
      supply.nowMs index⟩ :: hopChain originForHop supply (index + 1) rest

def expandPresetChainInternal (hops : List SshConfig) (target : SshConfig)
    (originForHop : Nat → NodeOrigin) (supply : Supply) : Answer NodeTreeExpansion :=
  match hops with
  | [] =>
    let targetNodeId := generatedTreeNodeId "direct".toList (supply.uuid 0)
    (.ok ⟨targetNodeId, [targetNodeId], 1⟩,
      store.upsertNodeWithOrigin targetNodeId target .direct (supply.nowMs 0))
  | hop :: rest =>
    let chainDepth := rest.length + 2
    if chainDepth > maxSessionTreeDepth then
      (.error (.maxDepthExceeded maxSessionTreeDepth), store)
    else
      let rootId := generatedTreeNodeId "hop".toList (supply.uuid 0)
      let targetNodeId := generatedTreeNodeId "target".toList (supply.uuid (chainDepth - 1))
      let chain := hopChain originForHop supply 1 rest ++
        [⟨targetNodeId, target, originForHop (chainDepth - 1), supply.nowMs (chainDepth - 1)⟩]
      let rooted := store.upsertNodeWithOrigin rootId hop (originForHop 0) (supply.nowMs 0)
      match rooted.attachChain rootId chain with
      | (.error error, store) => (.error error, store)
      | (.ok (), store) =>
        (.ok ⟨targetNodeId, rootId :: chain.map (·.nodeId), chainDepth⟩, store)

def expandPresetChainUnderParentInternal (parentId : NodeId) (hops : List SshConfig)
    (target : SshConfig) (originForHop : Nat → NodeOrigin) (supply : Supply) :
    Answer NodeTreeExpansion :=
  match store.nodes.lookup parentId with
  | none => (.error (.nodeNotFound parentId.value), store)
  | some parent =>
    let chainDepth := hops.length + 1
    if parent.state.readiness ≠ .ready then (.error (.parentNotConnected parentId.value), store)
    else if parent.depth + chainDepth > maxSessionTreeDepth then
      (.error (.maxDepthExceeded maxSessionTreeDepth), store)
    else
      let label := if hops = [] then "direct".toList else "target".toList
      let targetNodeId := generatedTreeNodeId label (supply.uuid (chainDepth - 1))
      let chain := hopChain originForHop supply 0 hops ++
        [⟨targetNodeId, target, originForHop (chainDepth - 1), supply.nowMs (chainDepth - 1)⟩]
      match store.attachChain parentId chain with
      | (.error error, store) => (.error error, store)
      | (.ok (), store) => (.ok ⟨targetNodeId, chain.map (·.nodeId), chainDepth⟩, store)

def expandManualPreset (savedConnectionId : Str) (hops : List SshConfig) (target : SshConfig)
    (supply : Supply) : Answer NodeTreeExpansion :=
  store.expandPresetChainInternal hops target (.manualPreset savedConnectionId) supply

def expandManualPresetUnderParent (parentId : NodeId) (savedConnectionId : Str)
    (hops : List SshConfig) (target : SshConfig) (supply : Supply) : Answer NodeTreeExpansion :=
  store.expandPresetChainUnderParentInternal parentId hops target (.manualPreset savedConnectionId)
    supply

/-! ## 3. Walks -/

/-- The fuel of the walks. -/
def fuel : Nat := store.nodes.keys.length + 1

/-- The children of a node, none if it is not there. -/
def childrenOf : List NodeId :=
  match store.nodes.lookup nodeId with
  | none => []
  | some route => route.childrenIds

/-- One step of `path_to_node`. -/
def lookUp : Except RouteError (Option NodeId) :=
  match store.nodes.lookup nodeId with
  | none => .error (.nodeNotFound nodeId.value)
  | some node => .ok node.parentId

def pathToNode : Option (Except RouteError (List NodeId)) :=
  (pathUp store.lookUp store.fuel nodeId).map (·.map List.reverse)

def subtreePostorder : Option (List NodeId) :=
  postorder store.childrenOf store.fuel nodeId

def flatNode (route : NodeRuntimeEntry) : FlatNode where
  id := nodeId.value
  parentId := route.parentId.map (·.value)
  depth := route.depth
  host := route.config.host
  port := route.config.port
  username := route.config.username
  displayName := none
  state := route.state.readiness
  error := route.state.error
  hasChildren := route.childrenIds ≠ []
  isLastChild := match route.parentId with
    | some parentId => match store.nodes.lookup parentId with
      | none => true
      | some parent => parent.childrenIds.getLast? = some nodeId
    | none => store.rootIds.getLast? = some nodeId
  originType := route.origin.originType
  terminalSessionId := route.terminalSessionId
  sftpSessionId := route.sftpSessionId
  sshConnectionId := route.connectionId

def flatten : Option (List FlatNode) := do
  let parts ← store.rootIds.mapM (preorder
    (fun id => (store.nodes.lookup id).map fun route => (store.flatNode id route, route.childrenIds))
    store.fuel)
  return parts.flatten

/-! ## 4. Removal and snapshots -/

def rebuildConnectionIndex : NodeRuntimeStore :=
  { store with
    connectionNodes := Map.insertAll ∅ (store.nodes.entries.filterMap fun entry =>
      entry.2.connectionId.map fun connectionId => (connectionId, entry.1)) }

/-- A removed node and the index entry of its connection. -/
def dropNode (removedId : NodeId) : NodeRuntimeStore :=
  match store.nodes.lookup removedId with
  | none => store
  | some removed =>
    { store with
      nodes := store.nodes.erase removedId
      connectionNodes := match removed.connectionId with
        | none => store.connectionNodes
        | some connectionId => store.connectionNodes.erase connectionId }

/-- The loop of `remove_subtree` over the removed nodes. -/
def dropNodes (removed : List NodeId) : NodeRuntimeStore := removed.foldl dropNode store

/-- The node that `remove_subtree` removes is taken out of the children of its parent, or of the
    roots. -/
def detach : NodeRuntimeStore :=
  match (store.nodes.lookup nodeId).bind (·.parentId) with
  | some parentId =>
    { store with
      nodes := store.nodes.modify parentId fun parent =>
        { parent with
          childrenIds := parent.childrenIds.filter (· ≠ nodeId)
          generation := parent.generation + 1 } }
  | none => { store with rootIds := store.rootIds.filter (· ≠ nodeId) }

def removeSubtree : Option (List NodeId × NodeRuntimeStore) := do
  let nodes ← store.subtreePostorder nodeId
  return (nodes, (store.detach nodeId).dropNodes nodes)

def restoredTerminalEndpoints (endpoints : List TerminalEndpoint)
    (legacyPrimary : Option TerminalEndpoint) : List TerminalEndpoint :=
  if endpoints ≠ [] then endpoints else legacyPrimary.toList

def rootIdsFromNodes (nodes : List NodeTreeSnapshotNode) : List NodeId :=
  (nodes.filter fun node => node.parentId = none).map (·.id)

/-- `ordered_snapshot_ids`: the derived ids, the preferred ones first. -/
def orderedSnapshotIds (preferred derived : List NodeId) : List NodeId :=
  (preferred.filter (· ∈ derived) ++ derived).eraseDups

/-- One walk of `validate_snapshot_parent_graph`: the node met twice, if there is one. -/
def findParentCycle (parentById : Map NodeId (Option NodeId)) :
    Nat → List NodeId → NodeId → Option (Option NodeId)
  | 0, _, _ => none
  | fuel + 1, path, nodeId =>
    if nodeId ∈ path then some (some nodeId)
    else match (parentById.lookup nodeId).join with
      | none => some none
      | some parentId => findParentCycle parentById fuel (nodeId :: path) parentId

def validateSnapshotParentGraph (parentById : Map NodeId (Option NodeId)) :
    List NodeId → Option (Except RouteError Unit)
  | [] => some (.ok ())
  | start :: rest =>
    match findParentCycle parentById (parentById.keys.length + 1) [] start with
    | none => none
    | some (some nodeId) => some (.error (.connectionError
        ("invalid node tree snapshot: parent cycle contains ".toList ++ nodeId.value)))
    | some none => validateSnapshotParentGraph parentById rest

def snapshotNodeDepth (parentById : Map NodeId (Option NodeId)) : Nat → NodeId → Option Nat
  | 0, _ => none
  | fuel + 1, nodeId =>
    match (parentById.lookup nodeId).join with
    | none => some 0
    | some parentId => (snapshotNodeDepth parentById fuel parentId).map (· + 1)

/-- The first loop of `reconcile_topology`: the nodes without the children and parents that are not
    there. -/
def reconciledNodes : Map NodeId NodeRuntimeEntry :=
  store.nodes.mapValues fun _ route =>
    let kept := { route with childrenIds := route.childrenIds.filter (· ∈ store.nodes.keys) }
    match route.parentId with
    | none => kept
    | some parentId =>
      if parentId ∈ store.nodes.keys then kept else { kept with parentId := none, depth := 0 }

/-- `computed_roots`: the nodes without a parent, the oldest first. -/
def computedRoots (nodes : Map NodeId NodeRuntimeEntry) : List NodeId :=
  let createdAt := fun id => ((nodes.lookup id).map (·.createdAtMs)).getD 0
  (nodes.entries.filterMap fun entry =>
    if entry.2.parentId = none then some entry.1 else none).mergeSort
      fun id id' => createdAt id ≤ createdAt id'

def reconcileTopology : NodeRuntimeStore :=
  let computed := computedRoots store.reconciledNodes
  NodeRuntimeStore.rebuildConnectionIndex
    { store with
      nodes := store.reconciledNodes
      rootIds := computed.foldl (fun roots id => if id ∈ roots then roots else roots ++ [id])
        (store.rootIds.filter fun id => id ∈ store.nodes.keys ∧ id ∈ computed) }

/-- The entry that `apply_snapshot` makes of a node. -/
def restoredEntry (nodes : List NodeTreeSnapshotNode) (depth : Nat) (node : NodeTreeSnapshotNode) :
    NodeRuntimeEntry where
  config := node.config
  parentId := node.parentId
  childrenIds := orderedSnapshotIds node.childrenIds
    ((nodes.filter fun child => child.parentId = some node.id).map (·.id))
  depth := depth
  origin := node.origin
  connectionId := node.connectionId
  terminalSessionId := node.terminalSessionId
  terminalEndpoints := restoredTerminalEndpoints node.terminalEndpoints node.state.wsEndpoint
  sftpSessionId := node.sftpSessionId
  state := { node.state with wsEndpoint := none }
  createdAtMs := node.createdAtMs
  generation := node.generation

def applySnapshot (snapshot : NodeTreeSnapshot) : Option (Answer Unit) :=
  let ids := snapshot.nodes.map (·.id)
  if ¬ids.Nodup then
    some (.error (.connectionError
      "invalid node tree snapshot: duplicate node identifiers".toList), store)
  else
    match snapshot.nodes.findSome? fun node =>
        node.parentId.bind fun parentId => if parentId ∈ ids then none else some parentId with
    | some parentId => some (.error (.nodeNotFound parentId.value), store)
    | none =>
      let parentById : Map NodeId (Option NodeId) :=
        Map.insertAll ∅ (snapshot.nodes.map fun node => (node.id, node.parentId))
      match validateSnapshotParentGraph parentById parentById.keys with
      | none => none
      | some (.error error) => some (.error error, store)
      | some (.ok ()) =>
        let depthOf := snapshotNodeDepth parentById (parentById.keys.length + 1)
        match snapshot.nodes.mapM fun node => (depthOf node.id).map fun depth => (node, depth) with
        | none => none
        | some nodes =>
          if nodes.any fun node => node.2 > maxSessionTreeDepth then
            some (.error (.maxDepthExceeded maxSessionTreeDepth), store)
          else
            some (.ok (), NodeRuntimeStore.reconcileTopology {
              nodes := Map.insertAll ∅ (nodes.map fun node =>
                (node.1.id, restoredEntry snapshot.nodes node.2 node.1))
              rootIds := orderedSnapshotIds snapshot.rootIds
                (rootIdsFromNodes snapshot.nodes)
              connectionNodes := Map.insertAll ∅ (snapshot.nodes.filterMap fun node =>
                node.connectionId.map fun connectionId => (connectionId, node.id)) })

/-! ## 5. Connections -/

/-- The change of `reconcile_with_connections`. -/
def reconcileEntry (connections : Map Str ConnectionState) (route : NodeRuntimeEntry) :
    NodeRuntimeEntry :=
  match route.connectionId with
  | none => { route with state := { route.state with readiness := .disconnected, error := none } }
  | some connectionId =>
    match connections.lookup connectionId with
    | some state =>
      { route with
        state := { route.state with
          readiness := readinessForConnectionState state
          error := errorForConnectionState state }
        generation := route.generation + 1 }
    | none =>
      { route with
        connectionId := none
        terminalSessionId := none
        terminalEndpoints := []
        sftpSessionId := none
        state := {}
        generation := route.generation + 1 }

def reconcileWithConnections (connections : Map Str ConnectionState) : NodeRuntimeStore :=
  NodeRuntimeStore.rebuildConnectionIndex
    { store with nodes := store.nodes.mapValues fun _ => reconcileEntry connections }

/-- `bind_connection`; of the connection it reads the state. -/
def bindConnection (connectionId : Str) (state : ConnectionState) : Answer NodeStateEvent :=
  match store.nodes.lookup nodeId with
  | none => (.error (.nodeNotFound nodeId.value), store)
  | some route =>
    let connectionNodes := match route.connectionId with
      | none => store.connectionNodes
      | some previousId =>
        if previousId ≠ connectionId then store.connectionNodes.erase previousId
        else store.connectionNodes
    let bound := { route with
      connectionId := some connectionId
      generation := route.generation + 1
      state := { route.state with
        readiness := readinessForConnectionState state, error := errorForConnectionState state } }
    (.ok (.connectionStateChanged nodeId.value bound.generation bound.state.readiness
        "connection bound".toList),
      { store with
        nodes := store.nodes.insert nodeId bound
        connectionNodes := connectionNodes.insert connectionId nodeId })

def disconnectNode (reason : Str) : Answer NodeStateEvent :=
  match store.nodes.lookup nodeId with
  | none => (.error (.nodeNotFound nodeId.value), store)
  | some route =>
    let unbound := { route with
      connectionId := none
      terminalSessionId := none
      terminalEndpoints := []
      sftpSessionId := none
      state := {}
      generation := route.generation + 1 }
    (.ok (.connectionStateChanged nodeId.value unbound.generation .disconnected reason),
      { store with
        nodes := store.nodes.insert nodeId unbound
        connectionNodes := match route.connectionId with
          | none => store.connectionNodes
          | some connectionId => store.connectionNodes.erase connectionId })

def nodeIdForConnection (connectionId : Str) : Option NodeId :=
  store.connectionNodes.lookup connectionId

def connectionIdForNode : Option Str :=
  (store.nodes.lookup nodeId).bind (·.connectionId)

/-! ## 6. Changes of one node -/

/-- `self.nodes.get_mut(node_id).ok_or_else(..)?`, a change, and an answer made from the result. -/
def editNode {T : Type} (nodeId : NodeId) (edit : NodeRuntimeEntry → NodeRuntimeEntry)
    (answer : NodeRuntimeEntry → T) : Answer T :=
  match store.nodes.lookup nodeId with
  | none => (.error (.nodeNotFound nodeId.value), store)
  | some route =>
    (.ok (answer (edit route)), { store with nodes := store.nodes.insert nodeId (edit route) })

def updateOrigin (origin : NodeOrigin) : Answer Unit :=
  store.editNode nodeId
    (fun route => { route with origin := origin, generation := route.generation + 1 })
    fun _ => ()

def applyNodeReadiness (readiness : NodeReadiness) (reason : Str) : Answer NodeStateEvent :=
  store.editNode nodeId
    (fun route =>
      { route with
        generation := route.generation + 1
        state := { route.state with
          readiness := readiness
          error := if readiness = .error ∧ reason ≠ [] then some reason else none } })
    fun route => .connectionStateChanged nodeId.value route.generation route.state.readiness
      (route.state.error.getD [])

def updateConnectionStateFromParts (state : ConnectionState) (reason : Str) :
    Answer NodeStateEvent :=
  store.editNode nodeId
    (fun route =>
      { route with
        generation := route.generation + 1
        state := { route.state with
          readiness := readinessForConnectionState state, error := errorForConnectionState state } })
    fun route => .connectionStateChanged nodeId.value route.generation route.state.readiness reason

def bindTerminalSession (sessionId : Str) : Answer Unit :=
  store.editNode nodeId
    (fun route =>
      if route.terminalSessionId = none then
        { route with
          terminalSessionId := some sessionId
          state := { route.state with wsEndpoint := none }
          generation := route.generation + 1 }
      else { route with generation := route.generation + 1 })
    fun _ => ()

def bindTerminalEndpoint (endpoint : TerminalEndpoint) : Answer NodeStateEvent :=
  store.editNode nodeId
    (fun route =>
      let endpoints :=
        if route.terminalEndpoints.any (·.sessionId = endpoint.sessionId) then
          -- `find` returns the first endpoint of the session
          route.terminalEndpoints.set
            (route.terminalEndpoints.findIdx (·.sessionId = endpoint.sessionId)) endpoint
        else route.terminalEndpoints ++ [endpoint]
      if route.terminalSessionId = none ∨ route.terminalSessionId = some endpoint.sessionId then
        { route with
          terminalEndpoints := endpoints
          terminalSessionId := some endpoint.sessionId
          state := { route.state with wsEndpoint := none }
          generation := route.generation + 1 }
      else { route with terminalEndpoints := endpoints, generation := route.generation + 1 })
    fun route => .terminalEndpointChanged nodeId.value route.generation true

def unbindTerminalSession (sessionId : Str) : Answer Unit :=
  store.editNode nodeId
    (fun route =>
      let endpoints := route.terminalEndpoints.filter (·.sessionId ≠ sessionId)
      if route.terminalSessionId = some sessionId then
        { route with
          terminalEndpoints := endpoints
          terminalSessionId := endpoints.head?.map (·.sessionId)
          state := { route.state with wsEndpoint := none }
          generation := route.generation + 1 }
      else if endpoints.length ≠ route.terminalEndpoints.length then
        { route with terminalEndpoints := endpoints, generation := route.generation + 1 }
      else { route with terminalEndpoints := endpoints })
    fun _ => ()

def bindSftpSession (sessionId : Str) (cwd : Option Str) : Answer NodeStateEvent :=
  store.editNode nodeId
    (fun route =>
      { route with
        sftpSessionId := some sessionId
        generation := route.generation + 1
        state := { route.state with sftpReady := true, sftpCwd := cwd } })
    fun route => .sftpReady nodeId.value route.generation route.state.sftpReady route.state.sftpCwd

def setSftpReady (ready : Bool) (cwd : Option Str) : Answer NodeStateEvent :=
  store.editNode nodeId
    (fun route =>
      { route with
        sftpSessionId := if ready then route.sftpSessionId else none
        state := { route.state with sftpReady := ready, sftpCwd := if ready then cwd else none }
        generation := route.generation + 1 })
    fun route => .sftpReady nodeId.value route.generation route.state.sftpReady route.state.sftpCwd

def sharedSftpSessionChanged (nodeId : NodeId) (connectionId : Str)
    (sessionGeneration : Option Nat) (ready : Bool) : Answer NodeStateEvent :=
  store.editNode nodeId (fun route => { route with generation := route.generation + 1 })
    fun route => .sharedSftpSessionChanged nodeId.value route.generation connectionId
      sessionGeneration ready

/-! ## 7. Runs -/

/-- The operations that change the store. -/
inductive Operation where
  | upsertNode (nodeId : NodeId) (config : SshConfig) (origin : NodeOrigin) (now : Nat)
  | upsertChildNode (parentId nodeId : NodeId) (config : SshConfig) (origin : NodeOrigin)
      (now : Nat)
  | drillDown (parentId : NodeId) (config : SshConfig) (supply : Supply)
  | expandManualPreset (savedConnectionId : Str) (hops : List SshConfig) (target : SshConfig)
      (supply : Supply)
  | expandManualPresetUnderParent (parentId : NodeId) (savedConnectionId : Str)
      (hops : List SshConfig) (target : SshConfig) (supply : Supply)
  | removeSubtree (nodeId : NodeId)
  | applySnapshot (snapshot : NodeTreeSnapshot)
  | clear
  | reconcileWithConnections (connections : Map Str ConnectionState)
  | bindConnection (nodeId : NodeId) (connectionId : Str) (state : ConnectionState)
  | disconnectNode (nodeId : NodeId) (reason : Str)
  | updateOrigin (nodeId : NodeId) (origin : NodeOrigin)
  | applyNodeReadiness (nodeId : NodeId) (readiness : NodeReadiness) (reason : Str)
  | updateConnectionState (nodeId : NodeId) (state : ConnectionState) (reason : Str)
  | bindTerminalSession (nodeId : NodeId) (sessionId : Str)
  | bindTerminalEndpoint (nodeId : NodeId) (endpoint : TerminalEndpoint)
  | unbindTerminalSession (nodeId : NodeId) (sessionId : Str)
  | bindSftpSession (nodeId : NodeId) (sessionId : Str) (cwd : Option Str)
  | setSftpReady (nodeId : NodeId) (ready : Bool) (cwd : Option Str)
  | sharedSftpSessionChanged (nodeId : NodeId) (connectionId : Str)
      (sessionGeneration : Option Nat) (ready : Bool)
  /-- no call: the maps are iterated in another order from now on -/
  | rehash (nodes : List (Σ _ : NodeId, NodeRuntimeEntry)) (connections : List (Σ _ : Str, NodeId))

/-- The store after an operation; `none` if it does not return. -/
def step : NodeRuntimeStore → Operation → Option NodeRuntimeStore
  | store, .upsertNode nodeId config origin now =>
    some (store.upsertNodeWithOrigin nodeId config origin now)
  | store, .upsertChildNode parentId nodeId config origin now =>
    some (store.upsertChildNodeWithOrigin parentId nodeId config origin now).2
  | store, .drillDown parentId config supply => some (store.drillDown parentId config supply).2
  | store, .expandManualPreset savedConnectionId hops target supply =>
    some (store.expandManualPreset savedConnectionId hops target supply).2
  | store, .expandManualPresetUnderParent parentId savedConnectionId hops target supply =>
    some (store.expandManualPresetUnderParent parentId savedConnectionId hops target supply).2
  | store, .removeSubtree nodeId => (store.removeSubtree nodeId).map (·.2)
  | store, .applySnapshot snapshot => (store.applySnapshot snapshot).map (·.2)
  | _, .clear => some {}
  | store, .reconcileWithConnections connections =>
    some (store.reconcileWithConnections connections)
  | store, .bindConnection nodeId connectionId state =>
    some (store.bindConnection nodeId connectionId state).2
  | store, .disconnectNode nodeId reason => some (store.disconnectNode nodeId reason).2
  | store, .updateOrigin nodeId origin => some (store.updateOrigin nodeId origin).2
  | store, .applyNodeReadiness nodeId readiness reason =>
    some (store.applyNodeReadiness nodeId readiness reason).2
  | store, .updateConnectionState nodeId state reason =>
    some (store.updateConnectionStateFromParts nodeId state reason).2
  | store, .bindTerminalSession nodeId sessionId =>
    some (store.bindTerminalSession nodeId sessionId).2
  | store, .bindTerminalEndpoint nodeId endpoint =>
    some (store.bindTerminalEndpoint nodeId endpoint).2
  | store, .unbindTerminalSession nodeId sessionId =>
    some (store.unbindTerminalSession nodeId sessionId).2
  | store, .bindSftpSession nodeId sessionId cwd =>
    some (store.bindSftpSession nodeId sessionId cwd).2
  | store, .setSftpReady nodeId ready cwd => some (store.setSftpReady nodeId ready cwd).2
  | store, .sharedSftpSessionChanged nodeId connectionId sessionGeneration ready =>
    some (store.sharedSftpSessionChanged nodeId connectionId sessionGeneration ready).2
  | store, .rehash nodes connections =>
    some { store with
      nodes := store.nodes.reorder nodes
      connectionNodes := store.connectionNodes.reorder connections }

/-- A run of operations. -/
def run (store : NodeRuntimeStore) (operations : List Operation) : Option NodeRuntimeStore :=
  operations.foldlM step store

end NodeRuntimeStore

end Hapcli.Ssh
