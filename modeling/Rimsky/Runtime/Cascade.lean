import Rimsky.Runtime.Args

/-!
# The cascade walker

`runtime/runner_terminal.go` from `cascadeSubscribersStaleInTxWithVisited` on,
`runtime/cascade_walker.go`, `runtime/signal_emit.go`, `runtime/attribute_cascade.go` and
`runtime/wake_parked.go`. A signal of a run is handed to the subscribers of its node: each
gets a pending run, or has one already, with a wait row on the sender. Once the sender has
settled its wait rows are drained and the gates behind them are evaluated.
-/

namespace Rimsky

open Transaction List

def resumeParkedRunInTx (parkedRunId : Id) (reason : TransitionReason) : Tx Bool := do
  if ← Queue.resumeParked parkedRunId then
    Nodes.updateState parkedRunId .stale reason none
    return true
  else return false

/-- The transactions of `wakeParkedNode` for a run scheduled for its deadline. -/
def wakeParkedNode (targetNodeId nodeRunId : Id) : Tx Unit := do
  match ← read (·.run? nodeRunId) with
  | none => return ()
  | some row =>
    match ← Queue.getParkedByNode targetNodeId row.runScopeId with
    | none => return ()
    | some parked =>
      if parked.id = nodeRunId then
        let _ ← resumeParkedRunInTx parked.id .deadlineResume

/-- `ensureCascadePending`: the latest pending run, unless it waits for the sender already. -/
def ensureCascadePending (receiverNodeId runScopeId frameId senderNodeId senderNodeRunId : Id) :
    Tx Id := do
  match ← Nodes.findLatestCascadePending receiverNodeId runScopeId frameId with
  | some latest =>
    let covered ← WaitSet.hasRowForSenderRun frameId latest.id senderNodeRunId
    if senderNodeRunId ≠ 0 && covered then return latest.id
    else
      let senderNodes ← WaitSet.listSenderNodesForReceiver frameId latest.id
      if senderNodes.contains senderNodeId then
        Nodes.createCascadePending receiverNodeId runScopeId frameId
      else return latest.id
  | none => Nodes.createCascadePending receiverNodeId runScopeId frameId

/-- `resolveReceiverRunForCascade`: the run, if there is one, and the nodes visited this turn. -/
def resolveReceiverRunForCascade
    (receiverNodeId runScopeId frameId senderNodeId senderNodeRunId : Id) (visited : List Id) :
    Tx (Option Id × List Id) := do
  if visited.contains receiverNodeId then
    let latest ← Nodes.findLatestCascadePending receiverNodeId runScopeId frameId
    return (latest.map (·.id), visited)
  else
    match ← attempt (ensureCascadePending receiverNodeId runScopeId frameId senderNodeId
        senderNodeRunId) with
    | .ok id => return (some id, receiverNodeId :: visited)
    | .error .runScopeClosed => return (none, visited)
    | .error e => fail e

def waitSetTopicKindFor (pattern : String) : String :=
  match topLevel pattern with
  | .terminal => "terminal"
  | .transient => "transient"
  | .attribute => "attribute"
  | .none => "state"

section Walker

variable (args : RunArgs) (rec : Rec)

def pullForceRefreshUpstream (upstream : Node) (receiverNodeRunId runScopeId frameId : Id) :
    Tx Unit := do
  let wait := fun upstreamRunId => WaitSet.insert
    { frameId, receiverRunId := receiverNodeRunId, senderRunId := upstreamRunId
      topicKind := "attribute" }
  match ← Queue.getInFlightRunForNode upstream.id runScopeId with
  | some upstreamRunId => wait upstreamRunId
  | none =>
    -- an upstream that has settled in this frame is not run again
    if ← read fun s => s.runs.any fun r => r.nodeId = upstream.id && r.frameId = frameId then
      return ()
    else
      match ← attempt (Nodes.createCascadePending upstream.id runScopeId frameId) with
      | .error .runScopeClosed => return ()
      | .error e => fail e
      | .ok newId =>
        rec.evaluateOneGate newId
        wait newId

def pullForceRefreshUpstreams (spec : TemplateSpec) (nodes : List Node) (receiver : Node)
    (receiverNodeRunId runScopeId frameId senderId : Id) : Tx Unit :=
  let upstreams := (hardDepEdges spec receiver.nodeType).flatMap fun upstreamType =>
    nodes.filter (·.nodeType = upstreamType)
  (upstreams.eraseDups.filter fun n => n.id ≠ receiver.id && n.id ≠ senderId).forM fun upstream =>
    pullForceRefreshUpstream rec upstream receiverNodeRunId runScopeId frameId

structure Sender where
  nodeId : Id
  nodeType : String
  nodeRunId : Id
  instanceId : Id
  frameId : Id
  deriving DecidableEq, Repr

def logDelivery (d : Delivery) : Tx Unit :=
  write fun s => { s with deliveries := s.deliveries ++ [d] }

/-- The first half of the loop over the receivers: the run in which a receiver is to wait. -/
def meetReceiver (sender : Sender) (scope : RunScope) (visited : List Id) (receiver : Node) :
    Tx (Option Id × List Id) := do
  -- in a sub-graph or a partition only nodes that have a run there take part
  let absent := scope.parentNodeRunId.isSome &&
    (← Queue.getInFlightRunForNode receiver.id scope.id).isNone
  if absent then return (none, visited)
  else
    match ← Queue.getParkedByNode receiver.id scope.id with
    | some parked => let _ ← resumeParkedRunInTx parked.id .cascadeResume
    | none => pure ()
    resolveReceiverRunForCascade receiver.id scope.id sender.frameId sender.nodeId
      sender.nodeRunId visited

/-- A receiver of an edge that fits; the signal is delivered to it where it gets a wait row. -/
def walkReceiver (spec : TemplateSpec) (nodes : List Node) (sender : Sender) (sig : Signal)
    (scope : RunScope) (edge : SubscriptionEdge) (visited : List Id) (receiver : Node) :
    Tx (List Id) := do
  let (run, visited) ← meetReceiver sender scope visited receiver
  match run with
  | none => return visited
  | some receiverNodeRunId =>
    logDelivery { senderRunId := sender.nodeRunId, signal := sig, receiverId := receiver.id }
    WaitSet.insert
      { frameId := sender.frameId, receiverRunId := receiverNodeRunId
        senderRunId := sender.nodeRunId, topicKind := waitSetTopicKindFor edge.typePattern }
    pullForceRefreshUpstreams rec spec nodes receiver receiverNodeRunId scope.id
      sender.frameId sender.nodeId
    return visited

def edgeFires (sig : Signal) (filter : String → Bool) (edge : SubscriptionEdge) : Bool :=
  (edge.whenExpr = "" || args.evalWhen edge.whenExpr sig) && filter edge.receiverNodeType

/-- The receivers of a signal, in the order the walker visits them. -/
def walkTargets (spec : TemplateSpec) (nodes : List Node) (senderNodeType : String) (sig : Signal)
    (filter : String → Bool) : List (SubscriptionEdge × Node) :=
  (((buildSubscriptionEdges spec).match senderNodeType sig.type).filter
    (edgeFires args sig filter)).flatMap fun edge =>
      (nodes.filter (·.nodeType = edge.receiverNodeType)).map fun receiver => (edge, receiver)

def Store.scopeOf? (s : Store) (runId : Id) : Option RunScope :=
  (s.run? runId).bind fun r => s.runScope? r.runScopeId

/-- `cascadeSubscribersStaleInTxWithVisited`; returns the nodes visited. -/
def cascadeSubscribersStale (sender : Sender) (sig : Signal) (visited : List Id)
    (filter : String → Bool) : Tx (List Id) := do
  if !shouldCascade sig.type then return visited
  else
    let s ← read id
    match s.template? sender.instanceId, s.scopeOf? sender.nodeRunId with
    | some spec, some scope =>
      let nodes := s.instanceNodes sender.instanceId
      (walkTargets args spec nodes sender.nodeType sig filter).foldlM (fun visited target =>
        walkReceiver rec spec nodes sender sig scope target.1 visited target.2) visited
    | _, _ => return visited

/-- `cascadeSignalInTxWithFilter`, and `emitSignalInTxWithFilter` without the audit row. -/
def emitSignalWithFilter (sender : Sender) (sig : Signal) (visited : List Id)
    (filter : String → Bool) : Tx (List Id) := do
  if !validTypePath sig.type then fail (.other ("invalid signal type-path: " ++ sig.type))
  else if sender.nodeRunId ≠ 0 && sender.frameId ≠ 0 then
    cascadeSubscribersStale args rec sender sig visited filter
  else return visited

def emitSignalOnce (sender : Sender) (sig : Signal) : Tx Unit := do
  let _ ← emitSignalWithFilter args rec sender sig [] fun _ => true

/-- `diffAttributesData`: the keys that changed with their new values; a lost key turns null. -/
def diffAttributesData (prior current : Bag) : Bag :=
  (current.canonical.filter fun (key, value) => prior.get? key ≠ some value) ++
    (prior.canonical.filter fun (key, _) => !current.has key).map fun (key, _) => (key, .null)

theorem diffAttributesData_eq_nil_iff (prior current : Bag) :
    diffAttributesData prior current = [] ↔ ∀ key, prior.get? key = current.get? key := by
  have entry : ∀ bag : Bag, ∀ key, (key, bag.getD key) ∈ bag.canonical ↔ (bag.get? key).isSome := by
    intro bag key
    rw [← Bag.mem_keys_iff]
    simp [Bag.canonical]
  unfold diffAttributesData
  rw [append_eq_nil_iff, map_eq_nil_iff, filter_eq_nil_iff, filter_eq_nil_iff]
  constructor
  · rintro ⟨changed, lost⟩ key
    cases found : current.get? key with
    | some value =>
      have kept := changed _ ((entry current key).mpr (by simp [found]))
      simpa [Bag.getD, found] using kept
    | none =>
      by_contra present
      have known := Option.isSome_iff_ne_none.mpr present
      have kept := lost _ ((entry prior key).mpr known)
      simp [Bag.has, found] at kept
  · intro same
    refine ⟨?_, ?_⟩
    · rintro ⟨key, value⟩ mem
      simp only [Bag.canonical, mem_map, Prod.mk.injEq] at mem
      rcases mem with ⟨_, mem, rfl, rfl⟩
      have known := (Bag.mem_keys_iff _ _).mp ((mem_insertionSort _).mp mem)
      rcases Option.isSome_iff_exists.mp known with ⟨value, found⟩
      simp [same, Bag.getD, found]
    · rintro ⟨key, value⟩ mem
      simp only [Bag.canonical, mem_map, Prod.mk.injEq] at mem
      rcases mem with ⟨_, mem, rfl, rfl⟩
      have known := (Bag.mem_keys_iff _ _).mp ((mem_insertionSort _).mp mem)
      rw [same] at known
      simp [Bag.has, known]

def firstRunAttributeBaseline (spec : TemplateSpec) (nodeType : String) : Bag :=
  match spec.lookupNodeDef nodeType with
  | none => []
  | some nodeDef =>
    let execSchema := if nodeDef.executor = "" then none
      else args.expectedAttributesSchemaFor nodeDef.executor
    if execSchema.isNone && nodeDef.attributes.isNone then []
    else mergeSchemaDefaultsForDispatch
      (some (mergeAttributeDefaults execSchema
        (templateAttributeDefaultsFor spec nodeDef.executor) nodeDef.attributes)) []

def attributeChangedSignal (prior : Bag) (change : String × Json) : Signal where
  type := "attribute/" ++ change.1 ++ "/changed"
  payload := .attributeChanged change.1 change.2 (prior.getD change.1)

def attributeBaseline (sender : Sender) : Tx Bag := do
  match ← NodeAttributes.getPriorRunData sender.nodeRunId with
  | some prior => return prior
  | none =>
    let spec ← loadTemplateSpec sender.instanceId
    return firstRunAttributeBaseline args spec sender.nodeType

/-- `emitAttributeChangesForRunInTx`; returns the nodes visited. -/
def emitAttributeChangesForRun (sender : Sender) (visited : List Id) (filter : String → Bool) :
    Tx (List Id) := do
  match ← read (·.data? sender.nodeRunId) with
  | none => return visited
  | some current =>
    let prior ← attributeBaseline args sender
    (diffAttributesData prior current).foldlM (fun visited change =>
      emitSignalWithFilter args rec sender (attributeChangedSignal prior change) visited filter)
      visited

def upsertDataFromDispatchInputBagIfEmpty (runId nodeId : Id) : Tx Unit := do
  let current ← read (·.data? runId)
  if current.any (!·.isEmpty) then return ()
  else
    let bag ← read (·.dispatchInputBag? runId)
    NodeAttributes.upsert runId nodeId (bag.getD [])

def reevalDownstreamReceiverGates (senderNodeRunId : Id) : Tx Unit := do
  let s ← read id
  match s.run? senderNodeRunId with
  | none => return ()
  | some senderRun =>
    match s.node? senderRun.nodeId with
    | none => return ()
    | some senderNode =>
      match s.template? senderNode.instanceId with
      | none => return ()
      | some spec =>
        let types := (buildSubscriptionEdges spec).receiverNodeTypesForSender
          senderNode.nodeType
        let downstream := ((s.instanceNodes senderNode.instanceId).filter fun n =>
          n.id ≠ senderNode.id && types.contains n.nodeType).map (·.id)
        let pendings ← Nodes.listPendingRunsInScopeForNodes senderRun.runScopeId downstream
        pendings.forM rec.evaluateOneGate

def drainWaitSetOnSettled (frameId senderNodeRunId : Id) : Tx Unit := do
  WaitSet.markDrainedBySender frameId senderNodeRunId
  let receivers ← WaitSet.listPendingReceiversForDrainedSender frameId senderNodeRunId
  receivers.forM rec.evaluateOneGate
  let siblings ← Nodes.listPendingSiblingRunsInScope senderNodeRunId
  siblings.forM rec.evaluateOneGate
  reevalDownstreamReceiverGates rec senderNodeRunId

end Walker

end Rimsky
