import Rimsky.Runtime.Gate

/-!
# Child runs, sub-graphs and fan-out

`runtime/child_execution.go`, `runtime/subgraph_dispatch.go` and `runtime/fanout_dispatch.go`.
A delegating caller whose entry succeeded stays running and starts a run of every internal
node of the sub-graph in a scope of their own; the exit's success carries its attributes
onto the caller. A fan-out parent starts a run of its own node in one scope per partition.
-/

namespace Rimsky

open Transaction

/-- `CreateChildNodeRun` of the runtime: a run in flight is reused. -/
def createChildNodeRun (nodeId frameId runScopeId : Id) (executor : String)
    (required : List String) : Tx Id := do
  match ← Queue.getInFlightRunForNode nodeId runScopeId with
  | some existing => return existing
  | none =>
    let runId ← newId
    let now ← read (·.clock)
    NodeRunTree.createChildNodeRun {
      nodeRunId := runId, nodeId, frameId, runScopeId, executorName := executor
      requiredClaimProducers := required, aggregationPolicy := some { kind := .strict }
      enqueuedAt := now }
    return runId

structure PartitionDescriptor where
  partitionKey : String := ""
  subClaimHandleId : Id := 0
  deriving DecidableEq, Repr

structure ChildRunSpec where
  nodeId : Id
  executor : String := ""
  requiredClaimProducers : List String := []
  deriving DecidableEq, Repr

structure ChildExecutionInput where
  parentNodeRunId : Id
  parentRunScopeId : Id
  instanceId : Id
  frameId : Id
  childGraphName : String
  entryAbsorbed : Bool := false
  partitions : List PartitionDescriptor
  children : List ChildRunSpec

structure DispatchedChild where
  nodeRunId : Id
  nodeId : Id
  deriving DecidableEq, Repr

/-- `ListParentChain`: the scope and those above it. -/
def Store.parentChain (s : Store) : Nat → Id → List RunScope
  | 0, _ => []
  | fuel + 1, scopeId =>
    match s.runScope? scopeId with
    | none => []
    | some scope => scope :: ((scope.parentRunScopeId.map (s.parentChain fuel)).getD [])

/-- The scope of a partition: the open one of the parent and key, or a new one. -/
def partitionScope (input : ChildExecutionInput) (key : String) : Tx Id := do
  match ← RunScopes.getFanoutPartition input.parentNodeRunId key with
  | some existing => return existing.id
  | none =>
    let scopeId ← newId
    RunScopes.create {
      id := scopeId, parentRunScopeId := some input.parentRunScopeId
      parentNodeRunId := some input.parentNodeRunId, graphName := input.childGraphName
      partitionKey := key, instanceId := input.instanceId }
    return scopeId

section Children

variable (args : RunArgs)

def dispatchPartition (input : ChildExecutionInput) (p : PartitionDescriptor) :
    Tx (List DispatchedChild) := do
  if p.subClaimHandleId ≠ 0 && input.children.length ≠ 1 then
    fail (.other "DispatchChildren: a sub-claim binds to exactly one run")
  else
    let scopeId ← partitionScope input p.partitionKey
    input.children.foldlM (fun dispatched c => do
      let runId ← createChildNodeRun c.nodeId input.frameId scopeId c.executor
        c.requiredClaimProducers
      if p.subClaimHandleId ≠ 0 then
        ClaimHandles.updateNodeRunId p.subClaimHandleId runId args.supervisorId
      return dispatched ++ [{ nodeRunId := runId, nodeId := c.nodeId }]) []

def dispatchChildren (input : ChildExecutionInput) : Tx (List DispatchedChild) := do
  if input.partitions.isEmpty || input.children.isEmpty then return []
  else
    let s ← read id
    match s.runScope? input.parentRunScopeId with
    | none => fail (.other "DispatchChildren: parent run scope not found")
    | some parentScope =>
      if input.entryAbsorbed && (s.parentChain s.runScopes.length parentScope.id).any
          (·.graphName = input.childGraphName) then
        fail (.other "rejectDelegateRecursionInChain: sub-graph is already open")
      else
        input.partitions.foldlM (fun dispatched p => do
          return dispatched ++ (← dispatchPartition args input p)) []

end Children

section Delegation

variable (args : RunArgs) (rec : Rec)

def mergeAttributesDelta (base delta : Bag) : Bag := base.merge delta

def upsertFinalAttributes (acq : Acquisition) (merged : Bag) : Tx Unit := do
  let prior := (← read (·.data? acq.nodeRunId)).getD []
  NodeAttributes.upsert acq.nodeRunId acq.nodeId (prior.merge merged)

/-- `SubgraphInternalCascade`: the nodes of the delegate graph but its entry. -/
def subgraphInternals (spec : TemplateSpec) (delegate : String) : Option (List TemplateNodeDef) :=
  (spec.graphs.find? (·.name = delegate)).map fun g => g.nodes.filter (·.type ≠ g.entry)

def nodeOfType (nodes : List Node) (nodeType : String) : Option Node :=
  (nodes.filter (·.nodeType = nodeType)).getLast?

/-- The child specs of the internals; every internal needs a node row. -/
def internalChildren (nodes : List Node) (internals : List TemplateNodeDef) :
    Tx (List ChildRunSpec) :=
  internals.foldlM (fun children def_ => do
    let node ← need (.other "applyTerminalCompleteSubgraphCaller: internal node has no row")
      (nodeOfType nodes def_.type)
    return children ++ [{ nodeId := node.id, executor := def_.executor
                          requiredClaimProducers := requiredClaimProducers def_ }]) []

def childRunOfType (nodes : List Node) (dispatched : List DispatchedChild) (nodeType : String) :
    Option Id :=
  (nodeOfType nodes nodeType).bind fun node =>
    ((dispatched.filter (·.nodeId = node.id)).getLast?).map (·.nodeRunId)

/-- `bindEntryAliasEdgesToCaller`: internals that subscribe to the entry wait for the caller. -/
def bindEntryAliasEdgesToCaller (acq : Acquisition) (spec : TemplateSpec) (delegate : String)
    (nodes : List Node) (dispatched : List DispatchedChild) (callerSig : Signal) : Tx Unit := do
  match (spec.graphs.find? (·.name = delegate)).map (·.entry) with
  | none => return ()
  | some entry =>
    if entry = "" then return ()
    else
      let bound := (((buildSubscriptionEdges spec).match entry callerSig.type).filter fun e =>
        e.resolvesViaCallingNode &&
          (e.whenExpr = "" || args.evalWhen e.whenExpr callerSig)).filterMap fun e =>
            (childRunOfType nodes dispatched e.receiverNodeType).map fun runId => (e, runId)
      bound.forM fun b => WaitSet.insert {
        frameId := acq.frameId, receiverRunId := b.2, senderRunId := acq.nodeRunId
        topicKind := waitSetTopicKindFor b.1.typePattern }
      if bound.isEmpty then return ()
      else WaitSet.markDrainedBySender acq.frameId acq.nodeRunId

/-- The entries an internal node's sources get from the caller's bag. -/
def entryAliasSeeds (def_ : TemplateNodeDef) (callerBag : Bag) : Bag :=
  let deps := (def_.subscribes.filter (·.resolvesViaCallingNode)).map fun sub =>
    (sub.node, Json.obj callerBag)
  if deps.isEmpty then []
  else ((def_.attributes.bind (·.properties)).getD []).filterMap fun (name, prop) =>
    match prop.source with
    | none => none
    | some source =>
      if source = "" then none
      else match substituteValue source { deps } with
        | .ok value => some (name, value)
        | .error _ => none

def seedEntryAliasSourcedAttributes (internals : List TemplateNodeDef) (nodes : List Node)
    (dispatched : List DispatchedChild) (callerBag : Bag) : Tx Unit :=
  dispatched.forM fun c => do
    let nodeType := ((nodes.find? (·.id = c.nodeId)).map (·.nodeType)).getD ""
    match (internals.filter (·.type = nodeType)).getLast? with
    | none => return ()
    | some def_ =>
      let seeded := entryAliasSeeds def_ callerBag
      if seeded.isEmpty then return ()
      else
        let bag := ((← read (·.data? c.nodeRunId)).getD []).merge seeded
        NodeAttributes.upsert c.nodeRunId c.nodeId bag
        NodeAttributes.setDispatchInputBag c.nodeRunId c.nodeId bag

/-- `applyTerminalCompleteSubgraphCaller`: the caller stays running and starts the internals. -/
def applyTerminalCompleteSubgraphCaller (acq : Acquisition) (merged : Bag) (t : TerminalEvent) :
    Tx Settlement := do
  let spec ← loadTemplateSpec acq.instanceId
  let delegate := (acq.nodeDef.map (·.delegate)).getD ""
  let internals ← need (.other "SubgraphInternalCascade: delegate graph not declared")
    (subgraphInternals spec delegate)
  upsertFinalAttributes acq merged
  applyTerminalScratch acq t.scratch
  NodeRunTree.updateStateAndOutcome acq.nodeRunId .running (some "terminal/success") t.changed
  let _ ← emitAttributeChangesForRun args rec acq.sender [] fun _ => true
  if internals.isEmpty then return {}
  else
    let nodes ← read (·.instanceNodes acq.instanceId)
    let children ← internalChildren nodes internals
    let dispatched ← dispatchChildren args {
      parentNodeRunId := acq.nodeRunId, parentRunScopeId := acq.runScopeId
      instanceId := acq.instanceId, frameId := acq.frameId, childGraphName := delegate
      entryAbsorbed := true, partitions := [{}], children }
    bindEntryAliasEdgesToCaller args acq spec delegate nodes dispatched
      (buildTerminalSuccessSignal t.changed t.attributesDel t.changeSummary t.tags)
    seedEntryAliasSourcedAttributes internals nodes dispatched merged
    return {}

def resolveDelegateCallerClaims (parent : NodeRun) (instanceId : Id) (outcome : TerminalOutcome) :
    Tx (List PostCommit) := do
  if !args.hasClaimHandles then return []
  else
    let rows ← ClaimHandles.listByNodeRun parent.id
    collectPost (fun row => do
      if row.lockKind = .named then
        ClaimHandles.delete row.id args.supervisorId
        return []
      else
        let producer ← producerOf args row
        rec.resolveClaimHandleTerminal (row.decision args.supervisorId .active outcome producer
          { instanceId, frameId := parent.frameId, nodeRunId := parent.id, nodeId := parent.nodeId }
          row.parentClaimHandleId))
      (rows.filter fun row => !row.isHeld && row.state = .active)

def exitBridgeSignal (writeback : Bag) : Signal :=
  buildTerminalSuccessSignal true writeback "subgraph_exit_carry" []

def settleFromDelegate (exitNodeRunId instanceId : Id) (writeback : Bag) :
    Tx (List PostCommit) := do
  let exit ← need (.other "SettleFromDelegate: run not found") (← read (·.run? exitNodeRunId))
  let scope ← read (·.runScope? exit.runScopeId)
  let parentId ← need (.other "SettleFromDelegate: run has no parent; not a sub-graph exit")
    (scope.bind (·.parentNodeRunId))
  let parent ← need (.other "SettleFromDelegate: parent run not found") (← read (·.run? parentId))
  if !writeback.isEmpty then NodeAttributes.upsert parent.id parent.nodeId writeback
  RunScopes.close exit.runScopeId
  let post ← resolveDelegateCallerClaims args rec parent instanceId .commit
  match ← read (·.node? parent.nodeId) with
  | none => return post
  | some callingNode =>
    let sender : Sender := { nodeId := parent.nodeId, nodeType := callingNode.nodeType
                             nodeRunId := parent.id, instanceId, frameId := parent.frameId }
    let _ ← cascadeSubscribersStale args rec sender (exitBridgeSignal writeback) [] fun _ => true
    let _ ← emitAttributeChangesForRun args rec sender [] fun _ => true
    drainWaitSetOnSettled rec parent.frameId parent.id
    return post

end Delegation

end Rimsky
