import Rimsky.Runtime.Cascade

/-!
# Resolving claim handles

`runtime/held_cascade_defer.go`, `runtime/terminal_decision.go`,
`runtime/terminal_decision_cancel.go`, `runtime/auto_terminal.go`, `runtime/runner_held_claims.go`
and the claim side of `runtime/child_execution.go`. A handle is resolved by queueing a verb
for its producer and promoting the row. That may settle runs that were held by it, and it
counts towards the parent handle it was split off from.
-/

namespace Rimsky

open Transaction

variable (s : Store) (runId : Id)

/-! ## The portfolio of a holder -/

/-- The handles a run holds by a holder row. -/
def Store.coHeld (fits : ClaimHolder → Bool) : List ClaimHandle :=
  (s.claimHolders.filter fun h => h.holderRunId = runId && fits h).filterMap fun h =>
    s.claimHandle? h.claimHandleId

/-- `runHasActiveHeldClaims`: any active handle of the run, acquired or held along. -/
def Store.hasActiveHeldClaims : Bool :=
  s.claimHandles.any (fun h => h.nodeRunId = some runId && h.state = .active) ||
    (s.coHeld runId (·.state = .active)).any (·.state = .active)

/-- `evaluateHolderPortfolio`: the handles that count. -/
def Store.portfolio : List ClaimHandle :=
  s.claimHandles.filter (fun h => h.nodeRunId = some runId) ++ s.coHeld runId fun _ => true

def Store.fullyResolved : Bool :=
  (s.portfolio runId).all (·.state ≠ .active)

def Store.poisoned : Bool :=
  (s.portfolio runId).any (·.state = .abandoned)

def recordRunTreeChanged (state : NodeState) (settlingSignalType : String) (changed : Bool) :
    Tx Unit :=
  NodeRunTree.updateStateAndOutcome runId state (some settlingSignalType) changed

section Resolve

variable (args : RunArgs) (rec : Rec)

def subgraphNonMemberFilter (spec : TemplateSpec) (nodeType receiverType : String) : Bool :=
  !(subgraphMembersIncludingType spec nodeType).contains receiverType

def subgraphMemberFilter (spec : TemplateSpec) (nodeType receiverType : String) : Bool :=
  (subgraphMembersIncludingType spec nodeType).contains receiverType

def Store.holderVerdict : NodeState × TransitionReason × Signal :=
  if s.poisoned runId then
    (.failed, .autoTerminalAbandon, buildTerminalErrorSignal "abandoned" none 0 0 [] [])
  else
    (.fresh, .autoTerminalCommit,
      buildTerminalSuccessSignal false ((s.data? runId).getD []) "auto-terminal/Commit" [])

/-- A holder that has moved: record its outcome and tell those it was kept from. -/
def announceHolder (holder : NodeRun) (state : NodeState) (sig : Signal) :
    Tx (List PostCommit) := do
  recordRunTreeChanged holder.id state sig.type false
  match ← read (·.node? holder.nodeId) with
  | none => return []
  | some node =>
    let spec ← loadTemplateSpec node.instanceId
    let sender : Sender := { nodeId := holder.nodeId, nodeType := node.nodeType
                             nodeRunId := holder.id, instanceId := node.instanceId
                             frameId := holder.frameId }
    let _ ← emitSignalWithFilter args rec sender sig []
      (subgraphNonMemberFilter spec node.nodeType)
    drainWaitSetOnSettled rec holder.frameId holder.id
    return [.propagate holder.id]

/-- What `transitionHolderIfFullyResolved` does once the holder is known to be resolved. -/
def settleHolder (holder : NodeRun) (verdict : NodeState × TransitionReason × Signal) :
    Tx (List PostCommit) := do
  match ← attempt (Nodes.updateState holder.id verdict.1 verdict.2.1 (some verdict.2.2.type)) with
  | .error .illegalTransition => return []
  | .error e => fail e
  | .ok () => announceHolder args rec holder verdict.1 verdict.2.2

def transitionHolderIfFullyResolved (holderNodeRunId : Id) : Tx (List PostCommit) := do
  let s ← read id
  match s.run? holderNodeRunId with
  | none => return []
  | some holder =>
    if holderNodeRunId = 0 || holder.state ≠ .held || !(s.children holderNodeRunId).isEmpty ||
        !s.fullyResolved holderNodeRunId then
      return []
    else settleHolder args rec holder (s.holderVerdict holderNodeRunId)

def collectPost {α : Type} (f : α → Tx (List PostCommit)) (xs : List α) : Tx (List PostCommit) :=
  xs.foldlM (fun post x => do return post ++ (← f x)) []

/-- `emitDeferredHeldCascade`: the holders of a handle that was resolved for all of them. -/
def emitDeferredHeldCascade (td : TerminalDecision) : Tx (List PostCommit) := do
  if td.source ≠ .held then return []
  else
    let holders ← ClaimHolders.listByClaimHandleId td.claimHandleId
    let runs := holders.map (·.holderRunId)
    let acquirer := if td.lineageHint.nodeRunId = 0 || runs.contains td.lineageHint.nodeRunId
      then [] else [td.lineageHint.nodeRunId]
    collectPost (transitionHolderIfFullyResolved args rec) (runs ++ acquirer)

/-! ## One handle -/

/-- The decision about a handle row that most callers make. -/
def ClaimHandle.decision (h : ClaimHandle) (supervisorId : String) (source : TerminalSource)
    (outcome : TerminalOutcome) (producer : String) (lineageHint : ClaimLineageHint)
    (parentClaimHandleId : Option Id) : TerminalDecision where
  claimHandleId := h.id
  supervisorId := supervisorId
  source := source
  outcome := outcome
  producer := some producer
  scope := h.claimScopeData
  address := h.address
  leaseToken := h.producerLeaseToken
  candidateHandle := h.producerCandidateHandle
  producerName := h.producerName.getD ""
  lineageHint := lineageHint
  parentClaimHandleId := parentClaimHandleId

def acquirerInstanceId (holderNodeId : Id) : Tx Id := do
  let node ← need (.other "acquirerInstanceID: node not found") (← read (·.node? holderNodeId))
  return node.instanceId

def ClaimHandle.hint (h : ClaimHandle) (instanceId : Id) : ClaimLineageHint where
  instanceId := instanceId
  frameId := h.frameId.getD 0
  nodeRunId := h.nodeRunId.getD 0
  nodeId := h.holderNodeId

def producerOf (h : ClaimHandle) : Tx String :=
  need (.other ("unknown producer " ++ h.producerName.getD ""))
    (args.resolveProducer (h.producerName.getD ""))

/-- `dispatchDataProcessingTerminal`: the metadata of a committed candidate. -/
def dispatchDataProcessingTerminal (td : TerminalDecision) : Tx (Option String) := do
  match td.candidateHandle with
  | none => return none
  | some candidate =>
    if td.producerName = "" then return none
    else if td.outcome = .commit then
      match args.commitCandidate td.producerName with
      | none => return none
      | some commit =>
        match commit td.claimHandleId candidate with
        | .ok metadata => return some metadata
        | .error e => fail (.other e)
    else
      match args.abandonCandidate td.producerName with
      | none => return none
      | some abandon =>
        match abandon td.claimHandleId candidate with
        | .ok () => return none
        | .error e => fail (.other e)

def enqueueProducerVerb (td : TerminalDecision) : Tx Unit := do
  let now ← read (·.clock)
  ProducerVerbOutbox.enqueue {
    seq := 0, claimHandleId := td.claimHandleId
    producerName := if td.producerName = "" then td.producer.getD "" else td.producerName
    verb := if td.outcome = .commit then .commit else .abandon
    claimScopeData := td.scope, address := td.address, leaseToken := td.leaseToken
    supervisorId := td.supervisorId
    instanceId := if td.lineageHint.instanceId = 0 then none else some td.lineageHint.instanceId
    parentClaimHandleId := td.parentClaimHandleId, nextAttemptAt := now }

/-- `promoteHandleState`; a handle that was resolved meanwhile stays as it is. -/
def promoteHandleState (td : TerminalDecision) : Tx Unit := do
  let state := if td.outcome.isAbandon then .abandoned else .committed
  match ← attempt (ClaimHandles.promote td.claimHandleId td.supervisorId state) with
  | .error .illegalClaimHandleTransition => return ()
  | .error e => fail e
  | .ok () => return ()

/-- `cancelClaimHandleWalk`: abandon the active handles of this supervisor. -/
def cancelClaimHandleWalk (outcome : TerminalOutcome) (keepParent : Bool)
    (rows : List ClaimHandle) : Tx (List PostCommit) :=
  collectPost (fun row => do
    if row.state ≠ .active || row.holderSupervisorId ≠ some args.supervisorId then return []
    else if !(← read (·.claimHandle? row.id)).any (·.state = .active) then return []
    else
      let producer ← producerOf args row
      let instanceId ← acquirerInstanceId row.holderNodeId
      rec.resolveClaimHandleTerminal (row.decision args.supervisorId .held outcome producer
        (row.hint instanceId) (if keepParent then row.parentClaimHandleId else none))) rows

def cancelDescendantClaims (rowId : Id) : Tx (List PostCommit) := do
  let descendants ← ClaimHandles.listChildClaimHandles rowId
  cancelClaimHandleWalk args rec .abandonDescendantCancel false descendants

/-- `cancelInFlightSiblings`: a strict parent abandons the siblings of an abandoned child. -/
def cancelInFlightSiblings (parentId triggerId : Id) : Tx (List PostCommit) := do
  match ← read (·.claimHandle? parentId) with
  | none => return []
  | some parent =>
    if parent.state ≠ .active || !parent.aggregationPolicy.any (·.kind = .strict) then return []
    else
      let siblings ← ClaimHandles.listChildClaimHandles parentId
      cancelClaimHandleWalk args rec .abandonSiblingCancel true
        (siblings.filter (·.id ≠ triggerId))

/-! ## Claim trees -/

/-- `aggregateParentOutcome`; a handle without a policy is strict. -/
def aggregateParentOutcome (parent : ClaimHandle) (seed : TerminalOutcome) : TerminalOutcome :=
  if parent.expectedChildrenCount = 0 then seed
  else
    match parent.aggregationPolicy with
    | some { kind := .threshold, maxFailures } =>
      let max := if maxFailures ≤ 0 then 1 else maxFailures
      if max ≤ parent.abandonedChildrenCount then .abandon else .commit
    | some { kind := .bestEffort, .. } | some { kind := .first, .. } =>
      if 0 < parent.committedChildrenCount then .commit else .abandon
    | _ => if 0 < parent.abandonedChildrenCount then .abandon else .commit

def Store.childPartitionWritebackKey (childId : Id) : String :=
  let scope := (s.claimHandle? childId).bind fun child => child.nodeRunId.bind fun runId =>
    (s.run? runId).bind fun run => s.runScope? run.runScopeId
  match scope with
  | some scope => if scope.partitionKey = "" then toString childId else scope.partitionKey
  | none => toString childId

def recordChildCommitMetadata (parent : ClaimHandle) (childId : Id) (outcome : TerminalOutcome)
    (metadata : Option String) : Tx Unit := do
  match metadata, parent.nodeRunId with
  | some metadata, some parentRunId =>
    if outcome ≠ .commit || metadata = "" then return ()
    else
      let s ← read id
      let merged := (s.data? parentRunId).getD []
      let known := match merged.get? "producer_metadata" with
        | some (.obj fields) => fields
        | _ => []
      NodeAttributes.upsert parentRunId parent.holderNodeId (merged.set "producer_metadata"
        (.obj (Bag.set known (s.childPartitionWritebackKey childId) (.str metadata))))
  | _, _ => return ()

def closePartitionScopes (children : List ClaimHandle) : Tx Unit :=
  children.forM fun c => do
    let s ← read id
    match c.nodeRunId.bind fun runId => (s.run? runId).bind fun run =>
      s.runScope? run.runScopeId with
    | none => return ()
    | some scope => if scope.partitionKey = "" then return () else RunScopes.close scope.id

/-- The last step of `SettleFromFanoutChild`: all children are resolved, and so is the parent. -/
def settleFanoutParent (parent : ClaimHandle) (holderSupervisorId : String)
    (childOutcome : TerminalOutcome) : Tx (List PostCommit) := do
  let instanceId ← acquirerInstanceId parent.holderNodeId
  let producer ← producerOf args parent
  if holderSupervisorId ≠ args.supervisorId then
    ClaimHandles.reassignHolderSupervisor parent.id holderSupervisorId args.supervisorId
  rec.resolveClaimHandleTerminal (parent.decision args.supervisorId .held
    (aggregateParentOutcome parent childOutcome) producer (parent.hint instanceId)
    parent.parentClaimHandleId)

/-- The last part of `settleFromFanoutChild`: the parent is settled once nothing is in flight. -/
def settleReady (parentId : Id) (childOutcome : TerminalOutcome) (cancelled : List PostCommit) :
    Tx (List PostCommit) := do
  let s ← read id
  match s.claimHandle? parentId with
  | none => return cancelled
  | some parent =>
    match parent.holderSupervisorId with
    | none => return cancelled
    | some holder =>
      let children := s.claimHandles.filter (·.parentClaimHandleId = some parentId)
      if parent.state ≠ .active ||
          s.claimHolders.any (fun h => h.claimHandleId = parentId && h.state = .active) ||
          children.any (·.state = .active) then return cancelled
      else
        closePartitionScopes children
        return cancelled ++ (← settleFanoutParent args rec parent holder childOutcome)

def settleFromFanoutChild (parentId childId : Id) (childOutcome : TerminalOutcome)
    (metadata : Option String) : Tx (List PostCommit) := do
  match ← read (·.claimHandle? parentId) with
  | none => return []
  | some parent =>
    recordChildCommitMetadata parent childId childOutcome metadata
    match parent.holderSupervisorId with
    | none => return []
    | some holder =>
      if parent.state ≠ .active then return []
      else
        ClaimHandles.bumpChildOutcomeCount parentId holder (!childOutcome.isAbandon) 1
        let cancelled ← if childOutcome.isAbandon then
          cancelInFlightSiblings args rec parentId childId else pure []
        settleReady args rec parentId childOutcome cancelled

def resolveClaimHandleTerminalBody (td : TerminalDecision) : Tx (List PostCommit) := do
  if td.producer.isNone then fail (.other "ResolveClaimHandleTerminal: producer is nil")
  else
    let metadata ← dispatchDataProcessingTerminal args td
    enqueueProducerVerb td
    let cancelled ← if td.outcome.isAbandon then cancelDescendantClaims args rec td.claimHandleId
      else pure []
    if td.source = .ownershipBail then ClaimHandles.delete td.claimHandleId td.supervisorId
    else promoteHandleState td
    let deferred ← emitDeferredHeldCascade args rec td
    match td.parentClaimHandleId with
    | none => return cancelled ++ deferred
    | some parentId =>
      return cancelled ++ deferred ++
        (← settleFromFanoutChild args rec parentId td.claimHandleId td.outcome metadata)

/-! ## Auto-terminal -/

def TemplateNodeDef.aliasOfProducer (def_ : TemplateNodeDef) (producerName : String) : String :=
  ((def_.claimProducers.find? (·.name = producerName)).map (·.aliasOf)).getD ""

/-- `expectedInheritorsMissing`: a member of the sub-graph has no holder row yet. -/
def Store.expectedInheritorsMissing (row : ClaimHandle) (holders : List ClaimHolder) :
    Bool :=
  match s.node? row.holderNodeId with
  | none => false
  | some acquirer =>
    match s.template? acquirer.instanceId with
    | none => false
    | some spec =>
      match spec.lookupNodeDef acquirer.nodeType with
      | none => false
      | some acqDef =>
        let heldAlias := acqDef.aliasOfProducer (row.producerName.getD "")
        match findHoldingSubgraph (holdingSubgraphsForTemplate spec) acquirer.nodeType
            heldAlias with
        | none => false
        | some sg =>
          let types := holders.filterMap fun h => (s.run? h.holderRunId).bind fun r =>
            (s.node? r.nodeId).map (·.nodeType)
          heldAlias ≠ "" && sg.isHeld && sg.members.any fun m => !types.contains m

def checkAndFireResolution (claimHandleId : Id) : Tx (List PostCommit) := do
  let s ← read id
  match s.claimHandle? claimHandleId with
  | none => return []
  | some row =>
    let holders := s.claimHolders.filter (·.claimHandleId = claimHandleId)
    let anyFailed := holders.any (·.state = .failed)
    if row.holderSupervisorId ≠ some args.supervisorId || row.state ≠ .active ||
        holders.isEmpty || holders.any (·.state = .active) ||
        (!anyFailed && s.expectedInheritorsMissing row holders) then return []
    else
      let producer ← producerOf args row
      let awaitsChildren := 0 < row.expectedChildrenCount && !anyFailed
      if awaitsChildren &&
          row.committedChildrenCount + row.abandonedChildrenCount < row.expectedChildrenCount then
        return []
      else
        let seed : TerminalOutcome := if anyFailed then .abandon else .commit
        let outcome := if awaitsChildren then aggregateParentOutcome row seed else seed
        let instanceId ← acquirerInstanceId row.holderNodeId
        rec.resolveClaimHandleTerminal (row.decision args.supervisorId .held outcome producer
          (row.hint instanceId) row.parentClaimHandleId)

/-! ## Releasing what a run holds -/

def markClaimHolderForRun (claimHandleId runId : Id) (success : Bool) : Tx Unit :=
  ClaimHolders.completeByClaimHandleAndRun claimHandleId runId
    (if success then .completed else .failed)

def releaseClaim (acq : Acquisition) (lk : AcquiredLock) (claimAlias : String) (success : Bool) :
    Tx (List PostCommit) := do
  if isAliasHeld acq.heldSubgraphs acq.nodeType claimAlias then
    markClaimHolderForRun lk.claimHandleId acq.nodeRunId success
    if !success then
      ClaimHolders.failAllActiveByClaimHandle lk.claimHandleId args.supervisorId
    checkAndFireResolution args rec lk.claimHandleId
  else
    let row ← read (·.claimHandle? lk.claimHandleId)
    if row.any (·.state ≠ .active) then return []
    else
      rec.resolveClaimHandleTerminal {
        claimHandleId := lk.claimHandleId, supervisorId := args.supervisorId, source := .active
        outcome := if success then .commit else .abandon, producer := lk.producer
        scope := row.bind (·.claimScopeData), address := row.bind (·.address)
        leaseToken := lk.producerLeaseToken
        candidateHandle := row.bind (·.producerCandidateHandle)
        producerName := (row.bind (·.producerName)).getD ""
        lineageHint := { instanceId := acq.instanceId, frameId := acq.frameId
                         nodeRunId := acq.nodeRunId, nodeId := acq.nodeId }
        parentClaimHandleId := row.bind (·.parentClaimHandleId) }

def releaseAcquiredLock (acq : Acquisition) (success : Bool) (lk : AcquiredLock) :
    Tx (List PostCommit) := do
  match lk.spec with
  | .named _ =>
    ClaimHandles.delete lk.claimHandleId args.supervisorId
    return []
  | .claim _ claimAlias => releaseClaim args rec acq lk claimAlias success

/-- `resolveLinkedSubClaimsInTx`: the sub-claims a fan-out child was started with. -/
def resolveLinkedSubClaims (acq : Acquisition) (success : Bool) : Tx (List PostCommit) := do
  let rows ← ClaimHandles.listByNodeRun acq.nodeRunId
  let released := acq.locks.map (·.claimHandleId)
  collectPost (fun row => do
    match ← read (·.claimHandle? row.id) with
    | none => return []
    | some row =>
      if row.state ≠ .active then return []
      else
        let producer ← producerOf args row
        rec.resolveClaimHandleTerminal (row.decision args.supervisorId .active
          (if success then .commit else .abandon) producer
          { instanceId := acq.instanceId, frameId := acq.frameId, nodeRunId := acq.nodeRunId
            nodeId := acq.nodeId } row.parentClaimHandleId))
    (rows.filter fun row =>
      row.parentClaimHandleId.isSome && !released.contains row.id && !row.isHeld)

/-- `findInheritedAliasesForRun`: the handles the run holds along with their acquirer. -/
def Store.inheritedAliases (subgraphs : List HoldingSubgraph) (nodeType : String) (runId : Id) :
    List Id :=
  let acquirers := (subgraphs.filter fun sg =>
    sg.acquirerType ≠ nodeType && sg.isHeld && sg.members.contains nodeType).map (·.acquirerType)
  ((s.claimHolders.filter (·.holderRunId = runId)).filter fun h =>
    ((s.claimHandle? h.claimHandleId).bind fun lh => s.node? lh.holderNodeId).any fun n =>
      acquirers.contains n.nodeType).map (·.claimHandleId)

def releaseInheritedClaims (acq : Acquisition) (success : Bool) : Tx (List PostCommit) := do
  let inherited ← read (·.inheritedAliases acq.heldSubgraphs acq.nodeType acq.nodeRunId)
  collectPost (fun claimHandleId => do
    markClaimHolderForRun claimHandleId acq.nodeRunId success
    checkAndFireResolution args rec claimHandleId) inherited

def releaseLocks (acq : Acquisition) (success : Bool) : Tx (List PostCommit) := do
  let own ← collectPost (releaseAcquiredLock args rec acq success) acq.locks
  let linked ← resolveLinkedSubClaims args rec acq success
  let inherited ← releaseInheritedClaims args rec acq success
  return own ++ linked ++ inherited

end Resolve

end Rimsky
