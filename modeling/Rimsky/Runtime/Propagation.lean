import Rimsky.Runtime.Terminal

/-!
# Propagation up the run tree

`runtime/run_tree.go` and `runtime/state_propagation.go`: once a child run has settled, its
parent is settled by aggregating the states of all its children, and so on upwards. Every
parent that settles is signalled to the subscribers of its node.
-/

namespace Rimsky

open Transaction

variable (children : List NodeRun)

inductive AggregateAction where
  | none | cancelSiblings | cancelNonWinners
  deriving DecidableEq, Repr

structure AggregateResult where
  parentState : NodeState
  parentSettlingSignalType : String
  parentChanged : Bool := false
  action : AggregateAction := .none
  deriving DecidableEq, Repr

namespace NodeRun

def isSettled (r : NodeRun) : Bool := r.state.isTerminal

def isSuccess (r : NodeRun) : Bool :=
  r.state = .fresh && r.settlingSignalType.all fun type =>
    typeHasPrefix type "terminal/success" || typeHasPrefix type "terminal/error"

def isFailure (r : NodeRun) : Bool := r.state = .failed

end NodeRun

def aggregateSuccess : AggregateResult where
  parentState := .fresh
  parentSettlingSignalType := "terminal/success"
  parentChanged := children.any (·.changed)

def aggregateStrict : Option AggregateResult :=
  if children.any (·.isFailure) then some {
    parentState := .failed, parentSettlingSignalType := "terminal/error/aggregate/strict_failed"
    action := .cancelSiblings }
  else if children.all (·.isSettled) then some (aggregateSuccess children)
  else none

def aggregateThreshold (maxFailures : Int) : Option AggregateResult :=
  let max := if maxFailures ≤ 0 then 1 else maxFailures
  if max ≤ (children.filter (·.isFailure)).length then some {
    parentState := .failed
    parentSettlingSignalType := "terminal/error/aggregate/threshold_failed" }
  else if children.all (·.isSettled) then some (aggregateSuccess children)
  else none

def aggregateBestEffort : Option AggregateResult :=
  if children.all (·.isSettled) then some (aggregateSuccess children) else none

/-- `aggregateFirst`: the first success decides. -/
def aggregateFirst : Option AggregateResult :=
  match children.find? (·.isSuccess) with
  | some winner => some {
      parentState := .fresh
      parentSettlingSignalType := winner.settlingSignalType.getD "terminal/success"
      parentChanged := winner.changed, action := .cancelNonWinners }
  | none =>
    if children.all (·.isFailure) then some {
      parentState := .failed
      parentSettlingSignalType := "terminal/error/aggregate/first_failed" }
    else none

def aggregate (policy : Option AggregationPolicy) :
    Option AggregateResult :=
  if children.isEmpty then none
  else match policy with
    | some { kind := .threshold, maxFailures } => aggregateThreshold children maxFailures
    | some { kind := .bestEffort, .. } => aggregateBestEffort children
    | some { kind := .first, .. } => aggregateFirst children
    | _ => aggregateStrict children

structure ParentSettlement where
  parent : NodeRun
  result : AggregateResult
  deriving DecidableEq

def parentSettlementSignal (result : AggregateResult) : Signal :=
  if result.parentState = .failed then
    let before := "terminal/error/".toList
    let type := result.parentSettlingSignalType.toList
    buildTerminalErrorSignal
      (String.ofList (if before <+: type then type.drop before.length else type)) none 0 0 [] []
  else buildTerminalSuccessSignal result.parentChanged [] "aggregated_settlement" []

/-- `walkUpwards`: settle the parent, then its parent; the fuel bounds the depth of the tree. -/
def walkUpwards : Nat → Id → Tx (List (ParentSettlement × List NodeRun))
  | 0, _ => fail .outOfFuel
  | fuel + 1, current => do
    let s ← read id
    let parent ← need (.other "walkUpwards: parent not found") (s.run? current)
    let children := s.children current
    match aggregate children parent.aggregationPolicy with
    | none => return []
    | some result =>
      let sig := result.parentSettlingSignalType
      if parent.state = result.parentState && parent.settlingSignalType.getD "" = sig then
        return []
      else
        NodeRunTree.updateStateAndOutcome current result.parentState
          (if sig = "" then none else some sig) result.parentChanged
        if parent.isSettled && parent.state = result.parentState then return []
        else
          match (s.runScope? parent.runScopeId).bind (·.parentNodeRunId) with
          | none => return [({ parent, result }, children)]
          | some above =>
            return ({ parent, result }, children) :: (← walkUpwards fuel above)

section Propagate

variable (args : RunArgs) (rec : Rec)

def failHeldCoHolderRows (holderNodeRunId : Id) : Tx Unit := do
  let holders ← ClaimHolders.listByHolderRun holderNodeRunId
  holders.forM fun h => do
    match (← read (·.claimHandle? h.claimHandleId)).bind (·.holderSupervisorId) with
    | none => return ()
    | some supervisorId => ClaimHolders.failAllActiveByClaimHandle h.claimHandleId supervisorId

/-- `resolveKilledClaimTerminal`: without its producer the abandonment is only recorded. -/
def resolveKilledClaimTerminal (instanceId : Id) (run : NodeRun) (supervisorId : String)
    (h : ClaimHandle) : Tx (List PostCommit) := do
  let recordOnly : Tx (List PostCommit) := do
    swallow (ClaimHandles.promote h.id supervisorId .abandoned)
    return []
  match args.resolveProducer (h.producerName.getD "") with
  | none => recordOnly
  | some producer =>
    match ← attempt (rec.resolveClaimHandleTerminal (h.decision supervisorId .active .abandon
        producer { instanceId, frameId := run.frameId, nodeRunId := run.id, nodeId := run.nodeId }
        h.parentClaimHandleId)) with
    | .ok post => return post
    | .error _ => recordOnly

def abandonRunClaimsThroughProducers (instanceId : Id) (run : NodeRun) : Tx (List PostCommit) := do
  if !args.hasClaimHandles then return []
  else
    let handles ← ClaimHandles.listByNodeRun run.id
    collectPost (fun h => do
      match h.holderSupervisorId with
      | none => return []
      | some supervisorId =>
        if h.lockKind = .named then
          swallow (ClaimHandles.delete h.id supervisorId)
          return []
        else resolveKilledClaimTerminal args rec instanceId run supervisorId h)
      (handles.filter fun h => h.state = .active && !h.isHeld)

def cancelInFlightRunTreeChild (current : NodeRun) : Tx (List PostCommit) := do
  match ← attempt (Nodes.updateState current.id .failed .siblingCancelled
      (some "terminal/error/sibling_failed")) with
  | .error .illegalTransition => return []
  | .error e => fail e
  | .ok () =>
    let instanceId := ((← read (·.node? current.nodeId)).map (·.instanceId)).getD 0
    swallow (drainWaitSetOnSettled rec current.frameId current.id)
    if current.state = .held then failHeldCoHolderRows current.id
    let post ← abandonRunClaimsThroughProducers args rec instanceId current
    return post ++ [.propagate current.id]

def cancelInFlightRunTreeSubtree : Nat → Id → Tx (List PostCommit)
  | 0, _ => fail .outOfFuel
  | fuel + 1, runId => do
    match ← read (·.run? runId) with
    | none => return []
    | some current =>
      if current.state.isTerminal then return []
      else
        let post ← cancelInFlightRunTreeChild args rec current
        let children ← read (·.children runId)
        let below ← collectPost (cancelInFlightRunTreeSubtree fuel) (children.map (·.id))
        return post ++ below

def executeCancelActions (settled : List (ParentSettlement × List NodeRun)) :
    Tx (List PostCommit) := do
  let depth := (← read (·.runs)).length + 1
  collectPost (fun settled =>
    if settled.1.result.action = .cancelNonWinners then
      collectPost (cancelInFlightRunTreeSubtree args rec depth) (settled.2.map (·.id))
    else pure []) settled

def resolveSettledDelegateCallerClaims (settlement : ParentSettlement) (parentNode : Node) :
    Tx (List PostCommit) := do
  let spec ← loadTemplateSpec parentNode.instanceId
  if (spec.lookupNodeDef parentNode.nodeType).any (·.delegate ≠ "") then
    match ← read (·.run? settlement.parent.id) with
    | none => return []
    | some parent =>
      resolveDelegateCallerClaims args rec parent parentNode.instanceId
        (if settlement.result.parentState = .fresh then .commit else .abandon)
  else return []

def announceParent (settlement : ParentSettlement) : Tx (List PostCommit) := do
  let parent := settlement.parent
  if parent.frameId = 0 then return []
  else
    match ← read (·.node? parent.nodeId) with
    | none => return []
    | some node =>
      let sender : Sender := { nodeId := parent.nodeId, nodeType := node.nodeType
                               nodeRunId := parent.id, instanceId := node.instanceId
                               frameId := parent.frameId }
      emitSignalOnce args rec sender (parentSettlementSignal settlement.result)
      upsertDataFromDispatchInputBagIfEmpty parent.id parent.nodeId
      let _ ← emitAttributeChangesForRun args rec sender [] fun _ => true
      drainWaitSetOnSettled rec parent.frameId parent.id
      resolveSettledDelegateCallerClaims args rec settlement node

def propagateIfChildAfterTerminal (runId : Id) : Tx (List PostCommit) := do
  let s ← read id
  match (s.run? runId).bind fun run => (s.runScope? run.runScopeId).bind (·.parentNodeRunId) with
  | none => return []
  | some parentId =>
    let settled ← walkUpwards (s.runs.length + 1) parentId
    let cancelled ← executeCancelActions args rec settled
    let announced ← collectPost (fun settled => announceParent args rec settled.1)
      (settled.filter (·.1.result.parentState.isTerminal))
    return cancelled ++ announced

end Propagate

end Rimsky
