import Rimsky.Runtime.ErrorPolicy

/-!
# The gate of a pending run

`runtime/gate_evaluator.go` and the dependency side of `runtime/substitution_context.go`.
A pending run whose wait rows are drained and whose upstreams are all settled resolves its
attributes, passes the rule of its node's cascade mode and becomes stale, ready to be
claimed. Sources that cannot be resolved settle the run by its error policy.
-/

namespace Rimsky

open Transaction

variable (s : Store) (receiver : NodeRun)

def SubstitutionError.text : SubstitutionError → String
  | .missingSource directive reason _ =>
    "attributes: missing source for \x7b\x7b" ++ directive ++ "\x7d\x7d: " ++ reason
  | .fallbackChain directive =>
    "attributes: fallback chains are not admitted in \x7b\x7b" ++ directive ++ "\x7d\x7d"
  | .lenientFallbackConflict directive =>
    "attributes: \"?\" marker and \"| <literal>\" fallback are mutually exclusive in \x7b\x7b" ++
      directive ++ "\x7d\x7d"
  | .invalidFallback literal => "attributes: invalid fallback literal " ++ literal

namespace Store

def senderAttrs (runId : Id) : Json := .obj ((s.data? runId).getD [])

/-- `pinnedSenderRunsForReceiver` for one sender node: the latest run the receiver waits for. -/
def pinnedSenderRun? (frameId receiverNodeRunId nodeId : Id) : Option NodeRun :=
  let senders := (s.waitSet.filter fun w =>
    w.frameId = frameId && w.receiverRunId = receiverNodeRunId).filterMap fun w =>
      (s.run? w.senderRunId).filter (·.nodeId = nodeId)
  senders.foldl (fun best r => match best with
    | none => some r
    | some b => if b.sequence < r.sequence then some r else best) none

/-- The run of a sender node whose attributes the receiver reads. -/
def sourceRun? (nodeId : Id) : Option NodeRun :=
  (s.pinnedSenderRun? receiver.frameId receiver.id nodeId).or
    (s.latestRun? nodeId receiver.runScopeId fun r => r.state = .fresh)

/-- `populateEntryAliasDepsViaCallingNode`. -/
def entryAliasDeps (senders : List String) : List (String × Json) :=
  match (s.runScope? receiver.runScopeId).bind fun scope =>
      scope.parentNodeRunId.bind fun callerId => s.run? callerId with
  | none => []
  | some caller => senders.map fun sender => (sender, s.senderAttrs caller.id)

/-- `populateSubscribedSenderDeps`; of two nodes of one type the later one counts. -/
def subscribedSenderDeps : List (String × Json) :=
  match s.node? receiver.nodeId with
  | none => []
  | some node =>
    match s.template? node.instanceId with
    | none => []
    | some spec =>
      let edges := buildSubscriptionEdges spec
      let types := edges.senderNodeTypesForReceiver node.nodeType
      let senders := (s.instanceNodes node.instanceId).filter fun n =>
        n.id ≠ receiver.nodeId && types.contains n.nodeType
      let deps := senders.filterMap fun n =>
        (s.sourceRun? receiver n.id).map fun r => (n.nodeType, s.senderAttrs r.id)
      deps.reverse ++
        s.entryAliasDeps receiver (edges.callingNodeSenderTypesForReceiver node.nodeType)

/-- `BuildAttributeDeps`: the senders, then the messages of the frame under types still free. -/
def attributeDeps : List (String × Json) :=
  let delivered := (s.messages.filter fun m =>
    m.frameId = some receiver.frameId && m.type ≠ "").insertionSort fun m m' =>
      m.receivedAt < m'.receivedAt ∨ m.receivedAt = m'.receivedAt ∧ m.id ≤ m'.id
  s.subscribedSenderDeps receiver ++ delivered.map fun m => (m.type, m.payload.getD (.obj []))

end Store

section Gate

variable (args : RunArgs) (rec : Rec)

def schemaForGateEval (executor : String) (templateDefaults : Bag)
    (nodeDef : Option TemplateNodeDef) : Option AttributeSchema :=
  let nodeSchema := nodeDef.bind (·.attributes)
  let execSchema := if executor = "" then none else args.expectedAttributesSchemaFor executor
  if execSchema.isNone && nodeSchema.isNone then none
  else some (mergeAttributeDefaults execSchema templateDefaults nodeSchema)

def Store.gateContext (instanceId : Id) : ResolveContext where
  deps := s.attributeDeps receiver
  params := (s.instance? instanceId).bind (·.params)
  registryDeclaredTypes := (s.template? instanceId).map fun spec => "" :: spec.messages

/-- `buildResolvedBagAtGateEvalCarry`; the outer error is one that fails the transaction. -/
def buildResolvedBagAtGateEval (row : NodeRun) (carryForward : Bag) :
    Tx (Except SubstitutionError Bag) := do
  let s ← read id
  match s.node? row.nodeId with
  | none => return .ok carryForward
  | some node =>
    let spec ← loadTemplateSpec node.instanceId
    match schemaForGateEval args node.executor (templateAttributeDefaultsFor spec node.executor)
        (spec.lookupNodeDef node.nodeType) with
    | none => return .ok []
    | some schema =>
      return substituteAttributesSchemaWith (some schema) (s.gateContext row node.instanceId)
        carryForward true

def loadReceiverCarryForward (row : NodeRun) : Tx Bag := do
  let prior ← Nodes.getPriorRunBySequence row.nodeId row.runScopeId row.sequence
  let s ← read id
  return ((prior.bind fun p => s.data? p.id)).getD []

/-- `anySubscribedUpstreamInFlight`: a held upstream of the same sub-graph does not count. -/
def anySubscribedUpstreamInFlight (row : NodeRun) : Tx Bool := do
  let s ← read id
  match s.node? row.nodeId with
  | none => return false
  | some node =>
    match s.template? node.instanceId with
    | none => return false
    | some spec =>
      let types := (buildSubscriptionEdges spec).senderNodeTypesForReceiver node.nodeType
      let senders := (s.instanceNodes node.instanceId).filter fun n =>
        n.id ≠ row.nodeId && types.contains n.nodeType
      let coMembers := subgraphMembersIncludingType spec node.nodeType
      let phases ← Queue.listInFlightRunStates (senders.map (·.id)) row.frameId row.runScopeId
      return phases.any fun (senderId, state) =>
        !(state = .held && (senders.find? (·.id = senderId)).any fun n =>
          coMembers.contains n.nodeType)

/-- `bagsEqual`; a prior run without a dispatch bag is resolved on demand. -/
def bagsEqual (prior : NodeRun) (bag : Bag) : Tx Bool := do
  match ← read (·.dispatchInputBag? prior.id) with
  | some priorBag => return priorBag.same bag
  | none =>
    let carry ← loadReceiverCarryForward prior
    match ← buildResolvedBagAtGateEval args prior carry with
    | .ok priorBag => return priorBag.same bag
    | .error e => fail (.other e.text)

def modeDropIfPriorEqual (row : NodeRun) (bag : Bag) (includeSettled : Bool) : Tx Bool := do
  match ← Nodes.getPriorCascadeQueuedNotClaimed row.nodeId row.runScopeId row.sequence with
  | some prior => bagsEqual args prior bag
  | none =>
    if !includeSettled then return false
    else
      match ← Nodes.getMostRecentSettledRun row.nodeId row.runScopeId row.sequence with
      | none => return false
      | some prior => bagsEqual args prior bag

/-- `applyCascadeModeRule`: whether the pending run is dropped. -/
def applyCascadeModeRule (row : NodeRun) (bag : Bag) (mode : CascadeMode) : Tx Bool := do
  match mode with
  | .mostRecent =>
    if ← Nodes.hasLaterCascadePending row.nodeId row.runScopeId row.sequence then return true
    else
      Nodes.deletePriorCascadeStales row.nodeId row.runScopeId row.sequence
      return false
  | .sequenced => return false
  | .idempotentQueue => modeDropIfPriorEqual args row bag false
  | .idempotentSettled => modeDropIfPriorEqual args row bag true

/-- `routeSubstitutionFailureAtGate`; what the policy leaves for after the commit is dropped. -/
def routeSubstitutionFailureAtGate (row : NodeRun) (error : SubstitutionError) : Tx Unit := do
  match ← read (·.node? row.nodeId) with
  | none => return ()
  | some node =>
    let spec ← loadTemplateSpec node.instanceId
    Nodes.transitionPendingToStale row.id (← read (·.clock))
    let acq : Acquisition := {
      nodeRunId := row.id, nodeId := row.nodeId, instanceId := node.instanceId
      nodeType := node.nodeType, executor := node.executor, runScopeId := row.runScopeId
      frameId := row.frameId, nodeDef := spec.lookupNodeDef node.nodeType }
    let _ ← applyErrorPolicy args rec acq {
      errorClass := "template_resolution_failed", payload := some [("error", .str error.text)] }

/-- The end of the gate: the resolved bag is stored and the run becomes stale. -/
def clearGate (row : NodeRun) (resolved : Bag) : Tx Unit := do
  NodeAttributes.upsert row.id row.nodeId resolved
  NodeAttributes.setDispatchInputBag row.id row.nodeId resolved
  Nodes.transitionPendingToStale row.id (← read (·.clock))

def passGate (row : NodeRun) (resolved : Bag) : Tx Unit := do
  let mode := ((← read (·.node? row.nodeId)).map (·.cascadeMode)).getD .mostRecent
  if ← applyCascadeModeRule args row resolved mode then Nodes.dropPendingRun row.id
  else if ← Nodes.hasAdvancedSiblingInScope row.nodeId row.runScopeId row.id then return ()
  else clearGate row resolved

def evaluateOneGateBody (receiverNodeRunId : Id) : Tx Unit := do
  match ← read (·.run? receiverNodeRunId) with
  | none => return ()
  | some row =>
    if row.state ≠ .pending then return ()
    else if ← WaitSet.hasUndrainedRowsForReceiver row.frameId row.id then return ()
    else if ← anySubscribedUpstreamInFlight row then return ()
    else
      let carryForward ← loadReceiverCarryForward row
      match ← buildResolvedBagAtGateEval args row carryForward with
      | .ok resolved => passGate args row resolved
      | .error error =>
        if error.isMissingSource then routeSubstitutionFailureAtGate args rec row error
        else fail (.other error.text)

end Gate

/-- The callbacks of a computation that may nest `fuel` deep. -/
def knot (args : RunArgs) : Nat → Rec
  | 0 => { evaluateOneGate := fun _ => fail .outOfFuel
           resolveClaimHandleTerminal := fun _ => fail .outOfFuel }
  | fuel + 1 => { evaluateOneGate := evaluateOneGateBody args (knot args fuel)
                  resolveClaimHandleTerminal :=
                    resolveClaimHandleTerminalBody args (knot args fuel) }

end Rimsky
