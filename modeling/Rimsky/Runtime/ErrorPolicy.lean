import Rimsky.Runtime.Claims

/-!
# Error policies

`graph/node/policy.go` and `runtime/runner_error_policy.go`: the policy of an error class
decides whether the run is retried in place, released and queued again, passed as a
success, or given up.
-/

namespace Rimsky

open Transaction

def evaluatePolicy (policy : Option ErrorTypePolicy) (retryCounter maxRetries : Nat) :
    ActionKind × Nat :=
  match policy.map ErrorTypePolicy.action with
  | some .retry =>
    if 0 < maxRetries ∧ maxRetries ≤ retryCounter then (.giveUp, retryCounter)
    else (.retry, retryCounter + 1)
  | some .releaseAndRequeue => (.releaseAndRequeue, retryCounter)
  | some .pass => (.pass, retryCounter)
  | some .giveUp | some .unknown | none => (.giveUp, retryCounter)

def lookupPolicyForNode (nodeDef : Option TemplateNodeDef) (primary fallback : String) :
    Option ErrorTypePolicy :=
  nodeDef.bind fun def_ =>
    (List.lookup primary def_.errorTypes).or
      (if fallback ≠ "" ∧ fallback ≠ primary then List.lookup fallback def_.errorTypes else none)

def errorPolicySignal (errorClass : String) (payload : Option Bag) (attributesDelta : Bag)
    (tags : List String) (kind : ActionKind) (retriesSoFar retryCap : Nat) : Signal :=
  match kind with
  | .retry =>
    { type := "transient/retry/" ++ toString retriesSoFar ++ "/" ++ errorClass
      payload := .transientRetry retriesSoFar retryCap errorClass (payload.map Bag.canonical) }
  | .releaseAndRequeue =>
    { type := "transient/release_and_requeue/" ++ errorClass
      payload := .transientReleaseAndRequeue errorClass (payload.map Bag.canonical) }
  | _ => buildTerminalErrorSignal errorClass payload retriesSoFar retriesSoFar attributesDelta tags

def Acquisition.maxRetries (acq : Acquisition) : Nat := (acq.nodeDef.bind (·.maxRetries)).getD 0

def Acquisition.sender (acq : Acquisition) : Sender where
  nodeId := acq.nodeId
  nodeType := acq.nodeType
  nodeRunId := acq.nodeRunId
  instanceId := acq.instanceId
  frameId := acq.frameId

def Acquisition.isSubgraphExit (acq : Acquisition) : Bool := acq.nodeDef.any (·.isSubgraphExit)

/-- `fanoutRecalculate`, which only a fan-out node leaves to be done. -/
def Acquisition.recalculate (acq : Acquisition) : List PostCommit :=
  if acq.nodeDef.any (·.fanOut.isSome) then
    [.recalculate acq.nodeId acq.instanceId acq.nodeType] else []

def applyTerminalScratch (acq : Acquisition) (scratch : Option String) : Tx Unit := do
  match scratch with
  | none => return ()
  | some text =>
    if text = "" || acq.isSubgraphExit then return ()
    else
      Queue.writeScratch acq.nodeRunId (some text)
      Queue.bumpLastProgressAt acq.nodeRunId

def deleteAbandonedClaimHandles (nodeRunId : Id) : Tx Unit := do
  let rows ← ClaimHandles.listByNodeRun nodeRunId
  (rows.filter fun row => row.state = .abandoned && !row.isHeld).forM fun row =>
    ClaimHandles.deleteResolved row.id

section Policy

variable (args : RunArgs) (rec : Rec)

structure PolicyError where
  errorClass : String
  fallbackClass : String := ""
  payload : Option Bag := none
  tags : List String := []
  attributesDel : Bag := []
  scratch : Option String := none

/-- The retry branch: the run stays as it is and its dispatch is stamped. -/
def policyRetry (acq : Acquisition) (decision : PolicyDecision) : Tx Settlement := do
  emitSignalOnce args rec acq.sender decision.signal
  Queue.stampPriorDispatch acq.nodeRunId acq.nodeRunId "retry_after_error"
  return { retryDecision := some decision }

/-- The release-and-requeue branch: the run itself is released after the commit. -/
def policyReleaseAndRequeue (acq : Acquisition) (decision : PolicyDecision) : Tx Settlement := do
  emitSignalOnce args rec acq.sender decision.signal
  let released ← releaseLocks args rec acq false
  deleteAbandonedClaimHandles acq.nodeRunId
  return { retryDecision := some decision
           post := released ++ [.requeue acq.nodeRunId args.supervisorId] }

def applyErrorPolicyGiveUpHeld (acq : Acquisition) (sig : Signal) : Tx (List PostCommit) := do
  Nodes.updateState acq.nodeRunId .held .handlerHeld (some sig.type)
  Queue.removeForNode acq.nodeId acq.runScopeId args.supervisorId
  let spec ← loadTemplateSpec acq.instanceId
  let members := subgraphMemberFilter spec acq.nodeType
  let visited ← emitSignalWithFilter args rec acq.sender sig [] members
  let _ ← emitAttributeChangesForRun args rec acq.sender visited members
  drainWaitSetOnSettled rec acq.frameId acq.nodeRunId
  let transition ← transitionHolderIfFullyResolved args rec acq.nodeRunId
  return transition ++ acq.recalculate

/-- Move the run of a passed or given-up error; a run in another state stays as it is. -/
def policyTransition (acq : Acquisition) (kind : ActionKind) (settlingSig : String) : Tx Bool := do
  let state := (← read (·.run? acq.nodeRunId)).map NodeRun.state
  if kind = .pass then
    match state with
    | some .running =>
      Nodes.updateState acq.nodeRunId .fresh .handlerPass (some settlingSig)
      recordRunTreeChanged acq.nodeRunId .fresh settlingSig false
      return true
    | some .stale =>
      Nodes.updateState acq.nodeRunId .fresh .acquirePass (some settlingSig)
      recordRunTreeChanged acq.nodeRunId .fresh settlingSig false
      return true
    | _ => return false
  else if state = some .running || state = some .stale then
    Nodes.updateState acq.nodeRunId .failed .policyGiveUp (some settlingSig)
    return true
  else return false

def announceSettled (acq : Acquisition) (sig : Signal) : Tx Unit := do
  emitSignalOnce args rec acq.sender sig
  let _ ← emitAttributeChangesForRun args rec acq.sender [] fun _ => true
  drainWaitSetOnSettled rec acq.frameId acq.nodeRunId
  Queue.removeForNode acq.nodeId acq.runScopeId args.supervisorId

/-- The branch of `pass` and `give_up`. -/
def policySettle (acq : Acquisition) (decision : PolicyDecision) : Tx Settlement := do
  let heldBefore ← read (·.hasActiveHeldClaims acq.nodeRunId)
  let released ← releaseLocks args rec acq (decision.kind = .pass)
  let state := (← read (·.run? acq.nodeRunId)).map (·.state)
  let giveUpInFlight := decision.kind = .giveUp && (state = some .running || state = some .stale)
  if giveUpInFlight && heldBefore then
    let post ← applyErrorPolicyGiveUpHeld args rec acq decision.signal
    return { retryDecision := some decision, post := released ++ post }
  else
    let transitioned ← policyTransition acq decision.kind decision.signal.type
    announceSettled args rec acq decision.signal
    return { retryDecision := some decision
             post := released ++ if transitioned then [.propagate acq.nodeRunId] else [] }

def applyErrorPolicyWithSettleHook (acq : Acquisition) (error : PolicyError)
    (onSettle : Tx Unit) : Tx Settlement := do
  applyTerminalScratch acq error.scratch
  let policy := lookupPolicyForNode acq.nodeDef error.errorClass error.fallbackClass
  let counter ← Nodes.getRunEvaluatorState acq.nodeRunId
  let (kind, counter) := evaluatePolicy policy counter acq.maxRetries
  Nodes.updateRunEvaluatorState acq.nodeRunId counter
  let decision : PolicyDecision := {
    kind, signal := errorPolicySignal error.errorClass error.payload error.attributesDel
      error.tags kind counter acq.maxRetries }
  if kind = .retry then policyRetry args rec acq decision
  else if kind = .releaseAndRequeue then policyReleaseAndRequeue args rec acq decision
  else
    onSettle
    policySettle args rec acq decision

def applyErrorPolicy (acq : Acquisition) (error : PolicyError) : Tx Settlement :=
  applyErrorPolicyWithSettleHook args rec acq error (pure ())

def defaultInfraRetryCap : Nat := 10

def applyInfraGiveUp (acq : Acquisition) (errorClass : String) (payload : Option Bag)
    (retriesSoFar : Nat) : Tx Settlement := do
  let released ← releaseLocks args rec acq false
  let sig := buildTerminalErrorSignal errorClass payload retriesSoFar retriesSoFar [] []
  let transitioned ← policyTransition acq .giveUp sig.type
  announceSettled args rec acq sig
  return { retryDecision := some { kind := .giveUp, signal := sig }
           post := released ++ if transitioned then [.propagate acq.nodeRunId] else [] }

/-- `applyTerminalInfraError`: infrastructure errors are retried up to a cap of their own. -/
def applyTerminalInfraError (acq : Acquisition) (errorClass : String) (payload : Option Bag)
    (scratch : Option String) : Tx Settlement := do
  applyTerminalScratch acq scratch
  let counter ← Nodes.getRunEvaluatorState acq.nodeRunId
  let cap := if acq.maxRetries = 0 then defaultInfraRetryCap else acq.maxRetries
  if cap ≤ counter then applyInfraGiveUp args rec acq errorClass payload counter
  else
    Nodes.updateRunEvaluatorState acq.nodeRunId (counter + 1)
    policyRetry args rec acq {
      kind := .retry
      signal := { type := "transient/infra/" ++ errorClass
                  payload := .transientInfra errorClass (payload.map Bag.canonical) } }

end Policy

end Rimsky
