import Rimsky.Runtime.Delegation

/-!
# Applying a terminal

`runtime/runner_terminal.go`, `runtime/runner_terminal_handlers.go` and
`runtime/runner_terminal_park.go`: what one transaction does with the terminal an executor
returned. A success is held while the run still holds claims that are not resolved.
-/

namespace Rimsky

open Transaction

section Terminal

variable (args : RunArgs) (rec : Rec) (acq : Acquisition) (t : TerminalEvent)

def validateCommitWriteback (schema : Option AttributeSchema) (merged : Bag) : Option String :=
  schema.bind fun schema => args.validate schema merged

def TerminalEvent.successSignal : Signal :=
  buildTerminalSuccessSignal t.changed t.attributesDel t.changeSummary t.tags

/-- A success of a run that holds claims: only members of its sub-graphs are told. -/
def announceHeld : Tx Unit := do
  Nodes.updateState acq.nodeRunId .held .handlerHeld (some "terminal/success")
  Queue.removeForNode acq.nodeId acq.runScopeId args.supervisorId
  let spec ← loadTemplateSpec acq.instanceId
  let members := subgraphMemberFilter spec acq.nodeType
  let visited ← emitSignalWithFilter args rec acq.sender t.successSignal [] members
  let _ ← emitAttributeChangesForRun args rec acq.sender visited members
  drainWaitSetOnSettled rec acq.frameId acq.nodeRunId

def completeHeld (before : List PostCommit) :
    Tx Settlement := do
  announceHeld args rec acq t
  let transition ← transitionHolderIfFullyResolved args rec acq.nodeRunId
  return { post := before ++ transition ++ acq.recalculate }

def applyTerminalCompletePoisoned : Tx Settlement := do
  Nodes.updateState acq.nodeRunId .failed .autoTerminalAbandon (some "terminal/error/abandoned")
  Queue.removeForNode acq.nodeId acq.runScopeId args.supervisorId
  let spec ← loadTemplateSpec acq.instanceId
  let others := subgraphNonMemberFilter spec acq.nodeType
  let visited ← emitSignalWithFilter args rec acq.sender
    (buildTerminalErrorSignal "abandoned" none 0 0 t.attributesDel t.tags) [] others
  let _ ← emitAttributeChangesForRun args rec acq.sender visited others
  drainWaitSetOnSettled rec acq.frameId acq.nodeRunId
  return { post := [.propagate acq.nodeRunId] }

/-- Settle a success and tell it to all subscribers; returns the nodes visited. -/
def tellSuccess : Tx (List Id) := do
  Nodes.updateState acq.nodeRunId .fresh .handlerComplete (some "terminal/success")
  recordRunTreeChanged acq.nodeRunId .fresh "terminal/success" t.changed
  Queue.removeForNode acq.nodeId acq.runScopeId args.supervisorId
  emitSignalWithFilter args rec acq.sender t.successSignal [] fun _ => true

def completeFresh (before : List PostCommit) :
    Tx Settlement := do
  let visited ← tellSuccess args rec acq t
  let _ ← emitAttributeChangesForRun args rec acq.sender visited fun _ => true
  drainWaitSetOnSettled rec acq.frameId acq.nodeRunId
  return { post := before ++ acq.recalculate ++ [.propagate acq.nodeRunId] }

def completeSettle (heldBeforeRelease : Bool) (before : List PostCommit) : Tx Settlement := do
  if heldBeforeRelease then completeHeld args rec acq t before
  else if ← read (·.poisoned acq.nodeRunId) then applyTerminalCompletePoisoned args rec acq t
  else completeFresh args rec acq t before

def completeLeaf (merged : Bag) (t : TerminalEvent) : Tx Settlement := do
  let exitPost ← if acq.isSubgraphExit then
    settleFromDelegate args rec acq.nodeRunId acq.instanceId merged else pure []
  let heldBeforeRelease ← read (·.hasActiveHeldClaims acq.nodeRunId)
  let released ← releaseLocks args rec acq true
  if !acq.isSubgraphExit then upsertFinalAttributes acq merged
  applyTerminalScratch acq t.scratch
  completeSettle args rec acq t heldBeforeRelease (exitPost ++ released)

def applyTerminalComplete (resolvedAttrs : Bag) (schema : Option AttributeSchema)
    (t : TerminalEvent) : Tx Settlement := do
  let merged := mergeAttributesDelta resolvedAttrs t.attributesDel
  let invalid := if t.attributesDel.isEmpty then none else
    validateCommitWriteback args schema merged
  match invalid with
  | some text =>
    applyErrorPolicy args rec acq {
      errorClass := "attributes_schema_failed", payload := some [("error", .str text)]
      tags := t.tags, attributesDel := t.attributesDel, scratch := t.scratch }
  | none =>
    if acq.nodeDef.any (·.isSubgraphEntryAbsorbed) then
      applyTerminalCompleteSubgraphCaller args rec acq merged t
    else completeLeaf args rec acq merged t

/-- `applyTerminalError`: a delta that fits the schema is kept when the error settles. -/
def applyTerminalError (resolvedAttrs : Bag) (schema : Option AttributeSchema) (t : TerminalEvent) :
    Tx Settlement :=
  let merged := mergeAttributesDelta resolvedAttrs t.attributesDel
  applyErrorPolicyWithSettleHook args rec acq {
      errorClass := t.errorClass, payload := t.payload, tags := t.tags
      attributesDel := t.attributesDel, scratch := t.scratch }
    (if t.attributesDel.isEmpty || (validateCommitWriteback args schema merged).isSome then pure ()
      else upsertFinalAttributes acq merged)

def applyTerminalPark : Tx Settlement := do
  let now ← read (·.clock)
  Queue.parkActive acq.nodeRunId args.supervisorId now t.parkResumeAt
  applyTerminalScratch acq t.scratch
  Nodes.updateState acq.nodeRunId .parked .handlerPark (some "transient/park")
  return { post := [.propagate acq.nodeRunId] }

def applyTerminal (resolvedAttrs : Bag) (schema : Option AttributeSchema) (t : TerminalEvent) :
    Tx Settlement :=
  match t.kind with
  | .complete => applyTerminalComplete args rec acq resolvedAttrs schema t
  | .errored => applyTerminalError args rec acq resolvedAttrs schema t
  | .infra => applyTerminalInfraError args rec acq t.errorClass t.payload t.scratch
  | .park => applyTerminalPark args acq t

end Terminal

end Rimsky
