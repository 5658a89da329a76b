import Rimsky.Persistence.Messages

/-!
# The frame engine

`graph/frame/engine.go`: one scheduler tick ends the frames in which nothing is in
flight any more, opens a frame for the oldest pending message of every idle instance and
releases the claims of runs whose frame has ended. Each list is read in a transaction of
its own, and each of its entries is then handled in another.
-/

namespace Rimsky

open Transaction

def closeSettledFrameScopeTree (rootRunScopeId : Id) : Tx Unit := do
  (← RunScopes.listTreeDeepestFirst rootRunScopeId).forM fun scope =>
    if scope.closedAt.isNone then RunScopes.close scope.id else pure ()

/-- `transitionFrameEnd`: a frame ends once its trigger is delivered and nothing is in flight. -/
def transitionFrameEnd (frameId : Id) : Tx Unit := do
  match ← read (·.frame? frameId) with
  | none =>
    let _ ← Frames.endFrameIfSettled frameId
  | some frame =>
    match ← read (·.message? frame.triggeringMessageId) with
    | none => return ()
    | some msg =>
      if msg.deliveredAt.isSome then
        if ← Frames.endFrameIfSettled frameId then
          closeSettledFrameScopeTree frame.rootRunScopeId

def openRunningFrameForMessage (instanceId triggeringMessageId : Id) : Tx Id := do
  let rootRunScopeId ← newId
  RunScopes.create { id := rootRunScopeId, graphName := mainGraphName, instanceId }
  Frames.insertRunningFrame instanceId triggeringMessageId rootRunScopeId

end Rimsky
