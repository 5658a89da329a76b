import Rimsky.Persistence.Runs

/-!
# Messages and frames

`sqlite/messages.go` and `sqlite/frames.go`.
-/

namespace Rimsky

open Transaction

def Message.isPending (m : Message) : Bool := m.deliveredAt.isNone && !m.cancelled

def Store.frameInFlight (s : Store) (frameId : Id) : Bool :=
  s.runs.any fun r => r.frameId = frameId && r.state.isInFlight

namespace Messages

def insert (message : Message) : Tx Unit := do
  let s ← read id
  if (s.message? message.id).isSome then fail (.uniqueViolation "rimsky_messages")
  else if (s.instance? message.instanceId).isNone then fail (.other "FOREIGN KEY constraint failed")
  else write fun s => { s with messages := s.messages ++ [message] }

def markDelivered (id frameId : Id) (deliveredAt : Nat) : Tx Bool := do
  let fits := fun m : Message => m.id = id && m.isPending
  let s ← read fun s => s
  write fun s => { s with
    messages := s.messages.map fun m =>
      if fits m then { m with deliveredAt := some deliveredAt, frameId := some frameId } else m }
  return (s.messages.filter fits).length = 1

def cancelPendingForInstance (instanceId : Id) : Tx Unit :=
  write fun s => { s with
    messages := s.messages.map fun m =>
      if m.instanceId = instanceId && m.isPending then { m with cancelled := true } else m }

/-- `PickPendingMessagesForIdleInstances`: the oldest pending message of each idle instance. -/
def pickPendingMessagesForIdleInstances : Tx (List (Id × Id)) :=
  read fun s => (s.instances.filter fun inst =>
      inst.terminatedAt.isNone && !inst.paused &&
        !s.frames.any (fun f => f.instanceId = inst.id && f.endedAt.isNone)).filterMap fun inst =>
    ((s.messages.filter fun m => m.instanceId = inst.id && m.isPending).insertionSort
      fun m m' => m.receivedAt < m'.receivedAt ∨
        m.receivedAt = m'.receivedAt ∧ m.id ≤ m'.id).head?.map fun m => (inst.id, m.id)

end Messages

namespace Frames

def listRunningFramesNoPendingNodes : Tx (List Frame) :=
  read fun s => s.frames.filter fun f => f.endedAt.isNone && !s.frameInFlight f.frameId

/-- The update both ways of ending a frame come down to. -/
def endWhere (fits : Store → Frame → Bool) : Tx Bool := do
  let s ← read fun s => s
  write fun s => { s with
    frames := s.frames.map fun f =>
      if fits s f && f.endedAt.isNone then { f with endedAt := some s.clock } else f }
  return s.frames.any fun f => fits s f && f.endedAt.isNone

def endFrameIfSettled (frameId : Id) : Tx Bool :=
  endWhere fun s f => f.frameId = frameId && !s.frameInFlight frameId

def markOpenFramesEndedForInstance (instanceId : Id) : Tx Unit := do
  let _ ← endWhere fun _ f => f.instanceId = instanceId

/-- `InsertRunningFrame`: one open frame per instance, and the trigger is a foreign key. -/
def insertRunningFrame (instanceId triggeringMessageId rootRunScopeId : Id) : Tx Id := do
  let frameId ← newId
  let s ← read id
  if s.frames.any fun f => f.instanceId = instanceId && f.endedAt.isNone then
    fail (.uniqueViolation "rimsky_frames")
  else if (s.message? triggeringMessageId).isNone then
    fail (.other "FOREIGN KEY constraint failed")
  else
    write fun s => { s with
      frames := s.frames ++
        [{ frameId, instanceId, triggeringMessageId, rootRunScopeId, startedAt := s.clock }] }
    return frameId

/-- `ListOrphanFrameDispatches`: claimed runs of ended frames. -/
def listOrphanFrameDispatches : Tx (List NodeRun) :=
  read fun s => s.runs.filter fun r =>
    r.claimedBy.isSome && (s.frame? r.frameId).any (·.endedAt.isSome)

end Frames

end Rimsky
