import Rimsky.Persistence.Store

/-!
# Claim handles, claim holders and the producer-verb outbox

`sqlite/claim_handles.go`, `sqlite/claim_holders.go` and `sqlite/producer_verb_outbox.go`.
Every statement that changes a handle is guarded by the supervisor that holds it.
-/

namespace Rimsky

open Transaction

def Store.handlesByClaimedAt (s : Store) (fits : ClaimHandle → Bool) : List ClaimHandle :=
  (s.claimHandles.filter fits).insertionSort fun h h' => h.claimedAt ≤ h'.claimedAt

/-- Delete handles, with what the foreign keys delete or clear along. -/
def Store.deleteHandles (s : Store) (gone : ClaimHandle → Bool) : Store :=
  let ids := (s.claimHandles.filter gone).map (·.id)
  { s with
    claimHandles := (s.claimHandles.filter fun h => !gone h).map fun h =>
      if h.parentClaimHandleId.any ids.contains then { h with parentClaimHandleId := none } else h
    claimHolders := s.claimHolders.filter fun holder => !ids.contains holder.claimHandleId }

namespace ClaimHandles

def insert (handle : ClaimHandle) : Tx Unit :=
  write fun s => { s with claimHandles := s.claimHandles ++ [handle] }

/-- `UPDATE rimsky_claim_handles … WHERE id = ? AND …`, which must affect a row. -/
def update (id : Id) (guard : ClaimHandle → Bool) (change : Nat → ClaimHandle → ClaimHandle) :
    Tx Unit := do
  if (← read (·.claimHandles)).any (fun h => h.id = id && guard h) then
    write fun s => { s with
      claimHandles := s.claimHandles.map fun h =>
        if h.id = id && guard h then change s.clock h else h }
  else fail .illegalClaimHandleTransition

def claimant (supervisorId : String) (h : ClaimHandle) : Bool :=
  h.holderSupervisorId = some supervisorId

def updateRealizedWriteSemantics (id : Id) (supervisorId ws : String) : Tx Unit :=
  update id (claimant supervisorId) fun _ h => { h with realizedWriteSemantics := ws }

def updateAddress (id : Id) (supervisorId : String) (address : Option RawMessage) : Tx Unit :=
  update id (claimant supervisorId) fun _ h => { h with address }

def updatePayload (id : Id) (supervisorId : String) (payload : Option Json) : Tx Unit :=
  update id (claimant supervisorId) fun _ h => { h with payload }

def updateClaimScope (id : Id) (supervisorId : String) (scope : Option RawMessage) : Tx Unit :=
  update id (claimant supervisorId) fun _ h => { h with claimScopeData := scope }

def updateNodeRunId (id nodeRunId : Id) (supervisorId : String) : Tx Unit :=
  update id (fun h => h.state = .active && claimant supervisorId h) fun _ h =>
    { h with nodeRunId := some nodeRunId }

def reassignHolderSupervisor (id : Id) (fromSupervisorId toSupervisorId : String) : Tx Unit := do
  if toSupervisorId = "" then
    fail (.other "claimhandles.ReassignHolderSupervisor: empty toSupervisorID")
  else update id (fun h => h.state = .active && claimant fromSupervisorId h) fun _ h =>
    { h with holderSupervisorId := some toSupervisorId }

def listByNodeRun (nodeRunId : Id) : Tx (List ClaimHandle) :=
  read (·.handlesByClaimedAt fun h => h.nodeRunId = some nodeRunId)

def listChildClaimHandles (parentId : Id) : Tx (List ClaimHandle) :=
  read fun s => s.claimHandles.filter fun h => h.parentClaimHandleId = some parentId

def promote (id : Id) (supervisorId : String) (newState : ClaimHandleState) : Tx Unit :=
  update id (fun h => h.state = .active && claimant supervisorId h) fun now h =>
    { h with state := newState, holderSupervisorId := none, resolvedAt := some now }

def setAggregationPolicy (id : Id) (supervisorId : String) (policy : Option AggregationPolicy) :
    Tx Unit :=
  update id (claimant supervisorId) fun _ h => { h with aggregationPolicy := policy }

def bumpExpectedChildrenCount (id : Id) (supervisorId : String) (delta : Nat) : Tx Unit :=
  update id (claimant supervisorId) fun _ h =>
    { h with expectedChildrenCount := h.expectedChildrenCount + delta }

/-- `BumpChildOutcomeCount` with the outcome `commit` or `abandon`. -/
def bumpChildOutcomeCount (id : Id) (supervisorId : String) (committed : Bool) (delta : Nat) :
    Tx Unit :=
  update id (claimant supervisorId) fun _ h =>
    if committed then { h with committedChildrenCount := h.committedChildrenCount + delta }
    else { h with abandonedChildrenCount := h.abandonedChildrenCount + delta }

def renewExpiryForHolderRun (nodeRunId : Id) (newExpiry : Nat) : Tx Unit :=
  write fun s => { s with
    claimHandles := s.claimHandles.map fun h =>
      if h.nodeRunId = some nodeRunId && h.state = .active then { h with expiresAt := newExpiry }
      else h }

def delete (id : Id) (expectedSupervisorId : String) : Tx Unit := do
  let gone := fun h : ClaimHandle => h.id = id && claimant expectedSupervisorId h
  if (← read (·.claimHandles)).any gone then write fun s => s.deleteHandles gone
  else fail .illegalClaimHandleTransition

def deleteResolved (id : Id) : Tx Unit := do
  let gone := fun h : ClaimHandle =>
    h.id = id && h.state ≠ .active && h.holderSupervisorId.isNone
  if (← read (·.claimHandles)).any gone then write fun s => s.deleteHandles gone
  else fail .illegalClaimHandleTransition

def countByNamedLock (lockName : String) : Tx Nat :=
  read fun s => (s.claimHandles.filter fun h =>
    h.lockKind = .named && h.lockName = some lockName && h.state = .active).length

def listByProducerClaimScope (producerName : String) : Tx (List ClaimHandle) :=
  read (·.handlesByClaimedAt fun h =>
    h.lockKind = .claimScope && h.producerName = some producerName &&
      (h.state = .active || (h.state = .committed && h.lifetime = .durable)))

end ClaimHandles

namespace ClaimHolders

def insert (claimHandleId holderRunId : Id) : Tx Unit := do
  let id ← newId
  write fun s =>
    if s.claimHolders.any fun h => h.claimHandleId = claimHandleId && h.holderRunId = holderRunId
    then s
    else { s with claimHolders := s.claimHolders ++ [{ id, claimHandleId, holderRunId }] }

def listByClaimHandleId (claimHandleId : Id) : Tx (List ClaimHolder) :=
  read fun s => s.claimHolders.filter fun h => h.claimHandleId = claimHandleId

def listByHolderRun (holderNodeRunId : Id) : Tx (List ClaimHolder) :=
  read fun s => s.claimHolders.filter fun h => h.holderRunId = holderNodeRunId

def completeWhere (fits : ClaimHolder → Bool) (state : ClaimHolderState) : Tx Unit := do
  if (← read (·.claimHolders)).any (fun h => fits h && h.state = .active) then
    write fun s => { s with
      claimHolders := s.claimHolders.map fun h =>
        if fits h && h.state = .active then { h with state } else h }
  else fail .claimHolderNotActive

def completeByClaimHandleAndRun (claimHandleId holderNodeRunId : Id) (state : ClaimHolderState) :
    Tx Unit :=
  completeWhere (fun h => h.claimHandleId = claimHandleId && h.holderRunId = holderNodeRunId) state

def failAllActiveByClaimHandle (claimHandleId : Id) (supervisorId : String) : Tx Unit :=
  write fun s =>
    if (s.claimHandle? claimHandleId).any (ClaimHandles.claimant supervisorId) then
      { s with claimHolders := s.claimHolders.map fun h =>
          if h.claimHandleId = claimHandleId && h.state = .active then { h with state := .failed }
          else h }
    else s

end ClaimHolders

namespace ProducerVerbOutbox

/-- `Enqueue`; a verb already queued for the handle is ignored. -/
def enqueue (row : OutboxRow) : Tx Unit := do
  let seq ← newId
  write fun s =>
    if s.outbox.any fun o => o.claimHandleId = row.claimHandleId && o.verb = row.verb then s
    else { s with outbox := s.outbox ++ [{ row with seq }] }

end ProducerVerbOutbox

theorem Store.mem_of_claimHandle? {s : Store} {h : ClaimHandle} {id : Id}
    (found : s.claimHandle? id = some h) : h ∈ s.claimHandles :=
  List.mem_of_find?_eq_some found

theorem Store.id_of_claimHandle? {s : Store} {h : ClaimHandle} {id : Id}
    (found : s.claimHandle? id = some h) : h.id = id := by
  simpa using List.find?_some found

end Rimsky
