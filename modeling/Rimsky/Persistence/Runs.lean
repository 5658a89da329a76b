import Rimsky.Persistence.Attributes

/-!
# Node runs, run scopes and wait rows

The statements of `sqlite/nodes.go`, `sqlite/queue.go`, `sqlite/queue_park.go`,
`sqlite/run_tree.go`, `sqlite/run_scopes.go` and `sqlite/wait_set.go` that the runtime
issues. Every statement that writes run rows is checked against the two unique indexes
of the table; a violation fails the statement.
-/

namespace Rimsky

open Transaction List

/-! ## The table of runs -/

namespace NodeRun

/-- The row is in the partial index `uq_rimsky_node_runs_serialization_gate`. -/
def inSerializationGate (r : NodeRun) : Bool :=
  r.claimedBy.isSome || r.state = .held || r.state = .parked

def sameNodeAndScope (r r' : NodeRun) : Bool :=
  r.nodeId = r'.nodeId && r.runScopeId = r'.runScopeId

def conflicts (r r' : NodeRun) : Bool :=
  r.id ≠ r'.id &&
    (r.sameNodeAndScope r' && r.inSerializationGate && r'.inSerializationGate ||
      r.asyncAckId.isSome && r.asyncAckId = r'.asyncAckId)

end NodeRun

def uniqueRuns (runs : List NodeRun) : Bool :=
  runs.all fun r => runs.all fun r' => !r.conflicts r'

def putRuns (runs : List NodeRun) : Tx Unit := do
  if uniqueRuns runs then write fun s => { s with runs }
  else fail (.uniqueViolation "rimsky_node_runs")

/-- `UPDATE rimsky_node_runs SET … WHERE …`; returns the number of rows affected. -/
def updateRuns (guard : Store → NodeRun → Bool) (change : Nat → NodeRun → NodeRun) : Tx Nat := do
  let s ← read id
  putRuns (s.runs.map fun r => if guard s r then change s.clock r else r)
  return (s.runs.filter (guard s)).length

def Store.updatedRuns (s : Store) (guard : Store → NodeRun → Bool)
    (change : Nat → NodeRun → NodeRun) : List NodeRun :=
  s.runs.map fun r => if guard s r then change s.clock r else r

theorem updateRuns_eq (guard : Store → NodeRun → Bool) (change : Nat → NodeRun → NodeRun)
    (s : Store) :
    updateRuns guard change s =
      if uniqueRuns (s.updatedRuns guard change) then
        (.ok (s.runs.filter (guard s)).length, { s with runs := s.updatedRuns guard change })
      else (.error (.uniqueViolation "rimsky_node_runs"), s) := by
  change (putRuns (s.updatedRuns guard change) >>= fun _ => pure _) s = _
  unfold putRuns
  split <;> rfl

theorem updateRuns_store (guard : Store → NodeRun → Bool) (change : Nat → NodeRun → NodeRun)
    (s : Store) :
    (updateRuns guard change s).2 = s ∨
      (updateRuns guard change s).2 = { s with runs := s.updatedRuns guard change } := by
  rw [updateRuns_eq]
  split
  · exact .inr rfl
  · exact .inl rfl

theorem steps_updateRuns {R : Store → Store → Prop} [IsPreorder Store R]
    {guard : Store → NodeRun → Bool} {change : Nat → NodeRun → NodeRun}
    (updated : ∀ s, R s { s with runs := s.updatedRuns guard change }) :
    Steps R (updateRuns guard change) := by
  intro s
  rcases updateRuns_store guard change s with same | changed
  · rw [same]
    exact refl s
  · rw [changed]
    exact updated s

theorem updateRuns_of_no_row (guard : Store → NodeRun → Bool) (change : Nat → NodeRun → NodeRun)
    (s : Store) (noRow : ∀ r ∈ s.runs, guard s r = false) :
    updateRuns guard change s = (.ok 0, s) ∨
      updateRuns guard change s = (.error (.uniqueViolation "rimsky_node_runs"), s) := by
  have same : s.updatedRuns guard change = s.runs := by
    refine (map_congr_left fun r mem => ?_).trans (map_id _)
    simp [noRow r mem]
  have count : s.runs.filter (guard s) = [] := by simpa [filter_eq_nil_iff] using noRow
  rw [updateRuns_eq, same, count]
  split
  · exact .inl rfl
  · exact .inr rfl

def Store.nextSequence (s : Store) (nodeId runScopeId : Id) : Nat :=
  ((s.runs.filter fun r => r.nodeId = nodeId && r.runScopeId = runScopeId).map
    (·.sequence)).foldl max 0 + 1

theorem Store.lt_nextSequence {s : Store} {r : NodeRun} (mem : r ∈ s.runs) :
    r.sequence < s.nextSequence r.nodeId r.runScopeId := by
  have among : r.sequence ∈ (s.runs.filter fun q =>
      q.nodeId = r.nodeId && q.runScopeId = r.runScopeId).map (·.sequence) := by
    refine mem_map.mpr ⟨r, mem_filter.mpr ⟨mem, ?_⟩, rfl⟩
    simp
  refine Nat.lt_succ_of_le ?_
  generalize (s.runs.filter fun q => q.nodeId = r.nodeId && q.runScopeId = r.runScopeId).map
    (·.sequence) = numbers at among
  have most : ∀ (xs : List Nat) (start : Nat), start ≤ xs.foldl max start ∧
      ∀ x ∈ xs, x ≤ xs.foldl max start := by
    intro xs
    induction xs with
    | nil => simp
    | cons x xs ih =>
      intro start
      have rest := ih (max start x)
      simp only [foldl_cons, mem_cons, forall_eq_or_imp]
      exact ⟨by omega, by omega, rest.2⟩
  exact (most numbers 0).2 _ among

def Store.pendingRow (s : Store) (nodeId runScopeId frameId : Id) (executorName : String) :
    NodeRun where
  id := s.nextId
  nodeId := nodeId
  executorName := executorName
  enqueuedAt := s.clock
  state := .pending
  creationReason := .cascade
  sequence := s.nextSequence nodeId runScopeId
  frameId := frameId
  runScopeId := runScopeId

def Store.scopeOpen (s : Store) (runScopeId : Id) : Bool :=
  (s.runScope? runScopeId).any fun scope => scope.closedAt.isNone

/-- The runs that go with the given ones: those of the scopes they are parents of. -/
def Store.deletionClosure (s : Store) (ids : List Id) : Nat → List Id
  | 0 => ids
  | fuel + 1 =>
    let scopes := s.runScopes.filter fun scope => scope.parentNodeRunId.any ids.contains
    let more := s.runs.filter fun r =>
      scopes.any (fun scope => scope.id = r.runScopeId) && !ids.contains r.id
    if more.isEmpty then ids else s.deletionClosure (ids ++ more.map (·.id)) fuel

namespace Store

section Deletion

variable {s : Store} {ids : List Id}

theorem subset_deletionClosure (fuel : Nat) {id : Id} (mem : id ∈ ids) :
    id ∈ s.deletionClosure ids fuel := by
  induction fuel generalizing ids with
  | zero => exact mem
  | succ fuel ih =>
    unfold deletionClosure
    dsimp only
    split
    · exact mem
    · exact ih (mem_append_left _ mem)

end Deletion

end Store

/-- Delete run rows, with what the foreign keys delete or clear along. -/
def Store.deleteRuns (s : Store) (ids : List Id) : Store :=
  let gone := s.deletionClosure ids s.runs.length
  { s with
    runs := (s.runs.filter fun r => !gone.contains r.id).map fun r =>
      if r.priorDispatchId.any gone.contains then { r with priorDispatchId := none } else r
    runScopes := s.runScopes.filter fun scope => !scope.parentNodeRunId.any gone.contains
    attributes := s.attributes.filter fun a => !gone.contains a.nodeRunId
    waitSet := s.waitSet.filter fun w =>
      !gone.contains w.receiverRunId && !gone.contains w.senderRunId
    claimHolders := s.claimHolders.filter fun h => !gone.contains h.holderRunId
    claimHandles := s.claimHandles.map fun h =>
      if h.nodeRunId.any gone.contains then { h with nodeRunId := none } else h }

def Store.latestRun? (s : Store) (nodeId runScopeId : Id) (fits : NodeRun → Bool) :
    Option NodeRun :=
  (bySequence <| s.runs.filter fun r =>
    r.nodeId = nodeId && r.runScopeId = runScopeId && fits r).getLast?

/-- The row of a run to be inserted: everything a statement does not set has its default. -/
def insertRun (r : NodeRun) : Tx Unit := do putRuns ((← read (·.runs)) ++ [r])

def scopeError (runScopeId : Id) : Tx StoreError := do
  match ← read (·.runScope? runScopeId) with
  | none => return .other "run scope not found"
  | some scope => return if scope.closedAt.isSome then .runScopeClosed else .other "node not found"

theorem insertRun_store {α : Type} (r : NodeRun) (a : α) (s : Store) :
    ((insertRun r >>= fun _ => (pure a : Tx α)) s).2 = s ∨
      ((insertRun r >>= fun _ => (pure a : Tx α)) s).2 = { s with runs := s.runs ++ [r] } := by
  change ((putRuns (s.runs ++ [r]) >>= fun _ => (pure a : Tx α)) s).2 = s ∨
    ((putRuns (s.runs ++ [r]) >>= fun _ => (pure a : Tx α)) s).2 = _
  unfold putRuns
  split
  · exact .inr rfl
  · exact .inl rfl

theorem scopeError_fails {α : Type} (runScopeId : Id) (s : Store) :
    ((scopeError runScopeId >>= fun e => (fail e : Tx α)) s).2 = s := by
  have reads : Steps Eq (scopeError runScopeId) := by
    refine steps_reads fun scope => ?_
    cases scope <;> exact steps_pure _
  exact (steps_bind (R := Eq) reads (fun _ => steps_fail _) s).symm

/-- Another run of the node in the scope is claimed, held or parked. -/
def Store.serialized (s : Store) (r : NodeRun) : Bool :=
  s.runs.any fun other => other.sameNodeAndScope r && other.id ≠ r.id && other.inSerializationGate

def Store.children (s : Store) (parentNodeRunId : Id) : List NodeRun :=
  s.runs.filter fun r =>
    (s.runScope? r.runScopeId).any fun scope => scope.parentNodeRunId = some parentNodeRunId

def WaitRow.sameKey (w w' : WaitRow) : Bool :=
  w.frameId = w'.frameId && w.receiverRunId = w'.receiverRunId && w.senderRunId = w'.senderRunId &&
    w.topicKind = w'.topicKind

/-! ## `nodes.go` -/

namespace Nodes


/-- `UpdateState`: the reason must take the state of the row to the requested state. -/
def updateState (nodeRunId : Id) (state : NodeState) (reason : TransitionReason)
    (settlingSignalType : Option String) : Tx Unit := do
  let r ← need (.other "nodes.updateState: no node_run row") (← read (·.run? nodeRunId))
  if nextState r.state reason = some state then
    let _ ← updateRuns (fun _ r => r.id = nodeRunId) fun _ r =>
      { r with state, settlingSignalType := settlingSignalType.or r.settlingSignalType }
  else fail .illegalTransition

theorem updateState_cases (nodeRunId : Id) (state : NodeState) (reason : TransitionReason)
    (sig : Option String) (s : Store) :
    (∃ e, updateState nodeRunId state reason sig s = (.error e, s)) ∨
      (∃ row, s.run? nodeRunId = some row ∧ nextState row.state reason = some state) ∧
        updateState nodeRunId state reason sig s =
          (.ok (), { s with runs := s.runs.map fun r =>
            if r.id = nodeRunId then
              { r with state, settlingSignalType := sig.or r.settlingSignalType }
            else r }) := by
  unfold updateState
  rw [read_bind]
  cases found : s.run? nodeRunId with
  | none => exact .inl ⟨_, rfl⟩
  | some row =>
    rw [need_some, pure_bind]
    split
    case isFalse => exact .inl ⟨_, rfl⟩
    case isTrue allowed =>
      rw [bind_apply, updateRuns_eq]
      split
      case h_1 a mid run =>
        split at run
        · injection run with _ stored
          refine .inr ⟨⟨row, rfl, allowed⟩, ?_⟩
          rw [← stored]
          simp [Store.updatedRuns]
        · simp at run
      case h_2 e mid run =>
        split at run
        · simp at run
        · injection run with failed same
          exact .inl ⟨e, by rw [same]⟩

theorem updateState_eq_ok {nodeRunId : Id} {state : NodeState} {reason : TransitionReason}
    {sig : Option String} {s s' : Store}
    (moved : updateState nodeRunId state reason sig s = (.ok (), s')) :
    s' = { s with runs := s.runs.map fun r =>
      if r.id = nodeRunId then { r with state, settlingSignalType := sig.or r.settlingSignalType }
      else r } := by
  rcases updateState_cases nodeRunId state reason sig s with ⟨e, failed⟩ | ⟨_, done⟩
  · rw [moved] at failed
    cases failed
  · rw [moved] at done
    injection done

theorem updateState_of_allowed {nodeRunId : Id} {row : NodeRun} {state : NodeState}
    {reason : TransitionReason} {s : Store} (found : s.run? nodeRunId = some row)
    (allowed : nextState row.state reason = some state) (sig : Option String) :
    updateState nodeRunId state reason sig s =
        (.error (.uniqueViolation "rimsky_node_runs"), s) ∨
      ∃ s', updateState nodeRunId state reason sig s = (.ok (), s') := by
  unfold updateState
  rw [read_bind, found, need_some, pure_bind, if_pos allowed, bind_apply, updateRuns_eq]
  split
  case h_1 a mid run => exact .inr ⟨mid, rfl⟩
  case h_2 e mid run =>
    split at run
    · simp at run
    · injection run with failed same
      injection failed with failed
      exact .inl (by rw [← failed, same])

def updateRunEvaluatorState (runId : Id) (retryCounter : Nat) : Tx Unit := do
  let n ← updateRuns (fun _ r => r.id = runId) fun _ r => { r with retryCounter }
  if n = 0 then fail .notFound

/-- `GetRunEvaluatorState`; a missing row reads as the zero state. -/
def getRunEvaluatorState (runId : Id) : Tx Nat := do
  return ((← read (·.run? runId)).map (·.retryCounter)).getD 0

def hasAdvancedSiblingInScope (nodeId runScopeId excludingRunId : Id) : Tx Bool :=
  read fun s => s.runs.any fun r =>
    r.nodeId = nodeId && r.runScopeId = runScopeId && r.id ≠ excludingRunId &&
      [NodeState.stale, .running, .held, .parked].contains r.state

def listPendingSiblingRunsInScope (senderNodeRunId : Id) : Tx (List Id) :=
  read fun s =>
    match s.run? senderNodeRunId with
    | none => []
    | some sender => (bySequence <| s.runs.filter fun r =>
      r.sameNodeAndScope sender && r.id ≠ sender.id && r.state = .pending).map (·.id)

def hasLaterCascadePending (nodeId runScopeId : Id) (afterSeq : Nat) : Tx Bool :=
  read fun s => s.runs.any fun r =>
    r.nodeId = nodeId && r.runScopeId = runScopeId && afterSeq < r.sequence &&
      (r.state = .pending || r.state = .stale) && r.creationReason = .cascade &&
      r.claimedBy.isNone

def listPendingRunsInScopeForNodes (runScopeId : Id) (nodeIds : List Id) : Tx (List Id) :=
  read fun s => (bySequence <| s.runs.filter fun r =>
    r.runScopeId = runScopeId && r.state = .pending && nodeIds.contains r.nodeId).map (·.id)

def findLatestCascadePending (nodeId runScopeId frameId : Id) : Tx (Option NodeRun) :=
  read fun s => s.latestRun? nodeId runScopeId fun r =>
    r.frameId = frameId && r.state = .pending && r.creationReason = .cascade

def getPriorRunBySequence (nodeId runScopeId : Id) (beforeSeq : Nat) : Tx (Option NodeRun) :=
  read fun s => s.latestRun? nodeId runScopeId fun r => r.sequence < beforeSeq

def getPriorCascadeQueuedNotClaimed (nodeId runScopeId : Id) (beforeSeq : Nat) :
    Tx (Option NodeRun) :=
  read fun s => s.latestRun? nodeId runScopeId fun r =>
    r.sequence < beforeSeq && (r.state = .pending || r.state = .stale) &&
      r.creationReason = .cascade && r.claimedBy.isNone

def getMostRecentSettledRun (nodeId runScopeId : Id) (beforeSeq : Nat) : Tx (Option NodeRun) :=
  read fun s => s.latestRun? nodeId runScopeId fun r =>
    r.sequence < beforeSeq && r.state = .fresh

def createCascadePending (nodeId runScopeId frameId : Id) : Tx Id := do
  let newId ← newId
  let s ← read id
  match s.node? nodeId with
  | some node =>
    if s.scopeOpen runScopeId then
      insertRun {
        id := newId, nodeId, executorName := node.executor, enqueuedAt := s.clock
        state := .pending, creationReason := .cascade
        sequence := s.nextSequence nodeId runScopeId, frameId, runScopeId }
      return newId
    else fail (← scopeError runScopeId)
  | none => fail (← scopeError runScopeId)

theorem createCascadePending_row (nodeId runScopeId frameId : Id) (s : Store) :
    (createCascadePending nodeId runScopeId frameId s).2 = { s with nextId := s.nextId + 1 } ∨
      ∃ executorName, (createCascadePending nodeId runScopeId frameId s).2 =
        { s with nextId := s.nextId + 1
                 runs := s.runs ++ [s.pendingRow nodeId runScopeId frameId executorName] } := by
  unfold createCascadePending
  simp only [newId_bind, read_bind, id_eq]
  generalize next : ({ s with nextId := s.nextId + 1 } : Store) = mid
  cases mid.node? nodeId with
  | none => exact .inl (scopeError_fails _ _)
  | some node =>
    split
    · refine (insertRun_store _ _ _).imp id fun inserted => ?_
      exact ⟨node.executor, inserted.trans (by rw [← next]; rfl)⟩
    · exact .inl (scopeError_fails _ _)

theorem createCascadePending_store (nodeId runScopeId frameId : Id) (s : Store) :
    (createCascadePending nodeId runScopeId frameId s).2 = { s with nextId := s.nextId + 1 } ∨
      ∃ row : NodeRun, row.id = s.nextId ∧ row.nodeId = nodeId ∧ row.runScopeId = runScopeId ∧
        row.frameId = frameId ∧ row.state = .pending ∧ row.claimedBy = none ∧
        row.asyncAckId = none ∧
        (createCascadePending nodeId runScopeId frameId s).2 =
          { s with nextId := s.nextId + 1, runs := s.runs ++ [row] } := by
  refine (createCascadePending_row nodeId runScopeId frameId s).imp id ?_
  rintro ⟨executorName, inserted⟩
  exact ⟨_, rfl, rfl, rfl, rfl, rfl, rfl, rfl, inserted⟩

def deletePriorCascadeStales (nodeId runScopeId : Id) (beforeSeq : Nat) : Tx Unit :=
  write fun s => s.deleteRuns <| (s.runs.filter fun r =>
    r.nodeId = nodeId && r.runScopeId = runScopeId && r.sequence < beforeSeq &&
      r.state = .stale && r.creationReason = .cascade && r.claimedBy.isNone).map (·.id)

def dropPendingRun (runId : Id) : Tx Unit := do
  if (← read (·.run? runId)).any (·.state = .pending) then
    write fun s => s.deleteRuns [runId]
  else fail (.other "DropPendingRun: run not in pending state")

def transitionPendingToStale (runId : Id) (enqueuedAt : Nat) : Tx Unit := do
  let n ← updateRuns (fun _ r => r.id = runId && r.state = .pending) fun _ r =>
    { r with state := .stale, enqueuedAt }
  if n = 0 then fail (.other "TransitionPendingToStale: run not in pending state")

structure NonCascadeStaleInput where
  nodeId : Id
  runScopeId : Id
  frameId : Id
  executorName : String := ""
  requiredClaimProducers : List String := []
  enqueuedAt : Nat
  creationReason : CreationReason
  priorNodeRunId : Option Id := none
  priorDispatchDisposition : Option String := none
  initialScratch : Option String := none

def createNonCascadeStale (input : NonCascadeStaleInput) : Tx Id := do
  if input.frameId = 0 then fail (.other "CreateNonCascadeStale: frame_id required")
  else if input.runScopeId = 0 then fail (.other "CreateNonCascadeStale: run_scope_id required")
  else
    let newId ← newId
    let s ← read id
    if s.scopeOpen input.runScopeId then
      insertRun {
        id := newId, nodeId := input.nodeId, executorName := input.executorName
        requiredClaimProducers := input.requiredClaimProducers, enqueuedAt := input.enqueuedAt
        state := .stale, creationReason := input.creationReason
        sequence := s.nextSequence input.nodeId input.runScopeId, frameId := input.frameId
        runScopeId := input.runScopeId, priorDispatchId := input.priorNodeRunId
        priorDispatchDisposition := input.priorDispatchDisposition
        scratch := input.initialScratch }
      NodeAttributes.snapshotBagForNewRun newId input.nodeId input.runScopeId
      return newId
    else fail (← scopeError input.runScopeId)

end Nodes

/-! ## `queue.go` -/

namespace Queue


def listInFlightRunStates (nodeIds : List Id) (frameId runScopeId : Id) :
    Tx (List (Id × NodeState)) :=
  read fun s => (s.runs.filter fun r =>
    nodeIds.contains r.nodeId && r.frameId = frameId && r.runScopeId = runScopeId &&
      r.state.isInFlight).map fun r => (r.nodeId, r.state)

def claimDispatchRow (nodeRunId : Id) (supervisorId : String) : Tx Bool := do
  let n ← updateRuns
    (fun s r => r.id = nodeRunId && (r.claimedBy.isNone || r.claimedBy = some supervisorId) &&
      r.state = .stale && !s.serialized r)
    fun now r => { r with
      claimedBy := some supervisorId, claimedAt := some now, lastProgressAt := some now }
  return n = 1

def promoteClaimedToRunning (nodeRunId : Id) (supervisorId : String) : Tx Bool := do
  let n ← updateRuns
    (fun _ r => r.id = nodeRunId && r.claimedBy = some supervisorId && r.state = .stale)
    fun now r => { r with state := .running, lastProgressAt := some now }
  return n = 1

/-- `Complete`; it does not look at the state of the run. -/
def complete (nodeRunId : Id) (expectedClaimedBy : String) : Tx Unit := do
  let _ ← updateRuns (fun _ r => r.id = nodeRunId && r.claimedBy = some expectedClaimedBy)
    fun _ r => { r with claimedBy := none }

/-- `RemoveForNode`: clears the claim of every row of the node and scope. -/
def removeForNode (nodeId runScopeId : Id) (expectedClaimedBy : String) : Tx Unit := do
  let _ ← updateRuns
    (fun _ r => r.nodeId = nodeId && r.runScopeId = runScopeId &&
      r.claimedBy = some expectedClaimedBy)
    fun _ r => { r with claimedBy := none }

def forceRemoveForNode (nodeId runScopeId : Id) : Tx Unit := do
  let _ ← updateRuns
    (fun _ r => r.nodeId = nodeId && r.runScopeId = runScopeId && r.claimedBy.isSome)
    fun _ r => { r with claimedBy := none }

def releaseClaim (nodeRunId : Id) (expectedClaimedBy : String) : Tx Unit := do
  let _ ← updateRuns
    (fun _ r => r.id = nodeRunId && r.claimedBy = some expectedClaimedBy && !r.state.isTerminal)
    fun _ r => { r with claimedBy := none, claimedAt := none, state := .stale }

def releaseClaimWithDisposition (nodeRunId : Id) (expectedClaimedBy disposition : String) :
    Tx Unit := do
  let _ ← updateRuns
    (fun _ r => r.id = nodeRunId && r.claimedBy = some expectedClaimedBy && !r.state.isTerminal)
    fun _ r => { r with
      claimedBy := none, claimedAt := none, state := .stale, priorDispatchId := some r.id
      priorDispatchDisposition := some disposition }

def stampPriorDispatch (nodeRunId priorNodeRunId : Id) (disposition : String) : Tx Unit := do
  let n ← updateRuns (fun _ r => r.id = nodeRunId) fun _ r =>
    { r with priorDispatchId := some priorNodeRunId, priorDispatchDisposition := some disposition }
  if n = 0 then fail .notFound

def registerAsyncAck (runId : Id) (ackId : String) (maxQuietSec maxRuntimeSec : Option Nat)
    (expectedPrincipal callbackUrl : String) : Tx Unit := do
  if ackId = "" then fail (.other "sqlite.RegisterAsyncAck: ackID required")
  else
    let n ← updateRuns (fun _ r => r.id = runId) fun now r => { r with
      asyncAckId := some ackId, asyncAckRegisteredAt := some now, lastProgressAt := some now
      effectiveMaxQuietPeriodSeconds := maxQuietSec, effectiveMaxRuntimeSeconds := maxRuntimeSec
      asyncAckPrincipal := expectedPrincipal, asyncCallbackUrl := callbackUrl }
    if n = 0 then fail .notFound

def getInFlightRunForNode (nodeId runScopeId : Id) : Tx (Option Id) :=
  read fun s => ((bySequence <| s.runs.filter fun r =>
    r.nodeId = nodeId && r.runScopeId = runScopeId && r.state.isInFlight).head?).map (·.id)

/-- `ParkActive`: the claim is dropped; the caller moves the state. -/
def parkActive (nodeRunId : Id) (expectedClaimedBy : String) (parkedAt : Nat)
    (resumeAt : Option Nat) : Tx Unit := do
  if expectedClaimedBy = "" then fail (.other "sqlite.ParkActive: ExpectedClaimedBy required")
  else
    let n ← updateRuns
      (fun _ r => r.id = nodeRunId && r.claimedBy = some expectedClaimedBy && r.state = .running)
      fun _ r => { r with
        claimedBy := none, claimedAt := none, parkedAt := some parkedAt, resumeAt }
    if n ≠ 1 then fail .runClaimantMismatch

def getParkedByNode (nodeId runScopeId : Id) : Tx (Option NodeRun) :=
  read fun s => s.runs.find? fun r =>
    r.nodeId = nodeId && r.runScopeId = runScopeId && r.state = .parked

def resumeParked (nodeRunId : Id) : Tx Bool := do
  let n ← updateRuns (fun _ r => r.id = nodeRunId && r.state = .parked) fun _ r =>
    { r with claimedBy := none, claimedAt := none, parkedAt := none, resumeAt := none }
  return n = 1

theorem resumeParked_of_not_parked {nodeRunId : Id} {s : Store}
    (awake : ∀ r ∈ s.runs, r.id = nodeRunId → r.state ≠ .parked) :
    resumeParked nodeRunId s = (.ok false, s) ∨ ∃ e, resumeParked nodeRunId s = (.error e, s) := by
  rcases updateRuns_of_no_row (fun _ r => r.id = nodeRunId && r.state = .parked)
    (fun _ r => { r with claimedBy := none, claimedAt := none, parkedAt := none, resumeAt := none })
    s (fun r mem => by simpa using awake r mem) with ok | error
  · exact .inl (bind_of_ok ok)
  · exact .inr ⟨_, bind_of_error error⟩

def writeScratch (nodeRunId : Id) (scratch : Option String) : Tx Unit := do
  let n ← updateRuns (fun _ r => r.id = nodeRunId) fun _ r => { r with scratch }
  if n = 0 then fail .notFound

def bumpLastProgressAt (nodeRunId : Id) : Tx Unit := do
  let _ ← updateRuns (fun _ r => r.id = nodeRunId) fun now r =>
      { r with lastProgressAt := some now }

end Queue

/-! ## `run_tree.go` -/

namespace NodeRunTree


structure CreateChildNodeRunInput where
  nodeRunId : Id
  nodeId : Id
  frameId : Id
  runScopeId : Id
  executorName : String := ""
  requiredClaimProducers : List String := []
  aggregationPolicy : Option AggregationPolicy := none
  enqueuedAt : Nat

/-- `CreateChildNodeRun`: the run starts out stale, with no wait rows. -/
def createChildNodeRun (input : CreateChildNodeRunInput) : Tx Unit := do
  let s ← read id
  let busy := s.runs.any fun r => r.nodeId = input.nodeId && r.runScopeId = input.runScopeId &&
    [NodeState.running, .held, .parked].contains r.state
  if !busy && s.scopeOpen input.runScopeId then
    insertRun {
      id := input.nodeRunId, nodeId := input.nodeId, executorName := input.executorName
      requiredClaimProducers := input.requiredClaimProducers, enqueuedAt := input.enqueuedAt
      state := .stale, creationReason := .cascade
      sequence := s.nextSequence input.nodeId input.runScopeId, frameId := input.frameId
      runScopeId := input.runScopeId, aggregationPolicy := input.aggregationPolicy }
    NodeAttributes.snapshotBagForNewRun input.nodeRunId input.nodeId input.runScopeId

def updateStateAndOutcome (runId : Id) (state : NodeState) (settlingSignalType : Option String)
    (changed : Bool) : Tx Unit := do
  let n ← updateRuns (fun _ r => r.id = runId) fun _ r => { r with
    state, changed, settlingSignalType := settlingSignalType.or r.settlingSignalType }
  if n = 0 then fail .notFound

end NodeRunTree

/-! ## `run_scopes.go` -/

namespace RunScopes


def uniqueScopes (scopes : List RunScope) : Bool :=
  scopes.all fun a => scopes.all fun b =>
    !(a.id ≠ b.id && a.parentNodeRunId.isSome && a.parentNodeRunId = b.parentNodeRunId &&
      a.partitionKey = b.partitionKey && a.partitionKey ≠ "" && a.closedAt.isNone &&
      b.closedAt.isNone)

def create (scope : RunScope) : Tx Unit := do
  let scopes := (← read (·.runScopes)) ++ [scope]
  if uniqueScopes scopes then write fun s => { s with runScopes := scopes }
  else fail (.uniqueViolation "rimsky_run_scopes")

def getFanoutPartition (parentNodeRunId : Id) (partitionKey : String) : Tx (Option RunScope) :=
  read fun s => s.runScopes.find? fun scope =>
    scope.parentNodeRunId = some parentNodeRunId && scope.partitionKey = partitionKey &&
      scope.closedAt.isNone

def close (id : Id) : Tx Unit :=
  write fun s => { s with runScopes := s.runScopes.map fun scope =>
    if scope.id = id && scope.closedAt.isNone then { scope with closedAt := some s.clock }
    else scope }

/-- The scopes below the given ones, level by level. -/
def scopeTree (s : Store) : Nat → List RunScope → List RunScope
  | 0, level => level
  | fuel + 1, level =>
    let below := s.runScopes.filter fun scope =>
      level.any fun parent => scope.parentRunScopeId = some parent.id
    if below.isEmpty then level else level ++ scopeTree s fuel below

def listTreeDeepestFirst (rootRunScopeId : Id) : Tx (List RunScope) :=
  read fun s => (scopeTree s s.runScopes.length (s.runScope? rootRunScopeId).toList).reverse

end RunScopes

/-! ## `wait_set.go` -/

namespace WaitSet


def insert (row : WaitRow) : Tx Unit :=
  write fun s =>
    if s.waitSet.any row.sameKey then s else { s with waitSet := s.waitSet ++ [row] }

def markDrainedBySender (frameId senderNodeRunId : Id) : Tx Unit :=
  write fun s => { s with waitSet := s.waitSet.map fun w =>
    if w.frameId = frameId && w.senderRunId = senderNodeRunId && w.drainedAt.isNone then
      { w with drainedAt := some s.clock }
    else w }

def listSenderNodesForReceiver (frameId receiverNodeRunId : Id) : Tx (List Id) :=
  read fun s => (s.waitSet.filter fun w =>
    w.frameId = frameId && w.receiverRunId = receiverNodeRunId).filterMap fun w =>
      (s.run? w.senderRunId).map (·.nodeId)

def hasRowForSenderRun (frameId receiverNodeRunId senderNodeRunId : Id) : Tx Bool :=
  read fun s => s.waitSet.any fun w =>
    w.frameId = frameId && w.receiverRunId = receiverNodeRunId && w.senderRunId = senderNodeRunId

def listPendingReceiversForDrainedSender (frameId senderNodeRunId : Id) : Tx (List Id) :=
  read fun s => ((s.waitSet.filter fun w =>
    w.frameId = frameId && w.senderRunId = senderNodeRunId &&
      (s.run? w.receiverRunId).any fun r =>
        r.state = .pending && r.creationReason = .cascade).map (·.receiverRunId)).eraseDups

def hasUndrainedRowsForReceiver (frameId receiverNodeRunId : Id) : Tx Bool :=
  read fun s => s.waitSet.any fun w =>
    w.frameId = frameId && w.receiverRunId = receiverNodeRunId && w.drainedAt.isNone

end WaitSet

end Rimsky
