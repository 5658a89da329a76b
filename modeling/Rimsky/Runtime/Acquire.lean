import Rimsky.Graph.TemplateValidator
import Rimsky.Runtime.Terminal

/-!
# Acquiring a run

`runtime/runner_acquire.go` with its helpers, `runtime/runner_locks.go` and
`runtime/runner_subclaim.go`: one transaction claims the row of a candidate, opens or takes
over the locks its node asks for, splits the claim of a fan-out node and enters the run as a
co-holder of the claims it holds along. A refusal rolls the transaction back and may be
settled by the node's error policy.

The lock specs are the ones `buildLockSpecs` makes by substitution into the node definition,
in the order in which they are taken. What producers answer, and which statements fail for
reasons of their own, comes as functions.
-/

namespace Rimsky

open Transaction

/-! ## Locks and what producers answer -/

structure ClaimSpec where
  producerName : String
  selector : String := ""
  intent : Intent := .rw
  claimAlias : String := ""
  lifetime : ClaimLifetime := .subgraph
  deriving DecidableEq, Repr

inductive LockRequest where
  | named (name : String)
  | claim (spec : ClaimSpec)
  deriving DecidableEq, Repr

/-- The answer to `Open`; a fault carries the class of the producer's error. -/
inductive OpenAnswer where
  | available (result : ClaimResult) (realizedWriteSemantics : String)
  | unavailable (unavailableClass : String)
  | faulted (errorClass : String)
  | broken (text : String)
  deriving DecidableEq

/-- The statements of an acquisition that may fail whatever the store is. -/
inductive AcquireStep where
  | insertHandle (claimHandleId : Id)
  | updateAddress (claimHandleId : Id)
  | updateClaimScope (claimHandleId : Id)
  | updatePayload (claimHandleId : Id)
  | updateRealizedWriteSemantics (claimHandleId : Id)
  | insertHolder (claimHandleId : Id)
  | claimRow | fanOut | restamp | coHolders | scratch | commit
  deriving DecidableEq, Repr

/-- One descriptor of `SplitScope`. -/
structure SubClaimScope where
  partitionKey : String
  claimScope : Option RawMessage := none
  address : Option RawMessage := none
  payload : Option Json := none
  leaseToken : String := ""
  deriving DecidableEq

structure Producers where
  openClaim : Id → ClaimSpec → OpenAnswer
  /-- `ScopesConflict`, of a producer that supports it. -/
  scopesConflict : String → Option (Option RawMessage → Option RawMessage → Bool) := fun _ => none
  splitScope : Id → Except String (List SubClaimScope) := fun _ => .ok []
  beginCandidate : String → Option (Id → Except String String) := fun _ => none
  namedLockLimit : String → Option Nat := fun _ => none
  livenessInterval : Nat := 5
  fault : AcquireStep → Option String := fun _ => none

/-- `ErrScopesConflictUnsupportedFallback`: both are there, and their bytes are the same. -/
def sameScope (a b : Option RawMessage) : Bool :=
  RawMessage.bytes a ≠ "" && RawMessage.bytes a = RawMessage.bytes b

def ClaimHandle.scopeBytes (h : ClaimHandle) : String := RawMessage.bytes h.claimScopeData

def Producers.conflict (producers : Producers) (producerName : String)
    (a b : Option RawMessage) : Bool :=
  match producers.scopesConflict producerName with
  | some conflicts => conflicts a b
  | none => sameScope a b

/-- `ModeCoexists` of realized write semantics; `none` if the text is not one of them. -/
def modeCoexists (a b : Option Intent) (semantics : String) : Option Bool :=
  if semantics = "staged_async" then some !(a = some .rw && b = some .rw)
  else if semantics = "sync" || semantics = "blocking_async" || semantics = "read_only" then
    some !(a = some .rw || b = some .rw)
  else none

/-- Why a candidate is not acquired: it is skipped, a statement failed or a policy decides. -/
inductive Refusal where
  | skip
  | failed (error : StoreError)
  | policy (errorClass fallbackClass : String) (payload : Bag)
  deriving DecidableEq

abbrev RefusedLocks := Refusal × List AcquiredLock

inductive OpenResult where
  | acquired (lock : AcquiredLock)
  | unavailable (unavailableClass : String)
  | errored (errorClass : String)
  | bail
  deriving DecidableEq

section Acquire

variable (args : RunArgs) (producers : Producers)

/-! ## One lock -/

/-- A statement that may fail whatever the store is. -/
def checkpoint (step : AcquireStep) : Tx Unit :=
  match producers.fault step with
  | none => pure ()
  | some text => fail (.other text)

def checked (step : AcquireStep) (m : Tx Unit) : Tx Unit := do
  checkpoint producers step
  m

def logOpen (claimHandleId : Id) : Tx Unit :=
  write fun s => { s with opens := s.opens ++ [claimHandleId] }

def claimExpiry (now : Nat) : Nat := now + 5 * producers.livenessInterval

/-- The active handles of the run that no lock of the acquisition has taken over yet. -/
def reusableHandles (runId : Id) (acquired : List AcquiredLock) : Tx (List ClaimHandle) := do
  let rows ← ClaimHandles.listByNodeRun runId
  return rows.filter fun row =>
    row.state = .active && !(acquired.map (·.claimHandleId)).contains row.id

/-- The lock that takes over a handle the run already has. -/
def ClaimHandle.reused (row : ClaimHandle) (spec : ClaimSpec) (producer leaseToken : String) :
    AcquiredLock where
  claimHandleId := row.id
  spec := .claim spec.producerName spec.claimAlias
  producer := some producer
  producerLeaseToken := leaseToken
  scope := row.claimScopeData
  address := row.address
  intent := spec.intent
  lifetime := spec.lifetime
  realizedWriteSemantics := row.realizedWriteSemantics
  isHeld := row.isHeld

def reuseHeldNamedLock (run : NodeRun) (name : String) (acquired : List AcquiredLock) :
    Tx (Option AcquiredLock) := do
  let rows ← reusableHandles run.id acquired
  match rows.find? fun row => row.lockKind = .named && row.lockName = some name with
  | none => return none
  | some row =>
    ClaimHandles.renewExpiryForHolderRun run.id (claimExpiry producers (← read (·.clock)))
    return some { claimHandleId := row.id, spec := .named name }

def acquireNamedLock (run : NodeRun) (name : String) : Tx (Option AcquiredLock) := do
  let count ← ClaimHandles.countByNamedLock name
  if (producers.namedLockLimit name).any (· ≤ count) then return none
  else
    let rowId ← newId
    let now ← read (·.clock)
    ClaimHandles.insert {
      id := rowId, lockKind := .named, lockName := some name
      holderSupervisorId := some args.supervisorId, holderNodeId := run.nodeId, claimedAt := now
      expiresAt := claimExpiry producers now, frameId := some run.frameId
      nodeRunId := some run.id }
    return some { claimHandleId := rowId, spec := .named name }

def pickScopeMatch (producerName : String) (scope : Option RawMessage) :
    List ClaimHandle → Option ClaimHandle
  | [] => none
  | [row] => some row
  | rows => rows.find? fun row => producers.conflict producerName scope row.claimScopeData

/-- `reuseHeldRunClaim`: a claim the run kept while it was parked or released. -/
def reuseHeldRunClaim (run : NodeRun) (spec : ClaimSpec) (scope : Option RawMessage)
    (producer : String) (acquired : List AcquiredLock) : Tx (Option AcquiredLock) := do
  let rows := (← reusableHandles run.id acquired).filter fun row =>
    row.lockKind = .claimScope && row.parentClaimHandleId.isNone &&
      row.producerName = some spec.producerName
  match (rows.find? (·.scopeBytes = RawMessage.bytes scope)).or
      (pickScopeMatch producers spec.producerName scope rows) with
  | none => return none
  | some row =>
    ClaimHandles.renewExpiryForHolderRun run.id (claimExpiry producers (← read (·.clock)))
    return some (row.reused spec producer "")

/-- `reuseLinkedSubClaim`: the sub-claim a fan-out child was started with. -/
def reuseLinkedSubClaim (run : NodeRun) (spec : ClaimSpec) (producer : String)
    (acquired : List AcquiredLock) : Tx (Option AcquiredLock) := do
  let own := (← ClaimHandles.listByNodeRun run.id).map (·.id)
  let rows ← reusableHandles run.id acquired
  match rows.find? fun row =>
      row.parentClaimHandleId.any (fun parent => !own.contains parent) &&
        row.lockKind = .claimScope && row.producerName = some spec.producerName with
  | none => return none
  | some row =>
    ClaimHandles.renewExpiryForHolderRun run.id (claimExpiry producers (← read (·.clock)))
    return some (row.reused spec producer row.producerLeaseToken)

/-- `evaluateClaimScopeConflict`: whether a holder conflicts, and whether a durable one does. -/
def evaluateClaimScopeConflict (run : NodeRun) (spec : ClaimSpec) (scope : Option RawMessage) :
    Tx (Bool × Bool) := do
  let rows ← ClaimHandles.listByProducerClaimScope spec.producerName
  let durable := fun h : ClaimHandle => h.state = .committed && h.lifetime = .durable
  let rivals := rows.filter fun h =>
    h.nodeRunId ≠ some run.id && !(h.holderNodeId = run.nodeId && durable h) &&
      producers.conflict spec.producerName scope h.claimScopeData
  let verdicts ← rivals.mapM fun h =>
    need (.other "evaluateClaimScopeConflict: claim handle has no realized write-semantics yet")
      ((modeCoexists (some spec.intent) h.intent h.realizedWriteSemantics).map fun coexists =>
        (h, coexists))
  let conflicts := (verdicts.filter fun v => !v.2).map (·.1)
  return (!conflicts.isEmpty, conflicts.any durable)

/-- The end of `acquireClaim`: the row of an opened claim is completed by the producer's answer. -/
def recordOpened (run : NodeRun) (rowId : Id) (isHeld : Bool) (scope : Option RawMessage)
    (result : ClaimResult) (realizedWriteSemantics : String) : Tx Unit := do
  checked producers (.updateAddress rowId)
    (ClaimHandles.updateAddress rowId args.supervisorId result.address)
  if RawMessage.bytes result.claimScope ≠ "" &&
      RawMessage.bytes result.claimScope ≠ RawMessage.bytes scope then
    checked producers (.updateClaimScope rowId)
      (ClaimHandles.updateClaimScope rowId args.supervisorId result.claimScope)
  if result.payload.isSome then
    checked producers (.updatePayload rowId)
      (ClaimHandles.updatePayload rowId args.supervisorId result.payload)
  if realizedWriteSemantics ≠ "" then
    checked producers (.updateRealizedWriteSemantics rowId)
      (ClaimHandles.updateRealizedWriteSemantics rowId args.supervisorId realizedWriteSemantics)
  -- `insertHeldClaimHoldersAtAcquire`
  if isHeld then
    checked producers (.insertHolder rowId) (ClaimHolders.insert rowId run.id)

def askProducer (run : NodeRun) (rowId : Id) (isHeld : Bool) (spec : ClaimSpec)
    (scope : Option RawMessage) (producer : String) : Tx OpenResult := do
  match producers.openClaim rowId spec with
  | .broken text => fail (.other text)
  | .faulted errorClass => return .errored errorClass
  | .unavailable unavailableClass => return .unavailable unavailableClass
  | .available result realizedWriteSemantics =>
    logOpen rowId
    recordOpened args producers run rowId isHeld scope result realizedWriteSemantics
    return .acquired {
      claimHandleId := rowId, spec := .claim spec.producerName spec.claimAlias
      producer := some producer, scope := result.claimScope, address := result.address
      intent := spec.intent, lifetime := spec.lifetime, realizedWriteSemantics, isHeld }

/-- The rest of `acquireClaim`: a new handle is opened at the producer. -/
def openNewClaim (run : NodeRun) (nodeType : String) (heldSubgraphs : List HoldingSubgraph)
    (spec : ClaimSpec) (scope : Option RawMessage) (producer : String) : Tx OpenResult := do
  let rowId ← newId
  let now ← read (·.clock)
  let isHeld := isAliasHeld heldSubgraphs nodeType spec.claimAlias
  checked producers (.insertHandle rowId) (ClaimHandles.insert {
    id := rowId, lockKind := .claimScope, producerName := some spec.producerName
    claimScopeData := scope, intent := some spec.intent
    holderSupervisorId := some args.supervisorId, holderNodeId := run.nodeId, claimedAt := now
    expiresAt := claimExpiry producers now, frameId := some run.frameId, nodeRunId := some run.id
    isHeld, lifetime := spec.lifetime })
  askProducer args producers run rowId isHeld spec scope producer

def acquireClaim (run : NodeRun) (nodeType : String) (heldSubgraphs : List HoldingSubgraph)
    (acquired : List AcquiredLock) (spec : ClaimSpec) : Tx OpenResult := do
  match args.resolveProducer spec.producerName with
  | none => return .errored "acquire/unresolved_claim_producer"
  | some producer =>
    let scope := some (Json.raw (.str spec.selector))
    match ← reuseHeldRunClaim producers run spec scope producer acquired with
    | some lock => return .acquired lock
    | none =>
      match ← reuseLinkedSubClaim producers run spec producer acquired with
      | some lock => return .acquired lock
      | none =>
        let (conflicted, persistent) ← evaluateClaimScopeConflict producers run spec scope
        if conflicted then return if persistent then .unavailable "" else .bail
        else openNewClaim args producers run nodeType heldSubgraphs spec scope producer

def acquireOneLock (run : NodeRun) (nodeType : String) (heldSubgraphs : List HoldingSubgraph)
    (acquired : List AcquiredLock) (request : LockRequest) : Tx OpenResult := do
  match request with
  | .claim spec => acquireClaim args producers run nodeType heldSubgraphs acquired spec
  | .named name =>
    match ← reuseHeldNamedLock producers run name acquired with
    | some lock => return .acquired lock
    | none =>
      match ← acquireNamedLock args producers run name with
      | some lock => return .acquired lock
      | none => return .bail

def refusedLockPayload (run : NodeRun) (nodeType source field : String) (request : LockRequest)
    (acquired : List AcquiredLock) : Bag := [
  ("source", .str source)
  , (field, .str (match request with
      | .claim spec => spec.producerName
      | .named _ => ""))
  , ("partial_locks", .num (toString acquired.length))
  , ("dispatch_id", .str (toString run.id)), ("node_id", .str (toString run.nodeId))
  , ("node_type", .str nodeType)]

def acquireLocks (run : NodeRun) (nodeType : String) (heldSubgraphs : List HoldingSubgraph) :
    List LockRequest → List AcquiredLock → Tx (Except RefusedLocks (List AcquiredLock))
  | [], acquired => return .ok acquired
  | request :: rest, acquired => do
    match ← attempt (acquireOneLock args producers run nodeType heldSubgraphs acquired request) with
    | .error e => return .error (.failed e, acquired)
    | .ok (.acquired lock) => acquireLocks run nodeType heldSubgraphs rest (acquired ++ [lock])
    | .ok .bail => return .error (.skip, acquired)
    | .ok (.unavailable unavailableClass) =>
      let primary := if unavailableClass = "" then "acquire/unavailable" else unavailableClass
      let payload :=
        refusedLockPayload run nodeType "acquire_unavailable" "unavailable" request acquired
      return .error (.policy primary "acquire/unavailable" payload, acquired)
    | .ok (.errored errorClass) =>
      let primary := if errorClass = "" then "acquire/producer_error" else errorClass
      let payload :=
        refusedLockPayload run nodeType "acquire_producer_error" "producer" request acquired
      return .error (.policy primary "acquire/producer_error" payload, acquired)

/-! ## Claims held along, and fan-out -/

/-- `lookupClaimHandleForAlias`: the latest handle of the upstream's producer in the frame. -/
def Store.claimHandleForAlias? (s : Store) (upstream : Node) (spec : TemplateSpec)
    (heldAlias : String) (frameId : Id) : Option ClaimHandle :=
  match (spec.lookupNodeDef upstream.nodeType).bind fun upstreamDef =>
      (upstreamDef.claimProducers.find? (·.aliasOf = heldAlias)).map (·.name) with
  | none => none
  | some producerName =>
    ((s.handlesByClaimedAt fun h => h.holderNodeId = upstream.id).filter fun h =>
      h.producerName = some producerName && (h.state = .active || h.state = .committed) &&
        (h.lifetime = .durable || h.frameId = some frameId)).foldl
      (fun best h => match best with
        | none => some h
        | some b => if b.claimedAt < h.claimedAt then some h else best) none

structure ResolvedHold where
  heldAlias : String
  binding : HoldsBinding
  upstreamNode : Node
  claimHandle : ClaimHandle

def Store.holdUpstream? (s : Store) (instanceId : Id) (entry : String × HoldsBinding) :
    Option Node :=
  (s.instanceNodes instanceId).find? (·.nodeType = entry.2.from)

def Store.resolvedHold? (s : Store) (instanceId frameId : Id) (spec : TemplateSpec)
    (entry : String × HoldsBinding) : Option ResolvedHold :=
  (s.holdUpstream? instanceId entry).bind fun upstream =>
    (s.claimHandleForAlias? upstream spec entry.1 frameId).map fun h =>
      { heldAlias := entry.1, binding := entry.2, upstreamNode := upstream, claimHandle := h }

def resolveHolds (instanceId frameId : Id) (spec : TemplateSpec) (nodeDef : TemplateNodeDef)
    (requireUpstreamNode : Bool) : Tx (List ResolvedHold) := do
  let s ← read id
  let entries := nodeDef.holds.filter (·.2.from ≠ "")
  if requireUpstreamNode && entries.any fun entry => (s.holdUpstream? instanceId entry).isNone then
    fail (.other "resolveHolds: upstream node-type not found in instance")
  else return entries.filterMap (s.resolvedHold? instanceId frameId spec)

def collectCoHeldClaims (instanceId frameId : Id) (spec : TemplateSpec)
    (nodeDef : TemplateNodeDef) :
    Tx (List (String × ClaimResult)) := do
  let resolved ← resolveHolds instanceId frameId spec nodeDef false
  return resolved.map fun r => (effectiveHoldsLocalAlias r.heldAlias r.binding,
    { address := r.claimHandle.address, payload := r.claimHandle.payload
      claimScope := r.claimHandle.claimScopeData })

def insertCoHolderClaimHoldersAtAcquire (instanceId : Id) (run : NodeRun) (spec : TemplateSpec)
    (nodeDef : TemplateNodeDef) : Tx Unit := do
  let resolved ← resolveHolds instanceId run.frameId spec nodeDef true
  resolved.forM fun r => ClaimHolders.insert r.claimHandle.id run.id

structure FanOutParentClaim where
  claimHandleId : Id
  producerName : String
  lifetime : ClaimLifetime
  isHeld : Bool
  intent : Option Intent
  realizedWriteSemantics : String

/-- `resolveFanOutParentClaim`: the acquired claim of the alias, or else the one held along. -/
def Store.fanOutParentClaim? (s : Store) (instanceId frameId : Id) (spec : TemplateSpec)
    (nodeDef : TemplateNodeDef) (acquired : List AcquiredLock) (claimAlias : String) :
    Option FanOutParentClaim :=
  match acquired.find? fun lk => match lk.spec with
      | .claim _ lockAlias => lockAlias = claimAlias
      | .named _ => claimAlias = "" with
  | some lk =>
    match lk.spec with
    | .named _ => none
    | .claim producerName _ => some {
        claimHandleId := lk.claimHandleId, producerName, lifetime := lk.lifetime
        isHeld := lk.isHeld, intent := some lk.intent
        realizedWriteSemantics := lk.realizedWriteSemantics }
  | none =>
    match (List.lookup claimAlias nodeDef.holds).bind fun binding =>
        if binding.from = "" then none
        else (s.instanceNodes instanceId).find? (·.nodeType = binding.from) with
    | none => none
    | some upstream => (s.claimHandleForAlias? upstream spec claimAlias frameId).map fun h => {
        claimHandleId := h.id, producerName := h.producerName.getD "", lifetime := h.lifetime
        isHeld := h.isHeld, intent := h.intent
        realizedWriteSemantics := h.realizedWriteSemantics }

/-- `BeginCandidate` at the data processor of a producer that has one. -/
def beginCandidate (producerName : String) (subId : Id) : Tx (Option String) :=
  match producers.beginCandidate producerName with
  | none => pure none
  | some start =>
    match start subId with
    | .ok candidate => pure (some candidate)
    | .error e => fail (.other e)

/-- One descriptor of `AcquireSubClaims`; `taken` are the scopes accepted before it. -/
def acquireSubClaim (run : NodeRun) (parent : FanOutParentClaim) (intent : Intent)
    (taken : List (Option RawMessage)) (desc : SubClaimScope) : Tx SubClaim := do
  if desc.partitionKey = "" then
    fail (.other "AcquireSubClaims: sub-claim scope with an empty partition_key")
  else if taken.any (producers.conflict parent.producerName desc.claimScope) then
    fail (.other "AcquireSubClaims: overlapping sub-claim scopes")
  else
    let subId ← newId
    let now ← read (·.clock)
    let candidate ← beginCandidate producers parent.producerName subId
    ClaimHandles.insert {
      id := subId, lockKind := .claimScope, producerName := some parent.producerName
      claimScopeData := desc.claimScope, address := desc.address, payload := desc.payload
      intent := some intent, realizedWriteSemantics := parent.realizedWriteSemantics
      holderSupervisorId := some args.supervisorId, holderNodeId := run.nodeId, claimedAt := now
      expiresAt := claimExpiry producers now, frameId := some run.frameId
      nodeRunId := some run.id, isHeld := parent.isHeld
      parentClaimHandleId := some parent.claimHandleId, lifetime := parent.lifetime
      producerCandidateHandle := candidate, producerLeaseToken := desc.leaseToken }
    ClaimHandles.bumpExpectedChildrenCount parent.claimHandleId args.supervisorId 1
    return { partitionKey := desc.partitionKey, claimHandleId := subId }

def acquireSubClaims (run : NodeRun) (parent : FanOutParentClaim) (policy : AggregationPolicy) :
    Tx (List SubClaim) := do
  let intent ← need (.other "AcquireSubClaims: ParentIntent must be set") parent.intent
  let _ ← need (.other "AcquireSubClaims: unknown producer")
    (args.resolveProducer parent.producerName)
  match producers.splitScope parent.claimHandleId with
  | .error e => fail (.other e)
  | .ok scopes =>
    ClaimHandles.setAggregationPolicy parent.claimHandleId args.supervisorId (some policy)
    let subClaims ← scopes.foldlM (fun (done : List SubClaim × List (Option RawMessage)) desc => do
      let sub ← acquireSubClaim args producers run parent intent done.2 desc
      return (done.1 ++ [sub], done.2 ++ [desc.claimScope])) ([], [])
    return subClaims.1

/-- `acquireFanOutIfDeclared`; a child of a fan-out does not split again. -/
def acquireFanOutIfDeclared (partitionRequest : Except String Unit) (acq : Acquisition)
    (run : NodeRun) (spec : TemplateSpec) (nodeDef : TemplateNodeDef) :
    Tx (Except RefusedLocks (List SubClaim)) := do
  match nodeDef.fanOut with
  | none => return .ok []
  | some fanOut =>
    let s ← read id
    if (s.runScope? acq.runScopeId).any fun scope =>
        scope.parentNodeRunId.isSome && scope.partitionKey ≠ "" then return .ok []
    else
      match s.fanOutParentClaim? acq.instanceId run.frameId spec nodeDef acq.locks fanOut.claim with
      | none => return .ok []
      | some parent =>
        match partitionRequest with
        | .error text =>
          let errorClass := "acquire/fan_out_partition_request_substitution_failed"
          return .error (.policy errorClass errorClass [("error", .str text)], acq.locks)
        | .ok () => return .ok (← acquireSubClaims args producers run parent fanOut.errorPolicy)

/-- `restampLinkedSubClaimHolders`: `false` if another supervisor was faster. -/
def restampLinkedSubClaimHolders (runId : Id) : Tx Bool := do
  let rows ← ClaimHandles.listByNodeRun runId
  let linked := rows.filterMap fun row =>
    if row.parentClaimHandleId.isSome && row.state = .active then
      (row.holderSupervisorId.filter (· ≠ args.supervisorId)).map fun holder => (row.id, holder)
    else none
  linked.foldlM (fun ok (rowId, holder) => do
    if !ok then return false
    else
      match ← attempt (ClaimHandles.reassignHolderSupervisor rowId holder args.supervisorId) with
      | .ok () => return true
      | .error .illegalClaimHandleTransition => return false
      | .error e => fail e) true

def TemplateSpec.graphOf (spec : TemplateSpec) (nodeType : String) : String :=
  ((spec.graphs.find? fun g => g.nodes.any (·.type = nodeType)).map (·.name)).getD mainGraphName

/-- What the acquisition of a run says before anything is acquired. -/
def NodeRun.acquisition (run : NodeRun) (node : Node) (spec : Option TemplateSpec) :
    Acquisition where
  nodeRunId := run.id
  nodeId := run.nodeId
  instanceId := node.instanceId
  nodeType := node.nodeType
  executor := node.executor
  runScopeId := run.runScopeId
  frameId := run.frameId
  nodeDef := spec.bind (·.lookupNodeDef node.nodeType)
  graphName := (spec.map (·.graphOf node.nodeType)).getD mainGraphName

/-- Why `tryAcquire` gave up, with the acquisition its handlers get. -/
structure Refused where
  acq : Acquisition
  refusal : Refusal
  partialLocks : List AcquiredLock := []
  deriving DecidableEq

/-- What one try reads from outside: the lock specs and the fan-out request, or their errors. -/
structure AcquireInput where
  producers : Producers
  specs : Except String (List LockRequest) := .ok []
  partitionRequest : Except String Unit := .ok ()

def AcquireInput.lockSpecs (input : AcquireInput) (nodeDef : Option TemplateNodeDef) :
    Except String (List LockRequest) :=
  if nodeDef.isNone then .ok [] else input.specs

/-- Run a step once all locks are taken; if it fails, the locks are handed back. -/
def orRefuse {α : Type} (acq : Acquisition) (m : Tx α) : Tx (Except Refused α) := do
  match ← attempt m with
  | .ok a => return .ok a
  | .error e => return .error { acq, refusal := .failed e, partialLocks := acq.locks }

/-- What becomes of the acquisition after the fan-out: sub-claims taken over, co-holders entered. -/
def enterAcquired (input : AcquireInput) (acq : Acquisition) (run : NodeRun)
    (spec : Option TemplateSpec) : Tx Bool := do
  checkpoint input.producers .restamp
  if !(← restampLinkedSubClaimHolders args run.id) then return false
  else
    checkpoint input.producers .coHolders
    match spec, acq.nodeDef with
    | some spec, some nodeDef => insertCoHolderClaimHoldersAtAcquire acq.instanceId run spec nodeDef
    | _, _ => pure ()
    checkpoint input.producers .scratch
    return true

/-- The fan-out of an acquisition whose locks are all taken. -/
def acquireFanOut (input : AcquireInput) (acq : Acquisition) (run : NodeRun)
    (spec : Option TemplateSpec) : Tx (Except RefusedLocks (List SubClaim)) := do
  checkpoint input.producers .fanOut
  match spec, acq.nodeDef with
  | some spec, some nodeDef =>
    acquireFanOutIfDeclared args input.producers input.partitionRequest acq run spec nodeDef
  | _, _ => return .ok []

/-- The end of `tryAcquire`, once all locks are taken. -/
def finishAcquire (input : AcquireInput) (acq : Acquisition) (run : NodeRun)
    (spec : Option TemplateSpec) : Tx (Except Refused Acquisition) := do
  match ← orRefuse acq (acquireFanOut args input acq run spec) with
  | .error refused => return .error refused
  | .ok (.error (refusal, partialLocks)) => return .error { acq, refusal, partialLocks }
  | .ok (.ok subClaims) =>
    match ← orRefuse acq (enterAcquired args input acq run spec) with
    | .error refused => return .error refused
    | .ok false => return .error { acq, refusal := .skip, partialLocks := acq.locks }
    | .ok true => return .ok { acq with subClaims }

def takeLocks (input : AcquireInput) (acq : Acquisition) (run : NodeRun)
    (spec : Option TemplateSpec) (specs : List LockRequest) : Tx (Except Refused Acquisition) := do
  match ← acquireLocks args input.producers run acq.nodeType acq.heldSubgraphs specs [] with
  | .error (refusal, partialLocks) => return .error { acq, refusal, partialLocks }
  | .ok locks => finishAcquire args input { acq with locks } run spec

/-- `tryAcquire`; the transaction is rolled back unless it returns an acquisition. -/
def tryAcquire (input : AcquireInput) (run : NodeRun) : Tx (Except Refused Acquisition) := do
  let s ← read id
  match s.node? run.nodeId with
  | none => fail (.other "tryAcquire: node not found; candidate skipped")
  | some node =>
    let spec := s.template? node.instanceId
    let acq := run.acquisition node spec
    if run.frameId = 0 then
      let errorClass := "acquire/nil_frame_id"
      let payload : Bag := [("source", .str "acquire_nil_frame_id")]
      return .error { acq, refusal := .policy errorClass errorClass payload }
    else
      match input.lockSpecs acq.nodeDef with
      | .error text =>
        let errorClass := "template_resolution_failed"
        let payload : Bag := [("error", .str text)]
        return .error { acq, refusal := .policy errorClass errorClass payload }
      | .ok specs =>
        checkpoint input.producers .claimRow
        if !(← Queue.claimDispatchRow run.id args.supervisorId) then
          return .error { acq, refusal := .skip }
        else
          let heldSubgraphs := (spec.map holdingSubgraphsForTemplate).getD []
          takeLocks args input { acq with heldSubgraphs } run spec specs

inductive AttemptResult where
  | acquired (acq : Acquisition)
  | refused (refused : Refused)
  /-- The transaction failed without a word on the locks it had taken. -/
  | lost (error : StoreError)

def tryAcquireWithTx (input : AcquireInput) (run : NodeRun) (s : Store) : AttemptResult × Store :=
  match tryAcquire args input run s with
  | (.error e, _) => (.lost e, s)
  | (.ok (.error refused), _) => (.refused refused, s)
  | (.ok (.ok acq), s') =>
    match input.producers.fault .commit with
    | none => (.acquired acq, s')
    | some text => (.lost (.other text), s)

/-! ## Giving up -/

/--
The locks that are abandoned after an attempt; the handlers of refusals that a policy decides
return before that if there is no node definition.
-/
def AttemptResult.partialLocks : AttemptResult → List AcquiredLock
  | .acquired _ | .lost _ => []
  | .refused r =>
    match r.refusal with
    | .policy .. => if r.acq.nodeDef.isNone then [] else r.partialLocks
    | _ => r.partialLocks

/-- `abandonPartialLocks`: the producers are told of what was opened and rolled back. -/
def abandonPartialLocks (locks : List AcquiredLock) : Tx Unit :=
  (locks.filter (·.producer.isSome)).forM fun lk => do
    let now ← read (·.clock)
    ProducerVerbOutbox.enqueue {
      seq := 0, claimHandleId := lk.claimHandleId
      producerName := match lk.spec with
        | .claim producerName _ => producerName
        | .named _ => ""
      verb := .abandon, claimScopeData := lk.scope, address := lk.address
      leaseToken := lk.producerLeaseToken, supervisorId := args.supervisorId, nextAttemptAt := now }

/-- The transaction of `runAcquireErrorPolicy`. -/
def applyAcquireErrorPolicy (rec : Rec) (acq : Acquisition) (errorClass fallbackClass : String)
    (payload : Bag) : Tx Settlement :=
  applyErrorPolicy args rec acq { errorClass, fallbackClass, payload := some payload }

end Acquire

end Rimsky
