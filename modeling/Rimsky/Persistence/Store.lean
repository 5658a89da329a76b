import Rimsky.Foundation.Signal
import Rimsky.Foundation.Spec
import Rimsky.Foundation.State
import Rimsky.Lib.Transaction

/-!
# The store

The tables of `foundation/persistence` that the runtime reads and writes, each as the
list of its rows in the order they were inserted. Row ids are numbers handed out by
`nextId`, and 0 is the zero UUID. Times are numbers: `clock` is the time a statement
reads as now. Spilled attribute and scratch values are modelled as if stored inline, and
columns that only observability reads are left out.

An instance row holds its template: the runtime looks the template up by hash, and
templates are never changed once stored under their hash.
-/

namespace Rimsky

abbrev Id := Nat

/-- The tagged errors the runtime tells apart, and all others with their text. -/
inductive StoreError where
  | illegalTransition
  | runScopeClosed
  | notFound
  | claimHolderNotActive
  | illegalClaimHandleTransition
  | runClaimantMismatch
  | uniqueViolation (index : String)
  | outOfFuel
  | other (text : String)
  deriving DecidableEq, Repr

structure Instance where
  id : Id
  template : TemplateSpec
  params : Option Json := none
  attributeOverrides : Option Bag := none
  terminatedAt : Option Nat := none
  paused : Bool := false
  messageQueueMode : MessageQueueMode := .backlog

structure Node where
  id : Id
  instanceId : Id
  nodeType : String
  executor : String := ""
  cascadeMode : CascadeMode := .mostRecent
  deriving DecidableEq, Repr

structure RunScope where
  id : Id
  parentRunScopeId : Option Id := none
  parentNodeRunId : Option Id := none
  graphName : String
  partitionKey : String := ""
  instanceId : Id
  closedAt : Option Nat := none
  deriving DecidableEq, Repr

structure NodeRun where
  id : Id
  nodeId : Id
  executorName : String := ""
  requiredClaimProducers : List String := []
  enqueuedAt : Nat
  state : NodeState
  creationReason : CreationReason
  sequence : Nat
  frameId : Id
  runScopeId : Id
  claimedBy : Option String := none
  claimedAt : Option Nat := none
  settlingSignalType : Option String := none
  aggregationPolicy : Option AggregationPolicy := none
  changed : Bool := false
  retryCounter : Nat := 0
  priorDispatchId : Option Id := none
  priorDispatchDisposition : Option String := none
  scratch : Option String := none
  parkedAt : Option Nat := none
  resumeAt : Option Nat := none
  asyncAckId : Option String := none
  asyncAckRegisteredAt : Option Nat := none
  asyncAckPrincipal : String := ""
  asyncCallbackUrl : String := ""
  lastProgressAt : Option Nat := none
  effectiveMaxQuietPeriodSeconds : Option Nat := none
  effectiveMaxRuntimeSeconds : Option Nat := none
  deriving DecidableEq, Repr

structure NodeAttributes where
  nodeRunId : Id
  nodeId : Id
  data : Bag := []
  dispatchInputBag : Option Bag := none
  updatedAt : Nat
  deriving DecidableEq

structure WaitRow where
  frameId : Id
  receiverRunId : Id
  senderRunId : Id
  topicKind : String
  drainedAt : Option Nat := none
  deriving DecidableEq, Repr

inductive LockKind where
  | named | claimScope
  deriving DecidableEq, Repr

inductive ClaimHandleState where
  | active | committed | abandoned
  deriving DecidableEq, Repr

structure ClaimHandle where
  id : Id
  lockKind : LockKind
  lockName : Option String := none
  producerName : Option String := none
  claimScopeData : Option RawMessage := none
  address : Option RawMessage := none
  payload : Option Json := none
  intent : Option Intent := none
  realizedWriteSemantics : String := ""
  holderSupervisorId : Option String
  holderNodeId : Id
  claimedAt : Nat
  expiresAt : Nat
  frameId : Option Id := none
  nodeRunId : Option Id := none
  isHeld : Bool := false
  parentClaimHandleId : Option Id := none
  lifetime : ClaimLifetime := .subgraph
  versionId : String := ""
  producerCandidateHandle : Option String := none
  producerLeaseToken : String := ""
  aggregationPolicy : Option AggregationPolicy := none
  expectedChildrenCount : Nat := 0
  committedChildrenCount : Nat := 0
  abandonedChildrenCount : Nat := 0
  state : ClaimHandleState := .active
  resolvedAt : Option Nat := none
  deriving DecidableEq

inductive ClaimHolderState where
  | active | completed | failed
  deriving DecidableEq, Repr

structure ClaimHolder where
  id : Id
  claimHandleId : Id
  holderRunId : Id
  state : ClaimHolderState := .active
  deriving DecidableEq, Repr

inductive ProducerVerb where
  | commit | abandon | release
  deriving DecidableEq, Repr

structure OutboxRow where
  seq : Nat
  claimHandleId : Id
  producerName : String
  verb : ProducerVerb
  claimScopeData : Option RawMessage := none
  address : Option RawMessage := none
  leaseToken : String := ""
  supervisorId : String
  instanceId : Option Id := none
  parentClaimHandleId : Option Id := none
  attemptCount : Nat := 0
  nextAttemptAt : Nat
  lastError : String := ""
  deriving DecidableEq

structure Frame where
  frameId : Id
  instanceId : Id
  triggeringMessageId : Id
  rootRunScopeId : Id
  startedAt : Nat
  endedAt : Option Nat := none
  deriving DecidableEq, Repr

structure Message where
  id : Id
  instanceId : Id
  type : String
  sender : String
  senderKind : String
  payload : Option Json := none
  receivedAt : Nat
  deliveredAt : Option Nat := none
  frameId : Option Id := none
  cancelled : Bool := false
  deriving DecidableEq

/--
A signal the cascade walker delivers on behalf of a run, and the node it is delivered to. No
table keeps this; the store records it so that statements can speak of deliveries.
-/
structure Delivery where
  senderRunId : Id
  signal : Signal
  receiverId : Id
  deriving DecidableEq

structure Store where
  instances : List Instance := []
  nodes : List Node := []
  runScopes : List RunScope := []
  runs : List NodeRun := []
  attributes : List NodeAttributes := []
  waitSet : List WaitRow := []
  claimHandles : List ClaimHandle := []
  claimHolders : List ClaimHolder := []
  outbox : List OutboxRow := []
  frames : List Frame := []
  messages : List Message := []
  deliveries : List Delivery := []
  /-- The handles whose producer answered an `Open` as available; recorded as deliveries are. -/
  opens : List Id := []
  nextId : Id := 1
  clock : Nat := 0

abbrev Tx (α : Type) : Type := Transaction StoreError Store α

namespace Store

variable (s : Store)

def run? (id : Id) : Option NodeRun := s.runs.find? (·.id = id)

def node? (id : Id) : Option Node := s.nodes.find? (·.id = id)

def runScope? (id : Id) : Option RunScope := s.runScopes.find? (·.id = id)

def instance? (id : Id) : Option Instance := s.instances.find? (·.id = id)

def claimHandle? (id : Id) : Option ClaimHandle := s.claimHandles.find? (·.id = id)

def frame? (id : Id) : Option Frame := s.frames.find? (·.frameId = id)

def message? (id : Id) : Option Message := s.messages.find? (·.id = id)

end Store

def newId : Tx Id := do
  let id ← Transaction.read (·.nextId)
  Transaction.write fun s => { s with nextId := s.nextId + 1 }
  return id

theorem newId_bind {α : Type} (k : Id → Tx α) (s : Store) :
    (newId >>= k) s = k s.nextId { s with nextId := s.nextId + 1 } := rfl

end Rimsky
