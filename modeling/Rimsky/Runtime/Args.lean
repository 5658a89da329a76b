import Rimsky.Graph.Subscription
import Rimsky.Persistence.Claims
import Rimsky.Persistence.Runs
import Rimsky.Runtime.Attributes

/-!
# What the runtime is run with

The arguments of a supervisor, the record of an acquisition, the terminal an executor
returns and what a transaction leaves to be done after it is committed. The CEL
predicates of subscriptions, the JSON-schema validator, the producer registry and the
data processors are not part of the repository's own logic and come as functions.
-/

namespace Rimsky

structure RunArgs where
  supervisorId : String
  /-- `CompiledPredicate.Eval` of a non-empty predicate; an evaluation error is no match. -/
  evalWhen : String → Signal → Bool
  /-- The name of the producer registered under a name. -/
  resolveProducer : String → Option String
  expectedAttributesSchemaFor : String → Option AttributeSchema
  /-- `attributes.Validate` at commit: the error, if the bag does not fit the schema. -/
  validate : AttributeSchema → Bag → Option String
  /-- The data processor of a producer: `CommitCandidate` with its metadata, or an error. -/
  commitCandidate : String → Option (Id → String → Except String String) := fun _ => none
  abandonCandidate : String → Option (Id → String → Except String Unit) := fun _ => none
  /-- Whether `ClaimHandles` is there; only the scheduler settles runs without it. -/
  hasClaimHandles : Bool := true

/-- No predicates and no schemas, and every producer is registered under its own name. -/
def RunArgs.plain (supervisorId : String) : RunArgs where
  supervisorId := supervisorId
  evalWhen := fun _ _ => false
  resolveProducer := some
  expectedAttributesSchemaFor := fun _ => none
  validate := fun _ _ => none

inductive LockSpec where
  | named (name : String)
  | claim (producerName claimAlias : String)
  deriving DecidableEq, Repr

structure AcquiredLock where
  claimHandleId : Id
  spec : LockSpec
  producer : Option String := none
  producerLeaseToken : String := ""
  scope : Option RawMessage := none
  address : Option RawMessage := none
  intent : Intent := .rw
  lifetime : ClaimLifetime := .subgraph
  realizedWriteSemantics : String := ""
  isHeld : Bool := false
  deriving DecidableEq

structure SubClaim where
  partitionKey : String
  claimHandleId : Id
  deriving DecidableEq, Repr

/-- The part of an `acquisition` that settlement reads. -/
structure Acquisition where
  nodeRunId : Id
  nodeId : Id
  instanceId : Id
  nodeType : String
  executor : String := ""
  runScopeId : Id
  frameId : Id
  nodeDef : Option TemplateNodeDef := none
  graphName : String := ""
  locks : List AcquiredLock := []
  heldSubgraphs : List HoldingSubgraph := []
  subClaims : List SubClaim := []
  deriving DecidableEq

inductive TerminalKind where
  | complete | errored | infra | park
  deriving DecidableEq, Repr

structure TerminalEvent where
  kind : TerminalKind
  changed : Bool := false
  attributesDel : Bag := []
  changeSummary : String := ""
  tags : List String := []
  scratch : Option String := none
  errorClass : String := ""
  payload : Option Bag := none
  parkResumeAt : Option Nat := none
  deriving DecidableEq

structure PolicyDecision where
  kind : ActionKind
  signal : Signal
  deriving DecidableEq

/-- What is left to be done, in transactions of its own, once a transaction is committed. -/
inductive PostCommit where
  | propagate (runId : Id)
  | requeue (runId : Id) (supervisorId : String)
  | recalculate (nodeId instanceId : Id) (nodeType : String)
  deriving DecidableEq, Repr

/-- What a settlement hands back: the decision it set and the work after the commit. -/
structure Settlement where
  retryDecision : Option PolicyDecision := none
  post : List PostCommit := []
  deriving DecidableEq

inductive TerminalSource where
  | active | held | ownershipBail
  deriving DecidableEq, Repr

inductive TerminalOutcome where
  | commit | abandon | abandonSiblingCancel | abandonDescendantCancel
  deriving DecidableEq, Repr

def TerminalOutcome.isAbandon (o : TerminalOutcome) : Bool := o ≠ .commit

structure ClaimLineageHint where
  instanceId : Id := 0
  frameId : Id := 0
  nodeRunId : Id := 0
  nodeId : Id := 0
  deriving DecidableEq, Repr

structure TerminalDecision where
  claimHandleId : Id
  supervisorId : String
  source : TerminalSource
  outcome : TerminalOutcome
  producer : Option String
  scope : Option RawMessage := none
  address : Option RawMessage := none
  leaseToken : String := ""
  candidateHandle : Option String := none
  producerName : String := ""
  lineageHint : ClaimLineageHint := {}
  parentClaimHandleId : Option Id := none
  deriving DecidableEq

/--
The two functions that settlement calls back into: a gate that fails settles its run, and
a claim handle that is resolved settles its holders and its parent. They are tied
together by `knot`.
-/
structure Rec where
  evaluateOneGate : Id → Tx Unit
  resolveClaimHandleTerminal : TerminalDecision → Tx (List PostCommit)

def Store.template? (s : Store) (instanceId : Id) : Option TemplateSpec :=
  (s.instance? instanceId).map (·.template)

def loadTemplateSpec (instanceId : Id) : Tx TemplateSpec := do
  Transaction.need (.other "loadTemplateSpec: instance not found")
    (← Transaction.read (·.template? instanceId))

theorem loadTemplateSpec_of_found {s : Store} {instanceId : Id} {spec : TemplateSpec}
    (found : s.template? instanceId = some spec) :
    loadTemplateSpec instanceId s = (.ok spec, s) := by
  unfold loadTemplateSpec
  rw [Transaction.read_bind, found]
  rfl

def Store.instanceNodes (s : Store) (instanceId : Id) : List Node :=
  s.nodes.filter (·.instanceId = instanceId)

def templateAttributeDefaultsFor (spec : TemplateSpec) (executor : String) : Bag :=
  (List.lookup executor spec.defaultsByExecutor).getD []

end Rimsky
