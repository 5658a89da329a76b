import Rimsky.Foundation.Json

/-!
# Template specifications

The part of `foundation/spec` that the runtime reads: node definitions with their
claim producers, locks, attribute schema, error policies, subscriptions, holds and
fan-out, and the graphs they come from. Template text that nothing at run time reads
(descriptions, versions, publishers, tags) is left out.
-/

namespace Rimsky

/-- The cascade mode of a node; the empty mode is `mostRecent`. -/
inductive CascadeMode where
  | mostRecent | sequenced | idempotentQueue | idempotentSettled
  deriving DecidableEq, Repr

inductive AggregationKind where
  | strict | threshold | bestEffort | first
  deriving DecidableEq, Repr

structure AggregationPolicy where
  kind : AggregationKind
  maxFailures : Int := 0
  deriving DecidableEq, Repr

inductive ClaimLifetime where
  | subgraph | durable
  deriving DecidableEq, Repr

inductive Intent where
  | r | rw
  deriving DecidableEq, Repr

/--
One property of an attribute schema. A `source` that is not a string reads as the
empty text, which the code passes over.
-/
structure SchemaProperty where
  type : Option Json := none
  source : Option String := none
  default : Option Json := none
  deriving DecidableEq

/--
An attribute schema, with the properties the runtime reads; what only the JSON-schema
validator reads is left out.
-/
structure AttributeSchema where
  properties : Option (List (String × SchemaProperty)) := none
  deriving DecidableEq

/-- An action named by an error policy; `unknown` is any other text. -/
inductive ActionKind where
  | retry | giveUp | pass | releaseAndRequeue | unknown
  deriving DecidableEq, Repr

structure ErrorTypePolicy where
  action : ActionKind
  reason : String := ""
  deriving DecidableEq, Repr

structure SubscriptionEntry where
  node : String := ""
  type : String
  «when» : String := ""
  forceUpstreamRefresh : Bool := false
  resolvesViaCallingNode : Bool := false
  deriving DecidableEq, Repr

structure NodeClaimProducerRef where
  name : String
  selector : String := ""
  intent : Intent := .rw
  «alias» : String := ""
  lifetime : ClaimLifetime := .subgraph
  deriving DecidableEq, Repr

/-- `AliasOf`: the declared alias, or else the producer's name. -/
def NodeClaimProducerRef.aliasOf (ref : NodeClaimProducerRef) : String :=
  if ref.«alias» ≠ "" then ref.«alias» else ref.name

structure HoldsBinding where
  «from» : String
  as : String := ""
  deriving DecidableEq, Repr

structure FanOutSpec where
  claim : String
  partitionRequest : String := ""
  parallelism : Nat := 0
  errorPolicy : AggregationPolicy
  deriving DecidableEq, Repr

structure TemplateNodeDef where
  type : String
  executor : String := ""
  claimProducers : List NodeClaimProducerRef := []
  locks : List String := []
  attributes : Option AttributeSchema := none
  errorTypes : List (String × ErrorTypePolicy) := []
  subscribes : List SubscriptionEntry := []
  maxRetries : Option Nat := none
  delegate : String := ""
  holds : List (String × HoldsBinding) := []
  fanOut : Option FanOutSpec := none
  isSubgraphEntryAbsorbed : Bool := false
  isSubgraphExit : Bool := false
  cascadeMode : CascadeMode := .mostRecent
  deriving DecidableEq

structure GraphSpec where
  name : String
  entry : String := ""
  exit : String := ""
  nodes : List TemplateNodeDef
  deriving DecidableEq

def mainGraphName : String := "main"

inductive MessageQueueMode where
  | backlog | coalesce
  deriving DecidableEq, Repr

structure TemplateSpec where
  nodes : List TemplateNodeDef
  graphs : List GraphSpec := []
  /-- `Defaults.Attributes.ByExecutor`. -/
  defaultsByExecutor : List (String × Bag) := []
  /-- The types of the declared message schemas. -/
  messages : List String := []
  deriving DecidableEq

def TemplateSpec.lookupNodeDef (spec : TemplateSpec) (type : String) : Option TemplateNodeDef :=
  spec.nodes.find? (·.type == type)

end Rimsky
