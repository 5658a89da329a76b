import Mathlib.Data.List.Sort
import Rimsky.Foundation.Signal
import Rimsky.Foundation.Spec
import Rimsky.Graph.SubstitutionFacts

/-!
# Subscription edges and holding sub-graphs

`graph/node`: the edges a template's subscriptions give rise to, the upstreams a
subscription refreshes by force, and the sub-graphs of nodes that hold one claim
together. The members of a sub-graph are filed under the acquirer and the alias joined by a
bar, and the keys are cut apart again at their first bar. Registered templates have passed
validation, so every `when` compiles.
-/

namespace Rimsky

structure SubscriptionEdge where
  receiverNodeType : String
  typePattern : String
  /-- The source of the compiled predicate; the empty text is no predicate. -/
  whenExpr : String := ""
  forceUpstreamRefresh : Bool := false
  resolvesViaCallingNode : Bool := false
  deriving DecidableEq, Repr

/-- The edges with the node type of their sender, in the order they were inserted. -/
abbrev SubscriptionEdgeMap := List (String × SubscriptionEdge)

namespace SubscriptionEdgeMap

variable (edges : SubscriptionEdgeMap)

/-- `Insert`; an edge that is there already is not added again. -/
def insert (sender : String) (edge : SubscriptionEdge) : SubscriptionEdgeMap :=
  if edges.contains (sender, edge) then edges else edges ++ [(sender, edge)]

def isWildcard (pattern : String) : Bool := decide (['*'] <:+ pattern.toList)

def patternSegments (pattern : String) : List (List Char) :=
  if isWildcard pattern then splitSegments (trimSuffix ['/'] (trimSuffix ['*'] pattern.toList))
  else splitSegments pattern.toList

def ofSender (sender : String) : List SubscriptionEdge :=
  (edges.filter (·.1 = sender)).map (·.2)

/-- `Match`: the wildcards on the way down the path, then the edges at its end. -/
def «match» (sender type : String) : List SubscriptionEdge :=
  let path := splitSegments type.toList
  let mine := edges.ofSender sender
  (path.inits.flatMap fun above => mine.filter fun e =>
      isWildcard e.typePattern && patternSegments e.typePattern = above) ++
    mine.filter fun e => !isWildcard e.typePattern && patternSegments e.typePattern = path

def receiverNodeTypesForSender (sender : String) : List String :=
  ((edges.ofSender sender).map (·.receiverNodeType)).eraseDups

def senderNodeTypesForReceiver (receiver : String) : List String :=
  ((edges.filter fun e => e.1 ≠ "" && e.2.receiverNodeType = receiver).map (·.1)).eraseDups

def callingNodeSenderTypesForReceiver (receiver : String) :
    List String :=
  ((edges.filter fun e => e.1 ≠ "" && e.2.receiverNodeType = receiver &&
    e.2.resolvesViaCallingNode).map (·.1)).eraseDups

end SubscriptionEdgeMap

variable (n : TemplateNodeDef) (spec : TemplateSpec)

/-- `parseSubstitutionDirective`: the prefix and the type name a directive refers to. -/
def parseSubstitutionDirective (body : List Char) : Option (String × String) :=
  let shape := parseDirectiveShape (trimSpace body)
  if shape.multiPipe then none
  else match directiveParts shape.body with
    | "nodes" :: typeName :: "attribute" :: _ =>
      if typeName = "" then none else some ("nodes", typeName)
    | "messages" :: typeName :: _ => if typeName = "" then none else some ("messages", typeName)
    | _ => none

def TemplateNodeDef.sources : List String :=
  (((n.attributes.bind (·.properties)).getD []).filterMap fun p => p.2.source) ++
    n.claimProducers.map (·.selector) ++ n.locks ++
    (n.fanOut.map (·.partitionRequest)).toList

def parseSubstitutionRefsFromAttributes : List (String × String) :=
  ((n.sources.flatMap sourceDirectives).filterMap parseSubstitutionDirective).filter fun ref =>
    ref.1 ≠ "nodes" || ref.2 ≠ n.type

def edgeFromSubscription (s : SubscriptionEntry) (receiverType : String) : SubscriptionEdge where
  receiverNodeType := receiverType
  typePattern := s.type
  whenExpr := s.when
  forceUpstreamRefresh := s.forceUpstreamRefresh
  resolvesViaCallingNode := s.resolvesViaCallingNode

def subgraphInternalNodeTypes : List String :=
  (spec.graphs.filter (·.name ≠ mainGraphName)).flatMap fun g => g.nodes.map (·.type)

/-- The node subscribes to another one, or refers to another one or to a message. -/
def TemplateNodeDef.hasUpstream : Bool :=
  n.subscribes.any (fun s => s.node ≠ n.type) || !(parseSubstitutionRefsFromAttributes n).isEmpty

/-- `BuildSubscriptionEdges`: the declared edges, and one from the empty message to each root. -/
def buildSubscriptionEdges : SubscriptionEdgeMap :=
  let declared : SubscriptionEdgeMap := spec.nodes.foldl (fun edges n =>
    n.subscribes.foldl (fun edges s =>
      SubscriptionEdgeMap.insert edges s.node (edgeFromSubscription s n.type)) edges) []
  spec.nodes.foldl (fun edges n =>
    if (subgraphInternalNodeTypes spec).contains n.type || n.hasUpstream then edges
    else SubscriptionEdgeMap.insert edges "" {
      receiverNodeType := n.type, typePattern := "terminal/success" }) declared

/-- `hardDepSendersOf`: the upstreams a node refreshes by force. -/
def hardDepSendersOf : List String :=
  ((n.subscribes.filter fun s => s.forceUpstreamRefresh && s.node ≠ "" && s.node ≠ n.type).map
    (·.node)).eraseDups

/-- The entry of `BuildHardDepEdges` for a receiver type; the last definition of a type counts. -/
def hardDepEdges (receiverType : String) : List String :=
  (((spec.nodes.filter (·.type = receiverType)).map hardDepSendersOf).filter
    (!·.isEmpty)).getLast?.getD []

def requiredClaimProducers : List String :=
  ((n.claimProducers.map (·.name)).filter (· ≠ "")).eraseDups

structure HoldingSubgraph where
  acquirerType : String
  «alias» : String
  members : List String
  deriving DecidableEq, Repr

def HoldingSubgraph.isHeld (h : HoldingSubgraph) : Bool := 1 < h.members.length

/-- The holds of a node that make it a member of another node's sub-graph. -/
def TemplateNodeDef.heldFrom : List (String × String) :=
  (n.holds.filter fun (heldAlias, hb) =>
    hb.from ≠ "" && heldAlias ≠ "" && hb.from ≠ n.type).map fun (heldAlias, hb) =>
      (hb.from, heldAlias)

namespace HoldingKeys

/-- The text the members of a sub-graph are filed under. -/
def subgraphKey (pair : String × String) : String := pair.1 ++ "|" ++ pair.2

/-- `splitSubgraphKey`: cut at the first bar; the alias of a key without a bar is empty. -/
def splitSubgraphKey (key : String) : String × String :=
  let acquirer := key.toList.takeWhile (· ≠ '|')
  (String.ofList acquirer, String.ofList (key.toList.drop (acquirer.length + 1)))

/-- What the loop over the nodes enters for a node: pairs, each with a member. -/
def entered : List ((String × String) × String) :=
  n.claimProducers.map (fun ref => ((n.type, ref.aliasOf), n.type)) ++
    n.heldFrom.flatMap fun pair => [(pair, pair.1), (pair, n.type)]

def subgraphs : List (String × String) :=
  (spec.nodes.flatMap entered).map fun (pair, member) => (subgraphKey pair, member)

def subgraphOf (key : String) : HoldingSubgraph :=
  { acquirerType := (splitSubgraphKey key).1, «alias» := (splitSubgraphKey key).2
    members := (((subgraphs spec).filter (·.1 = key)).map (·.2)).eraseDups.insertionSort (· ≤ ·) }

end HoldingKeys

open HoldingKeys in
def holdingSubgraphsForTemplate : List HoldingSubgraph :=
  (((subgraphs spec).map (·.1)).eraseDups.map (subgraphOf spec)).insertionSort fun a b =>
    a.acquirerType < b.acquirerType ∨ a.acquirerType = b.acquirerType ∧ a.alias ≤ b.alias

def findHoldingSubgraph (subgraphs : List HoldingSubgraph) (acquirerType heldAlias : String) :
    Option HoldingSubgraph :=
  subgraphs.find? fun sg => sg.acquirerType = acquirerType && sg.alias = heldAlias

def isAliasHeld (subgraphs : List HoldingSubgraph) (acquirerType heldAlias : String) : Bool :=
  (findHoldingSubgraph subgraphs acquirerType heldAlias).any (·.isHeld)

/-- `subgraphMembersIncludingType`: all nodes that hold a claim together with the node. -/
def subgraphMembersIncludingType (nodeType : String) : List String :=
  if nodeType = "" then []
  else ((holdingSubgraphsForTemplate spec).filter (·.members.contains nodeType)).flatMap (·.members)

end Rimsky
