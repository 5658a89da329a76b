import Rimsky.Graph.HoldingKeys
import Rimsky.Runtime.Claims

/-!
# The decision about a held claim

`CheckAndFireResolution` decides from the rows of a handle and its holders whether the handle
is resolved, and how. The decision is a function of the store; resolving is a call.

Handle rows carry no alias. Which members of a holding sub-graph have to join before a
commit is looked up under the alias that the acquirer declares first for the handle's
producer, so a handle opened under a later alias of the same producer waits for the members of
another sub-graph; and an acquirer with a bar in its type has no sub-graph under its own name.
-/

namespace Rimsky

open Transaction List Store

variable {s : Store} {row : ClaimHandle} {args : RunArgs} {td : TerminalDecision}

def ClaimHandle.autoOutcome (row : ClaimHandle) (anyFailed : Bool) : TerminalOutcome :=
  let seed : TerminalOutcome := if anyFailed then .abandon else .commit
  if 0 < row.expectedChildrenCount && !anyFailed then aggregateParentOutcome row seed else seed

/-- The handle still waits: for a holder, for a member that has not joined, or for nobody. -/
def Store.awaitsHolders (s : Store) (row : ClaimHandle) : Bool :=
  let holders := s.claimHolders.filter (·.claimHandleId = row.id)
  holders.isEmpty || holders.any (·.state = .active) ||
    (!holders.any (·.state = .failed) && s.expectedInheritorsMissing row holders)

def Store.anyHolderFailed (s : Store) (claimHandleId : Id) : Bool :=
  (s.claimHolders.filter (·.claimHandleId = claimHandleId)).any (·.state = .failed)

def Store.awaitsChildren (s : Store) (row : ClaimHandle) : Bool :=
  0 < row.expectedChildrenCount && !s.anyHolderFailed row.id &&
    row.committedChildrenCount + row.abandonedChildrenCount < row.expectedChildrenCount

/-- What `CheckAndFireResolution` decides; `none` is to leave the handle as it is. -/
def Store.autoTerminal (s : Store) (args : RunArgs) (claimHandleId : Id) :
    Except StoreError (Option TerminalDecision) :=
  match s.claimHandle? claimHandleId with
  | none => .ok none
  | some row =>
    if row.holderSupervisorId ≠ some args.supervisorId || row.state ≠ .active ||
        s.awaitsHolders row then .ok none
    else
      match args.resolveProducer (row.producerName.getD "") with
      | none => .error (.other ("unknown producer " ++ row.producerName.getD ""))
      | some producer =>
        if s.awaitsChildren row then .ok none
        else
          match s.node? row.holderNodeId with
          | none => .error (.other "acquirerInstanceID: node not found")
          | some acquirer => .ok (some (row.decision args.supervisorId .held
              (row.autoOutcome (s.anyHolderFailed row.id)) producer
              (row.hint acquirer.instanceId) row.parentClaimHandleId))

theorem checkAndFireResolution_eq (args : RunArgs) (rec : Rec) (claimHandleId : Id) (s : Store) :
    checkAndFireResolution args rec claimHandleId s =
      match s.autoTerminal args claimHandleId with
      | .error e => (.error e, s)
      | .ok none => (.ok [], s)
      | .ok (some td) => rec.resolveClaimHandleTerminal td s := by
  unfold checkAndFireResolution autoTerminal
  simp only [read_bind, id_eq]
  cases found : s.claimHandle? claimHandleId with
  | none => rfl
  | some row =>
    have same := id_of_claimHandle? found
    subst same
    simp only [awaitsHolders, anyHolderFailed, awaitsChildren,
      ClaimHandle.autoOutcome, producerOf, Bool.or_assoc]
    split
    case isTrue => rfl
    case isFalse =>
      cases args.resolveProducer (row.producerName.getD "") with
      | none => rfl
      | some producer =>
        simp only [need_some, pure_bind]
        split
        case isTrue waits =>
          simp only [waits, ↓reduceIte, pure_apply]
        case isFalse done =>
          simp only [done, acquirerInstanceId, bind_apply, read_apply]
          cases s.node? row.holderNodeId with
          | none => rfl
          | some acquirer => rfl

def FiresWith (args : RunArgs) (claimHandleId : Id) (s : Store) (td : TerminalDecision) : Prop :=
  ∀ rec : Rec, checkAndFireResolution args rec claimHandleId s = rec.resolveClaimHandleTerminal td s

def tellsApart (td : TerminalDecision) : Rec where
  evaluateOneGate := fun _ => pure ()
  resolveClaimHandleTerminal := fun td' => pure (if td' = td then [.propagate 0] else [])

theorem firesWith_iff {claimHandleId : Id} :
    FiresWith args claimHandleId s td ↔ s.autoTerminal args claimHandleId = .ok (some td) := by
  constructor
  · intro fires
    have fired := fires (tellsApart td)
    rw [checkAndFireResolution_eq] at fired
    split at fired
    case h_1 => simp [tellsApart] at fired
    case h_2 => simp [tellsApart] at fired
    case h_3 td' decided =>
      by_cases same : td' = td
      · rw [decided, same]
      · simp [tellsApart, same] at fired
  · intro decided rec
    simp [checkAndFireResolution_eq, decided]

structure Store.Fires (s : Store) (args : RunArgs) (row : ClaimHandle) (td : TerminalDecision) :
    Prop where
  owned : row.holderSupervisorId = some args.supervisorId
  active : row.state = .active
  joined : s.awaitsHolders row = false
  settled : s.awaitsChildren row = false
  outcome : td.outcome = row.autoOutcome (s.anyHolderFailed row.id)
  handle : td.claimHandleId = row.id
  supervisor : td.supervisorId = args.supervisorId
  source : td.source = .held
  parent : td.parentClaimHandleId = row.parentClaimHandleId

theorem autoTerminal_fires {claimHandleId : Id} (found : s.claimHandle? claimHandleId = some row)
    (decided : s.autoTerminal args claimHandleId = .ok (some td)) : s.Fires args row td := by
  simp only [autoTerminal, found] at decided
  split at decided
  case isTrue => simp at decided
  case isFalse guards =>
    simp only [Bool.or_eq_true, decide_eq_true_eq, not_or, not_not] at guards
    rcases guards with ⟨⟨owned, active⟩, joined⟩
    split at decided
    case h_1 => simp at decided
    case h_2 =>
      split at decided
      case isTrue => simp at decided
      case isFalse settled =>
        split at decided
        case h_1 => simp at decided
        case h_2 =>
          cases decided
          exact ⟨owned, active, by simpa using joined, by simpa using settled, rfl, rfl,
            rfl, rfl, rfl⟩

theorem autoTerminal_none {claimHandleId : Id} (found : s.claimHandle? claimHandleId = some row)
    (owned : row.holderSupervisorId = some args.supervisorId) (active : row.state = .active)
    (stays : s.autoTerminal args claimHandleId = .ok none) :
    s.awaitsHolders row ∨ s.awaitsChildren row := by
  by_contra! ready
  simp only [autoTerminal, found, owned, active, ready, ne_eq, not_true_eq_false, decide_false,
    Bool.or_self, Bool.false_eq_true, if_false] at stays
  split at stays
  · cases stays
  · split at stays <;> cases stays

/-- The check leaves the store as it is, or resolves the handle by the decision it comes to. -/
theorem checkAndFireResolution_runs {rec : Rec} {claimHandleId : Id} {s' : Store}
    {post : List PostCommit}
    (run : checkAndFireResolution args rec claimHandleId s = (.ok post, s')) :
    (s.autoTerminal args claimHandleId = .ok none ∧ s' = s) ∨
      ∃ row td, s.claimHandle? claimHandleId = some row ∧ s.Fires args row td ∧
        rec.resolveClaimHandleTerminal td s = (.ok post, s') := by
  rw [checkAndFireResolution_eq] at run
  split at run
  case h_1 => cases run
  case h_2 stays =>
    cases run
    exact .inl ⟨stays, rfl⟩
  case h_3 td decided =>
    cases found : s.claimHandle? claimHandleId with
    | none => simp [autoTerminal, found] at decided
    | some row => exact .inr ⟨row, td, rfl, autoTerminal_fires found decided, run⟩

theorem Store.Fires.noneFailed (fires : s.Fires args row td) (commits : td.outcome = .commit) :
    s.anyHolderFailed row.id = false := by
  have outcome := fires.outcome
  rw [commits] at outcome
  cases failed : s.anyHolderFailed row.id with
  | false => rfl
  | true => simp [ClaimHandle.autoOutcome, failed] at outcome

theorem Store.Fires.completed (fires : s.Fires args row td) (commits : td.outcome = .commit)
    {holder : ClaimHolder} (mem : holder ∈ s.claimHolders)
    (ofHandle : holder.claimHandleId = row.id) : holder.state = .completed := by
  have noneFailed := fires.noneFailed commits
  have joined := fires.joined
  have listed : holder ∈ s.claimHolders.filter (·.claimHandleId = row.id) := by
    simp [mem, ofHandle]
  simp only [anyHolderFailed, any_eq_false] at noneFailed
  simp only [awaitsHolders, Bool.or_eq_false_iff, any_eq_false] at joined
  have notFailed := noneFailed holder listed
  have notActive := joined.1.2 holder listed
  cases state : holder.state with
  | completed => rfl
  | active => simp [state] at notActive
  | failed => simp [state] at notFailed

/-- The members that a commit waits for. -/
def TemplateSpec.holdingMembers (spec : TemplateSpec) (acquirerType heldAlias : String) :
    List String :=
  ((findHoldingSubgraph (holdingSubgraphsForTemplate spec) acquirerType heldAlias).map
    (·.members)).getD []

theorem mem_holdingMembers {spec : TemplateSpec} {acquirerType heldAlias nodeType : String} :
    nodeType ∈ spec.holdingMembers acquirerType heldAlias ↔ '|' ∉ acquirerType.toList ∧
      (HoldingKeys.subgraphKey (acquirerType, heldAlias), nodeType) ∈
        HoldingKeys.subgraphs spec := by
  rw [← HoldingKeys.mem_findHoldingSubgraph, TemplateSpec.holdingMembers]
  cases findHoldingSubgraph (holdingSubgraphsForTemplate spec) acquirerType heldAlias with
  | none => simp
  | some sg => simp

/-- The node declares to hold the alias from the acquirer, as the validator reads it. -/
def TemplateNodeDef.declaresHold (n : TemplateNodeDef) (acquirerType heldAlias : String) : Bool :=
  n.holds.any fun entry => entry.1 = heldAlias && trimmed entry.2.from = acquirerType

/-- The row is the handle that was opened for a claim its acquirer declares. -/
structure ClaimHandle.OpenedFor (row : ClaimHandle) (ref : NodeClaimProducerRef) : Prop where
  lockKind : row.lockKind = .claimScope
  producerName : row.producerName = some ref.name
  intent : row.intent = some ref.intent
  lifetime : row.lifetime = ref.lifetime
  parent : row.parentClaimHandleId = none

def Store.holderType? (s : Store) (holder : ClaimHolder) : Option String :=
  (s.run? holder.holderRunId).bind fun r => (s.node? r.nodeId).map (·.nodeType)

def Store.hasCompletedHolder (s : Store) (claimHandleId : Id) (nodeType : String) : Prop :=
  ∃ holder ∈ s.claimHolders, holder.claimHandleId = claimHandleId ∧ holder.state = .completed ∧
    s.holderType? holder = some nodeType

/-- A commit of a handle opened for the ref is decided only once all its co-holders completed. -/
def CommitsOnlyJoined (spec : TemplateSpec) (acqDef : TemplateNodeDef)
    (ref : NodeClaimProducerRef) :
    Prop :=
  ∀ (args : RunArgs) (s : Store) (claimHandleId : Id) (row : ClaimHandle) (acquirer : Node)
    (td : TerminalDecision),
    s.claimHandle? claimHandleId = some row → row.OpenedFor ref →
    s.node? row.holderNodeId = some acquirer → acquirer.nodeType = acqDef.type →
    s.template? acquirer.instanceId = some spec →
    FiresWith args claimHandleId s td → td.outcome = .commit →
    ∀ member ∈ spec.nodes, member.type ≠ acqDef.type →
      member.declaresHold acqDef.type ref.aliasOf → s.hasCompletedHolder claimHandleId member.type

/--
The acquirer's type has no bar, and whoever holds the alias of the ref is filed under the
acquirer and the first alias of its producer.
-/
def JoinsFirstAlias (spec : TemplateSpec) (acqDef : TemplateNodeDef) (ref : NodeClaimProducerRef) :
    Prop :=
  ∀ member ∈ spec.nodes, member.type ≠ acqDef.type → member.declaresHold acqDef.type ref.aliasOf →
    '|' ∉ acqDef.type.toList ∧
      (HoldingKeys.subgraphKey (acqDef.type, acqDef.aliasOfProducer ref.name), member.type) ∈
        HoldingKeys.subgraphs spec

instance (spec : TemplateSpec) (acqDef : TemplateNodeDef) (ref : NodeClaimProducerRef) :
    Decidable (JoinsFirstAlias spec acqDef ref) := by
  unfold JoinsFirstAlias
  infer_instance

section Alias

variable {hooks : RegistryHooks} {spec : TemplateSpec} {acqDef : TemplateNodeDef}
  {ref : NodeClaimProducerRef}

theorem aliasOfProducer_declared (declared : ref ∈ acqDef.claimProducers) :
    ∃ first ∈ acqDef.claimProducers, first.name = ref.name ∧
      acqDef.aliasOfProducer ref.name = first.aliasOf := by
  cases found : acqDef.claimProducers.find? (·.name = ref.name) with
  | none =>
    have absent := find?_eq_none.mp found ref declared
    simp at absent
  | some first =>
    refine ⟨first, mem_of_find?_eq_some found, by simpa using find?_some found, ?_⟩
    simp [TemplateNodeDef.aliasOfProducer, found]

theorem holder_of_not_missing (accepted : validateClaims hooks spec = [])
    (mem : acqDef ∈ spec.nodes) (declared : ref ∈ acqDef.claimProducers) {acquirer : Node}
    (opened : row.OpenedFor ref) (known : s.node? row.holderNodeId = some acquirer)
    (ofType : acquirer.nodeType = acqDef.type)
    (template : s.template? acquirer.instanceId = some spec) {holders : List ClaimHolder}
    (joined : s.expectedInheritorsMissing row holders = false) {nodeType : String}
    (member : nodeType ∈ spec.holdingMembers acqDef.type (acqDef.aliasOfProducer ref.name))
    (other : nodeType ≠ acqDef.type) :
    ∃ holder ∈ holders, s.holderType? holder = some nodeType := by
  rcases aliasOfProducer_declared declared with ⟨first, firstMem, -, firstAlias⟩
  have named := accepted_aliasOf_ne_empty accepted mem firstMem
  rw [firstAlias] at member
  have acquirerMember : acqDef.type ∈ spec.holdingMembers acqDef.type first.aliasOf :=
    mem_holdingMembers.mpr ⟨(mem_holdingMembers.mp member).1,
      HoldingKeys.mem_subgraphs_of_declared mem firstMem⟩
  cases found : findHoldingSubgraph (holdingSubgraphsForTemplate spec) acqDef.type
    first.aliasOf with
  | none => simp [TemplateSpec.holdingMembers, found] at member
  | some sg =>
    simp only [TemplateSpec.holdingMembers, found, Option.map_some, Option.getD_some]
      at member acquirerMember
    have held : 1 < sg.members.length := by
      have both : [acqDef.type, nodeType] ⊆ sg.members := by
        simp [acquirerMember, member]
      exact (subperm_of_subset (by simpa using other.symm) both).length_le
    simp only [expectedInheritorsMissing, known, template, ofType,
      lookupNodeDef_of_mem accepted mem, opened.producerName, Option.getD_some, firstAlias, found,
      HoldingSubgraph.isHeld, Bool.and_eq_false_iff, decide_eq_false_iff_not,
        any_eq_false] at joined
    rcases joined with (absurd | few) | present
    · exact absurd.elim named
    · exact (few held).elim
    · have typed := present nodeType member
      simp only [Bool.not_eq_true', Bool.not_eq_false, contains_eq_mem, decide_eq_true_eq,
        mem_filterMap] at typed
      exact typed

theorem commitsOnlyJoined_of_joinsFirstAlias (accepted : validateClaims hooks spec = [])
    (mem : acqDef ∈ spec.nodes) (declared : ref ∈ acqDef.claimProducers)
    (joins : JoinsFirstAlias spec acqDef ref) : CommitsOnlyJoined spec acqDef ref := by
  intro args s claimHandleId row acquirer td found opened known ofType template fired commits
    member memberMem other holds
  have same := id_of_claimHandle? found
  subst same
  have fires := autoTerminal_fires found (firesWith_iff.mp fired)
  have noneFailed := fires.noneFailed commits
  have nobodyMissing : s.expectedInheritorsMissing row
      (s.claimHolders.filter (·.claimHandleId = row.id)) = false := by
    have joined := fires.joined
    unfold anyHolderFailed at noneFailed
    simp only [awaitsHolders, noneFailed, Bool.not_false, Bool.true_and,
      Bool.or_eq_false_iff] at joined
    exact joined.2
  have listed := mem_holdingMembers.mpr (joins member memberMem other holds)
  rcases holder_of_not_missing accepted mem declared opened known ofType template nobodyMissing
    listed other with ⟨holder, holderMem, holderType⟩
  rw [mem_filter, decide_eq_true_eq] at holderMem
  exact ⟨holder, holderMem.1, holderMem.2, fires.completed commits holderMem.1 holderMem.2,
    holderType⟩

def joinedNode (nodeType : String) (i : Nat) : Node where
  id := i
  instanceId := 1
  nodeType := nodeType

def joinedRun (i : Nat) : NodeRun where
  id := i
  nodeId := i
  enqueuedAt := 0
  state := .held
  creationReason := .cascade
  sequence := 0
  frameId := 1
  runScopeId := 1

def joinedHolder (i : Nat) : ClaimHolder where
  id := i
  claimHandleId := 1
  holderRunId := i
  state := .completed

def joinedHandle (ref : NodeClaimProducerRef) : ClaimHandle where
  id := 1
  lockKind := .claimScope
  producerName := some ref.name
  intent := some ref.intent
  lifetime := ref.lifetime
  holderSupervisorId := some "sup"
  holderNodeId := 1
  claimedAt := 0
  expiresAt := 0
  frameId := some 1
  nodeRunId := some 1
  isHeld := true

def joinedStore (spec : TemplateSpec) (ref : NodeClaimProducerRef) (types : List String) :
    Store where
  instances := [{ id := 1, template := spec }]
  nodes := (types.zipIdx 1).map fun entry => joinedNode entry.1 entry.2
  runs := (types.zipIdx 1).map fun entry => joinedRun entry.2
  claimHandles := [joinedHandle ref]
  claimHolders := (types.zipIdx 1).map fun entry => joinedHolder entry.2

def joinedArgs : RunArgs := .plain "sup"

section Joined

variable {types : List String} {nodeType : String} {i : Nat}

theorem joinedStore_node (mem : (nodeType, i) ∈ types.zipIdx 1) :
    (joinedStore spec ref types).node? i = some (joinedNode nodeType i) :=
  find?_numbered joinedNode (fun _ _ => rfl) mem

theorem joinedStore_run (mem : (nodeType, i) ∈ types.zipIdx 1) :
    (joinedStore spec ref types).run? i = some (joinedRun i) :=
  find?_numbered (fun _ => joinedRun) (fun _ _ => rfl) mem

theorem joinedStore_holderType (mem : (nodeType, i) ∈ types.zipIdx 1) :
    (joinedStore spec ref types).holderType? (joinedHolder i) = some nodeType := by
  have run : (joinedStore spec ref types).run? (joinedHolder i).holderRunId = some (joinedRun i) :=
    joinedStore_run mem
  have node : (joinedStore spec ref types).node? (joinedRun i).nodeId =
    some (joinedNode nodeType i) := joinedStore_node mem
  simp only [holderType?, run, Option.bind_some, node, Option.map_some, joinedNode]

theorem joinedStore_holders :
    (joinedStore spec ref types).claimHolders.filter (·.claimHandleId = 1) =
      (joinedStore spec ref types).claimHolders := by
  rw [filter_eq_self]
  intro holder mem
  rcases mem_map.mp mem with ⟨entry, -, rfl⟩
  rfl

theorem joinedStore_completed {holder : ClaimHolder}
    (mem : holder ∈ (joinedStore spec ref types).claimHolders) :
    holder.state = .completed ∧
      ∃ nodeType ∈ types, (joinedStore spec ref types).holderType? holder = some nodeType := by
  rcases mem_map.mp mem with ⟨⟨nodeType, i⟩, entryMem, rfl⟩
  exact ⟨rfl, nodeType, fst_mem_of_mem_zipIdx entryMem, joinedStore_holderType entryMem⟩

theorem joinedStore_joined (mem : nodeType ∈ types) :
    ∃ holder ∈ (joinedStore spec ref types).claimHolders,
      (joinedStore spec ref types).holderType? holder = some nodeType := by
  rw [← zipIdx_map_fst 1 types] at mem
  rcases mem_map.mp mem with ⟨⟨_, i⟩, entryMem, rfl⟩
  exact ⟨joinedHolder i, mem_map.mpr ⟨_, entryMem, rfl⟩, joinedStore_holderType entryMem⟩

end Joined

section FirstAlias

variable (accepted : validateClaims hooks spec = []) (mem : acqDef ∈ spec.nodes)
  {types : List String}
  (members : spec.holdingMembers acqDef.type (acqDef.aliasOfProducer ref.name) ⊆ types)
  (head : (acqDef.type, 1) ∈ types.zipIdx 1)

include accepted mem members head

theorem joinedStore_nobodyMissing :
    (joinedStore spec ref types).expectedInheritorsMissing (joinedHandle ref)
      (joinedStore spec ref types).claimHolders = false := by
  have acquirer : (joinedStore spec ref types).node? (joinedHandle ref).holderNodeId =
    some (joinedNode acqDef.type 1) := joinedStore_node head
  have template : (joinedStore spec ref types).template? 1 = some spec := rfl
  have producer : (joinedHandle ref).producerName.getD "" = ref.name := rfl
  have present : ∀ nodeType ∈ types, nodeType ∈ (joinedStore spec ref types).claimHolders.filterMap
      (joinedStore spec ref types).holderType? := by
    intro nodeType typeMem
    exact mem_filterMap.mpr (joinedStore_joined typeMem)
  simp only [expectedInheritorsMissing, acquirer, joinedNode, template, producer,
    lookupNodeDef_of_mem accepted mem]
  simp only [TemplateSpec.holdingMembers] at members
  split
  case h_1 => rfl
  case h_2 sg found =>
    simp only [found, Option.map_some, Option.getD_some] at members
    rw [Bool.and_eq_false_iff, any_eq_false]
    right
    intro nodeType typeMem
    simpa [holderType?] using present nodeType (members typeMem)

theorem joinedStore_commits :
    ∃ td, (joinedStore spec ref types).autoTerminal joinedArgs 1 = .ok (some td) ∧
      td.outcome = .commit := by
  have found : (joinedStore spec ref types).claimHandle? 1 = some (joinedHandle ref) := rfl
  have acquirer : (joinedStore spec ref types).node? (joinedHandle ref).holderNodeId =
    some (joinedNode acqDef.type 1) := joinedStore_node head
  have holders : (joinedStore spec ref types).claimHolders.filter
      (·.claimHandleId = (joinedHandle ref).id) = (joinedStore spec ref types).claimHolders :=
    joinedStore_holders
  have noneFailed : (joinedStore spec ref types).anyHolderFailed (joinedHandle ref).id = false := by
    rw [anyHolderFailed, holders, any_eq_false]
    intro holder holderMem
    simp [(joinedStore_completed holderMem).1]
  have joined : (joinedStore spec ref types).awaitsHolders (joinedHandle ref) = false := by
    have someone : (joinedStore spec ref types).claimHolders.isEmpty = false := by
      rw [isEmpty_eq_false_iff_exists_mem]
      exact ⟨joinedHolder 1, mem_map.mpr ⟨_, head, rfl⟩⟩
    have noneActive : (joinedStore spec ref types).claimHolders.any (·.state = .active) =
        false := by
      rw [any_eq_false]
      intro holder holderMem
      simp [(joinedStore_completed holderMem).1]
    rw [awaitsHolders, holders, someone, noneActive,
      joinedStore_nobodyMissing accepted mem members head, Bool.and_false]
    rfl
  have settled : (joinedStore spec ref types).awaitsChildren (joinedHandle ref) = false := rfl
  simp only [autoTerminal, found, joined, settled, acquirer, noneFailed]
  exact ⟨_, rfl, rfl⟩

end FirstAlias

/--
A claim is committed only once all its co-holders have completed if and only if, where it has
any, the acquirer's type has no bar and each of them also joins the alias that the acquirer
declares first for the producer.
-/
theorem commitsOnlyJoined_iff (accepted : validateClaims hooks spec = [])
    (mem : acqDef ∈ spec.nodes) (declared : ref ∈ acqDef.claimProducers) :
    CommitsOnlyJoined spec acqDef ref ↔ JoinsFirstAlias spec acqDef ref := by
  refine ⟨?_, commitsOnlyJoined_of_joinsFirstAlias accepted mem declared⟩
  intro joined member memberMem other holds
  let types := acqDef.type :: spec.holdingMembers acqDef.type (acqDef.aliasOfProducer ref.name)
  have head : (acqDef.type, 1) ∈ types.zipIdx 1 := by simp [types]
  have members : spec.holdingMembers acqDef.type (acqDef.aliasOfProducer ref.name) ⊆ types :=
    subset_cons_self _ _
  -- the handle is committed with only the members of the first alias
  rcases joinedStore_commits accepted mem members head with ⟨td, decided, commits⟩
  rcases joined joinedArgs (joinedStore spec ref types) 1 (joinedHandle ref) _ td rfl
    ⟨rfl, rfl, rfl, rfl, rfl⟩ (joinedStore_node head) rfl rfl (firesWith_iff.mpr decided) commits
    member memberMem other holds with ⟨holder, holderMem, -, -, ofMember⟩
  rcases (joinedStore_completed holderMem).2 with ⟨nodeType, typeMem, ofType⟩
  rw [ofMember, Option.some.injEq] at ofType
  subst ofType
  rcases mem_cons.mp typeMem with acquirer | listed
  · exact (other acquirer).elim
  · exact mem_holdingMembers.mp listed

end Alias

def vaultWriter : TemplateNodeDef where
  type := "writer"
  executor := "worker"
  claimProducers := [
    { name := "vault", selector := "drafts", «alias» := "drafts" },
    { name := "vault", selector := "ledger", «alias» := "ledger" }]

/-- A writer with two claims at one vault, the second of which a reader holds along. -/
def sharedVault : TemplateSpec where
  nodes := [
    vaultWriter,
    { type := "reader", executor := "worker"
      holds := [("ledger", { «from» := "writer" })]
      subscribes := [{ node := "writer", type := "terminal/success" }] }]

def sharedVaultHooks : RegistryHooks where
  checkScopeDirectives := fun _ _ => []

def sharedVaultStore : Store where
  instances := [{ id := 1, template := sharedVault }]
  nodes := [joinedNode "writer" 1, joinedNode "reader" 2]
  runs := [joinedRun 1]
  claimHandles := [
    { joinedHandle { name := "vault" } with
      id := 2, isHeld := false, state := .committed, holderSupervisorId := none },
    joinedHandle { name := "vault" }]
  claimHolders := [joinedHolder 1]

/-- The ledger is committed although the reader never joined. -/
theorem sharedVault_commits_unjoined :
    validateClaims sharedVaultHooks sharedVault = [] ∧
      ∃ acqDef ∈ sharedVault.nodes, ∃ ref ∈ acqDef.claimProducers,
        ¬CommitsOnlyJoined sharedVault acqDef ref := by
  refine ⟨by decide +kernel, _, mem_cons_self, _, mem_cons_of_mem _ mem_cons_self, ?_⟩
  intro joined
  have decided : ∃ td, sharedVaultStore.autoTerminal joinedArgs 1 = .ok (some td) ∧
      td.outcome = .commit := ⟨_, by rfl, by rfl⟩
  rcases decided with ⟨td, decided, commits⟩
  have completed := joined joinedArgs sharedVaultStore 1 _ _ td rfl ⟨rfl, rfl, rfl, rfl,
    rfl⟩ rfl rfl rfl
    (firesWith_iff.mpr decided) commits _ (mem_cons_of_mem _ mem_cons_self) (by decide)
    (by decide)
  rcases completed with ⟨holder, mem, -, -, ofReader⟩
  rw [mem_singleton.mp mem] at ofReader
  revert ofReader
  decide

def twoVaults : TemplateSpec where
  nodes := [
    { type := "writer", executor := "worker"
      claimProducers := [
        { name := "vault", selector := "drafts", «alias» := "drafts" },
        { name := "archive", selector := "ledger", «alias» := "ledger" }] },
    { type := "reader", executor := "worker"
      holds := [("ledger", { «from» := "writer" })]
      subscribes := [{ node := "writer", type := "terminal/success" }] }]

theorem twoVaults_commits_joined :
    ∃ acqDef ∈ twoVaults.nodes, ∃ ref ∈ acqDef.claimProducers,
      ref.aliasOf = "ledger" ∧ CommitsOnlyJoined twoVaults acqDef ref := by
  refine ⟨_, mem_cons_self, _, mem_cons_of_mem _ mem_cons_self, by decide, ?_⟩
  have accepted : validateClaims sharedVaultHooks twoVaults = [] := by decide +kernel
  exact (commitsOnlyJoined_iff accepted mem_cons_self
    (mem_cons_of_mem _ mem_cons_self)).mpr (by decide)

end Rimsky
