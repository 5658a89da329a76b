import Rimsky.Runtime.Walking

/-!
# What settlement does to the store

Settling a run, resolving a claim handle and evaluating a gate call one another without a
bound. All they do to the store is made of a few kinds of changes. `Claiming` lists those made
to claims and queued verbs, and `Footprint` adds them to the ones of `Walking`: a preorder on
stores that allows each kind is kept by every computation of `knot`, however deep it nests. The
rules are stated once here and used at the relations that invariants need.
-/

namespace Rimsky

open Transaction List

/-- The relation allows what the settlement of claims does to them and to the queue of verbs. -/
structure Claiming (R : Store → Store → Prop) : Prop where
  queue : ∀ s outbox nextId, s.nextId ≤ nextId → R s { s with outbox, nextId }
  /-- Claims, where none is added and none moves to another run. -/
  handles : ∀ s kept change claimHolders, (∀ h, (change h).id = h.id) →
    (∀ h, (change h).isHeld = h.isHeld) → (∀ h, (change h).nodeRunId = h.nodeRunId) →
    (∀ x ∈ claimHolders, x ∈ s.claimHolders) →
    R s { s with claimHandles := (s.claimHandles.filter kept).map change, claimHolders }
  holders : ∀ s change, (∀ x, (change x).holderRunId = x.holderRunId) →
    R s { s with claimHolders := s.claimHolders.map change }

/-- The relation allows what settlement does apart from settling runs and signalling. -/
structure Footprint (R : Store → Store → Prop) : Prop extends Walking R, Claiming R

structure RecSteps (R : Store → Store → Prop) (rec : Rec) : Prop where
  gate : ∀ id, Steps R (rec.evaluateOneGate id)
  resolve : ∀ td, Steps R (rec.resolveClaimHandleTerminal td)

variable {R : Store → Store → Prop}

theorem Claiming.mono {R' : Store → Store → Prop} (claiming : Claiming R)
    (weaker : ∀ s s', R s s' → R' s s') : Claiming R' where
  queue s o n le := weaker _ _ (claiming.queue s o n le)
  handles s k c x sameId held bound old :=
    weaker _ _ (claiming.handles s k c x sameId held bound old)
  holders s c same := weaker _ _ (claiming.holders s c same)

theorem Footprint.mono {R' : Store → Store → Prop} (fp : Footprint R)
    (weaker : ∀ s s', R s s' → R' s s') : Footprint R' where
  toWalking := fp.toWalking.mono weaker
  toClaiming := fp.toClaiming.mono weaker

/-- The relation allows any change of runs, wait rows and attribute bags. -/
structure RunBlind (R : Store → Store → Prop) : Prop where
  tables : ∀ s runs waitSet attributes nextId, s.nextId ≤ nextId →
    R s { s with runs, waitSet, attributes, nextId }
  close : ∀ s scope, s.runScope? scope.id = some scope → scope.partitionKey ≠ "" →
    R s (RunScopes.close scope.id s).2
  delete : ∀ s ids, R s (s.deleteRuns ids)
  signal : ∀ s d, R s { s with deliveries := s.deliveries ++ [d] }

variable {args : RunArgs} {rec : Rec}

namespace RunBlind

variable {R : Store → Store → Prop} (blind : RunBlind R)

include blind

theorem runs (s : Store) (runs : List NodeRun) : R s { s with runs } :=
  blind.tables s runs _ _ _ (Nat.le_refl _)

theorem logDelivery (d : Delivery) : Steps R (logDelivery d) :=
  steps_write fun s => blind.signal s d

theorem createCascadePending (nodeId runScopeId frameId : Id) :
    Steps R (Nodes.createCascadePending nodeId runScopeId frameId) := by
  intro s
  rcases Nodes.createCascadePending_store nodeId runScopeId frameId s with
    used | ⟨row, -, -, -, -, -, -, -, inserted⟩
  · rw [used]
    exact blind.tables s _ _ _ _ (Nat.le_succ _)
  · rw [inserted]
    exact blind.tables s _ _ _ _ (Nat.le_succ _)

variable [IsPreorder Store R]

theorem updateRuns (guard : Store → NodeRun → Bool) (change : Nat → NodeRun → NodeRun) :
    Steps R (updateRuns guard change) :=
  steps_updateRuns fun s => blind.runs s _

theorem updateState (id : Id) (state : NodeState) (reason : TransitionReason)
    (sig : Option String) : Steps R (Nodes.updateState id state reason sig) := by
  refine steps_reads fun _ => steps_bind (steps_need _ _) fun _ => ?_
  exact steps_ite (fun _ => steps_bind (blind.updateRuns _ _) fun _ => steps_pure _) fun _ =>
    steps_fail _

theorem recordRunTreeChanged (id : Id) (state : NodeState) (sig : String) (changed : Bool) :
    Steps R (recordRunTreeChanged id state sig changed) :=
  steps_bind (blind.updateRuns _ _) fun _ => steps_check fun _ => steps_pure _

theorem removeForNode (nodeId runScopeId : Id) (supervisorId : String) :
    Steps R (Queue.removeForNode nodeId runScopeId supervisorId) :=
  steps_bind (blind.updateRuns _ _) fun _ => steps_pure _

theorem walking : Walking R where
  aside s _ _ _ le := blind.tables s _ _ _ _ le
  touch s _ _ := blind.runs s _
  close := blind.close
  wake _ _ := by
    refine steps_bind (steps_bind (blind.updateRuns _ _) fun _ => steps_pure _) fun _ => ?_
    refine steps_ite (fun _ => ?_) fun _ => steps_pure _
    exact steps_bind (blind.updateState _ _ _ _) fun _ => steps_pure _
  pend := blind.createCascadePending
  clear _ _ := steps_bind (blind.updateRuns _ _) fun _ =>
    steps_check fun _ => steps_pure _
  drop _ := steps_reads fun _ =>
    steps_ite (fun _ => steps_write fun s => blind.delete s _) fun _ => steps_fail _
  prior s _ _ _ _ := blind.delete s _

theorem acting (supervisorId : String) (nodeRunId nodeId runScopeId : Id) :
    Acting R supervisorId nodeRunId nodeId runScopeId where
  settle _ _ _ _ := blind.updateState _ _ _ _
  record _ _ _ _ := blind.recordRunTreeChanged _ _ _ _
  signal _ _ := blind.logDelivery _
  release := blind.removeForNode _ _ _

theorem holders (nested : RecSteps R rec) : HolderSteps R args rec :=
  fun s _ _ _ _ => blind.walking.settleHolder nested.gate (blind.updateState _ _ _ _)
    (blind.recordRunTreeChanged _ _ _ _) (fun _ _ => blind.logDelivery _) s

theorem failures (nested : RecSteps R rec)
    (release : ∀ acq success, Steps R (releaseLocks args rec acq success))
    (purge : ∀ runId, Steps R (deleteAbandonedClaimHandles runId)) : GateFailureSteps R args rec :=
  fun s _ _ _ _ _ => blind.walking.routeSubstitutionFailureAtGate nested.gate
    (Walking.transitionHolderIfFullyResolved (blind.holders nested) _)
    (blind.acting _ _ _ _) (fun acq success _ _ => release acq success) (purge _) _ s

end RunBlind

theorem Walking.knot [IsPreorder Store R] (walk : Walking R)
    (failures : ∀ rec, RecSteps R rec → GateFailureSteps R args rec)
    (resolving : ∀ rec, RecSteps R rec → Resolving (fun {_} m => Steps R m) args rec) (fuel : Nat) :
    RecSteps R (knot args fuel) := by
  induction fuel with
  | zero => exact ⟨fun _ => steps_fail _, fun _ => steps_fail _⟩
  | succ fuel ih =>
    refine ⟨walk.evaluateOneGateBody (failures _ ih), fun td => ?_⟩
    exact (resolving _ ih).resolveClaimHandleTerminalBody (steps_composes R _) td

namespace Claiming

section Statements

variable {R : Store → Store → Prop} (claiming : Claiming R)

include claiming

theorem deleteHandles {s : Store} (gone : ClaimHandle → Bool) : R s (s.deleteHandles gone) := by
  refine claiming.handles s _ _ _ (fun h => ?_) (fun h => ?_) (fun h => ?_) fun x mem =>
    (mem_filter.mp mem).1
  · split <;> rfl
  · split <;> rfl
  · split <;> rfl

variable [IsPreorder Store R]

theorem newId : Steps R newId := by
  refine steps_reads fun _ => steps_bind (steps_write fun s => ?_) fun _ => steps_pure _
  exact claiming.queue s _ _ (Nat.le_succ _)

theorem enqueueVerb (row : OutboxRow) : Steps R (ProducerVerbOutbox.enqueue row) := by
  refine steps_bind claiming.newId fun _ => steps_write fun s => ?_
  split <;> exact claiming.queue s _ _ (Nat.le_refl _)

theorem updateHandle {id : Id} {guard : ClaimHandle → Bool}
    {change : Nat → ClaimHandle → ClaimHandle}
    (sameId : ∀ now h, (change now h).id = h.id)
    (sameHeld : ∀ now h, (change now h).isHeld = h.isHeld)
    (sameRun : ∀ now h, (change now h).nodeRunId = h.nodeRunId) :
    Steps R (ClaimHandles.update id guard change) := by
  refine steps_reads fun _ => steps_ite (fun _ => steps_write fun s => ?_) fun _ => steps_fail _
  have updated := claiming.handles s (fun _ => true)
    (fun h => if h.id = id && guard h then change s.clock h else h) s.claimHolders (fun h => ?_)
    (fun h => ?_) (fun h => ?_) fun _ mem => mem
  · rwa [filter_true] at updated
  · split
    · exact sameId _ h
    · rfl
  · split
    · exact sameHeld _ h
    · rfl
  · split
    · exact sameRun _ h
    · rfl

theorem promote (id : Id) (supervisorId : String) (state : ClaimHandleState) :
    Steps R (ClaimHandles.promote id supervisorId state) :=
  claiming.updateHandle (fun _ _ => rfl) (fun _ _ => rfl) fun _ _ => rfl

theorem reassign (id : Id) (fromSupervisorId toSupervisorId : String) :
    Steps R (ClaimHandles.reassignHolderSupervisor id fromSupervisorId toSupervisorId) :=
  steps_check fun _ => claiming.updateHandle (fun _ _ => rfl) (fun _ _ => rfl) fun _ _ => rfl

theorem bumpChildren (id : Id) (supervisorId : String) (committed : Bool) (delta : Nat) :
    Steps R (ClaimHandles.bumpChildOutcomeCount id supervisorId committed delta) := by
  refine claiming.updateHandle (fun _ h => ?_) (fun _ h => ?_) fun _ h => ?_
  · split <;> rfl
  · split <;> rfl
  · split <;> rfl

theorem deleteHandle (id : Id) (supervisorId : String) :
    Steps R (ClaimHandles.delete id supervisorId) :=
  steps_reads fun _ =>
    steps_ite (fun _ => steps_write fun _ => claiming.deleteHandles _) fun _ => steps_fail _

theorem deleteResolved (id : Id) : Steps R (ClaimHandles.deleteResolved id) :=
  steps_reads fun _ =>
    steps_ite (fun _ => steps_write fun _ => claiming.deleteHandles _) fun _ => steps_fail _

theorem completeHolders (fits : ClaimHolder → Bool) (state : ClaimHolderState) :
    Steps R (ClaimHolders.completeWhere fits state) := by
  refine steps_reads fun _ => steps_ite (fun _ => steps_write fun s => ?_) fun _ => steps_fail _
  refine claiming.holders s _ fun x => ?_
  split <;> rfl

theorem failHolders (claimHandleId : Id) (supervisorId : String) :
    Steps R (ClaimHolders.failAllActiveByClaimHandle claimHandleId supervisorId) := by
  refine steps_write fun s => ?_
  split
  · refine claiming.holders s _ fun x => ?_
    split <;> rfl
  · exact refl s

end Statements

section Claims

variable {R : Store → Store → Prop} [IsPreorder Store R] (claiming : Claiming R) {args : RunArgs}
  {rec : Rec} (nested : RecSteps R rec)

include claiming

theorem enqueueProducerVerb (td : TerminalDecision) : Steps R (enqueueProducerVerb td) :=
  steps_reads fun _ => claiming.enqueueVerb _

theorem promoteHandleState (td : TerminalDecision) : Steps R (promoteHandleState td) := by
  refine steps_bind (steps_attempt (claiming.promote _ _ _)) fun outcome => ?_
  split
  · exact steps_pure _
  · exact steps_fail _
  · exact steps_pure _

theorem deleteAbandonedClaimHandles (runId : Id) : Steps R (deleteAbandonedClaimHandles runId) :=
  steps_reads fun _ => steps_forM fun _ _ => claiming.deleteResolved _

theorem markClaimHolderForRun (claimHandleId runId : Id) (success : Bool) :
    Steps R (markClaimHolderForRun claimHandleId runId success) :=
  claiming.completeHolders _ _

theorem resolving (resolve : ∀ td, Steps R (rec.resolveClaimHandleTerminal td))
    (holders : HolderSteps R args rec)
    (metadata : KeepsMetadata fun {_} m => Steps R m)
    (close : ∀ children, Steps R (closePartitionScopes children)) :
    Resolving (fun {_} m => Steps R m) args rec where
  resolve := resolve
  holder := Walking.transitionHolderIfFullyResolved holders
  queue := claiming.enqueueProducerVerb
  promote := claiming.promoteHandleState
  delete := claiming.deleteHandle
  reassign := claiming.reassign
  count := claiming.bumpChildren
  failAll := claiming.failHolders
  metadata := metadata
  close := close

theorem releaseLocks (resolving : Resolving (fun {_} m => Steps R m) args rec) (acq : Acquisition)
    (success : Bool) : Steps R (releaseLocks args rec acq success) :=
  resolving.releaseLocks (steps_composes R _) (fun _ _ => claiming.markClaimHolderForRun _ _ _)
    success

end Claims

end Claiming

namespace Footprint

section Nested

variable [IsPreorder Store R] (fp : Footprint R)

include fp

theorem resolving (nested : RecSteps R rec) (holders : HolderSteps R args rec) :
    Resolving (fun {_} m => Steps R m) args rec :=
  fp.toClaiming.resolving nested.resolve holders
    (metadata_composes (steps_composes R StoreError.Plain) fp.recordChildCommitMetadata)
    fp.closePartitionScopes

theorem releaseLocks (nested : RecSteps R rec) (holders : HolderSteps R args rec)
    (acq : Acquisition) (success : Bool) : Steps R (releaseLocks args rec acq success) :=
  fp.toClaiming.releaseLocks (fp.resolving nested holders) acq success

theorem knot (holders : ∀ rec, RecSteps R rec → HolderSteps R args rec)
    (failures : ∀ rec, RecSteps R rec → GateFailureSteps R args rec) (fuel : Nat) :
    RecSteps R (knot args fuel) :=
  fp.toWalking.knot failures (fun rec nested => fp.resolving nested (holders rec nested)) fuel

theorem routeSubstitutionFailureAtGate (nested : RecSteps R rec) (holders : HolderSteps R args rec)
    {row : NodeRun} (acting : Acting R args.supervisorId row.id row.nodeId row.runScopeId)
    (error : SubstitutionError) :
    Steps R (routeSubstitutionFailureAtGate args rec row error) :=
  fp.toWalking.routeSubstitutionFailureAtGate nested.gate
    (Walking.transitionHolderIfFullyResolved holders _) acting
    (fun _ _ _ _ => fp.releaseLocks nested holders _ _) (fp.deleteAbandonedClaimHandles _) error

theorem knot_of_blind (blind : RunBlind R) (fuel : Nat) : RecSteps R (Rimsky.knot args fuel) :=
  fp.knot (fun _ nested => blind.holders nested) (fun _ nested => blind.failures nested
    (fp.releaseLocks nested (blind.holders nested)) fp.deleteAbandonedClaimHandles) fuel

end Nested

end Footprint

/--
The relation allows whatever leaves scopes alone, their deletion with runs, and their closing.
-/
structure ScopeBlind (R : Store → Store → Prop) : Prop where
  same : ∀ s s', s'.runScopes = s.runScopes → R s s'
  delete : ∀ s ids, R s (s.deleteRuns ids)
  close : ∀ s scope, s.runScope? scope.id = some scope → scope.partitionKey ≠ "" →
    R s (RunScopes.close scope.id s).2

namespace ScopeBlind

variable {R : Store → Store → Prop} [IsPreorder Store R] (blind : ScopeBlind R)

include blind

omit [IsPreorder Store R] in
theorem runBlind : RunBlind R where
  tables _ _ _ _ _ _ := blind.same _ _ rfl
  close := blind.close
  delete := blind.delete
  signal _ _ := blind.same _ _ rfl

theorem footprint : Footprint R where
  toWalking := blind.runBlind.walking
  queue _ _ _ _ := blind.same _ _ rfl
  handles _ _ _ _ _ _ _ _ := blind.same _ _ rfl
  holders _ _ _ := blind.same _ _ rfl

theorem knot (args : RunArgs) (fuel : Nat) : RecSteps R (knot args fuel) :=
  blind.footprint.knot_of_blind blind.runBlind fuel

end ScopeBlind

end Rimsky
