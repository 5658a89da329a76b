import Rimsky.Runtime.Propagation
import Rimsky.Runtime.Signalling

/-!
# Programs of settlement

Resolving a claim handle, applying an error policy and applying a terminal are programs made of
statements about claims, moves of the run that settles, signals and draining. A property of
transactions that composes holds of them if it holds of these.
-/

namespace Rimsky

open Transaction StoreError

/-- The metadata of a child's commit is kept with a parent that was just looked up. -/
def KeepsMetadata (T : ∀ {α : Type}, Tx α → Prop) : Prop :=
  ∀ (parentId childId : Id) (outcome : TerminalOutcome) (metadata : Option String)
    (rest : ClaimHandle → Tx (List PostCommit)), (∀ parent, T (rest parent)) → T (do
      match ← read (·.claimHandle? parentId) with
      | none => return []
      | some parent =>
        recordChildCommitMetadata parent childId outcome metadata
        rest parent)

/-- The property holds of the statements that resolve claims and of the functions called back. -/
structure Resolving (T : ∀ {α : Type}, Tx α → Prop) (args : RunArgs) (rec : Rec) : Prop where
  resolve : ∀ td, T (rec.resolveClaimHandleTerminal td)
  holder : ∀ id, T (transitionHolderIfFullyResolved args rec id)
  queue : ∀ td, T (enqueueProducerVerb td)
  promote : ∀ td, T (promoteHandleState td)
  delete : ∀ id supervisorId, T (ClaimHandles.delete id supervisorId)
  reassign : ∀ id supervisorId supervisorId',
    T (ClaimHandles.reassignHolderSupervisor id supervisorId supervisorId')
  count : ∀ id supervisorId committed delta,
    T (ClaimHandles.bumpChildOutcomeCount id supervisorId committed delta)
  failAll : ∀ id supervisorId, T (ClaimHolders.failAllActiveByClaimHandle id supervisorId)
  metadata : KeepsMetadata T
  close : ∀ children, T (closePartitionScopes children)

structure Settling (T : ∀ {α : Type}, Tx α → Prop) (args : RunArgs) (rec : Rec)
    (acq : Acquisition) : Prop where
  emits : Emits T args rec acq.sender
  gate : ∀ id, T (rec.evaluateOneGate id)
  drain : T (WaitSet.markDrainedBySender acq.frameId acq.nodeRunId)
  unclaim : T (Queue.removeForNode acq.nodeId acq.runScopeId args.supervisorId)
  scratch : ∀ text, T (applyTerminalScratch acq text)
  counter : ∀ n, T (Nodes.updateRunEvaluatorState acq.nodeRunId n)
  stamp : T (Queue.stampPriorDispatch acq.nodeRunId acq.nodeRunId "retry_after_error")
  release : ∀ success, T (releaseLocks args rec acq success)
  purge : T (deleteAbandonedClaimHandles acq.nodeRunId)
  holder : T (transitionHolderIfFullyResolved args rec acq.nodeRunId)
  settle : ∀ state reason sig, state = .held ∨ state.isTerminal →
    T (Nodes.updateState acq.nodeRunId state reason sig)
  record : ∀ state sig changed, state.isTerminal →
    T (recordRunTreeChanged acq.nodeRunId state sig changed)

theorem Settling.mono {T T' : ∀ {α : Type}, Tx α → Prop} {args : RunArgs} {rec : Rec}
    {acq : Acquisition} (settling : Settling T args rec acq)
    (weaker : ∀ {α : Type} {m : Tx α}, T m → T' m) : Settling T' args rec acq where
  emits := ⟨fun _ _ _ => weaker (settling.emits.cascade _ _ _)⟩
  gate _ := weaker (settling.gate _)
  drain := weaker settling.drain
  unclaim := weaker settling.unclaim
  scratch _ := weaker (settling.scratch _)
  counter _ := weaker (settling.counter _)
  stamp := weaker settling.stamp
  release _ := weaker (settling.release _)
  purge := weaker settling.purge
  holder := weaker settling.holder
  settle _ _ _ settled := weaker (settling.settle _ _ _ settled)
  record _ _ _ terminal := weaker (settling.record _ _ _ terminal)

section Programs

variable {T : ∀ {α : Type}, Tx α → Prop} (c : Composes StoreError.Plain T) {args : RunArgs}
  {rec : Rec}

include c

theorem collectPost_composes {α : Type} {f : α → Tx (List PostCommit)} {xs : List α}
    (each : ∀ x ∈ xs, T (f x)) : T (collectPost f xs) :=
  c.foldlM fun _ x mem => c.chain (each x mem) fun _ => c.value _

theorem producerOf_composes (h : ClaimHandle) : T (producerOf args h) :=
  c.needs (plain_other _) _

theorem acquirerInstanceId_composes (nodeId : Id) : T (acquirerInstanceId nodeId) :=
  c.reading fun _ =>
    c.chain (c.needs (plain_other _) _) fun _ => c.value _

theorem dispatchDataProcessingTerminal_composes (td : TerminalDecision) :
    T (dispatchDataProcessingTerminal args td) := by
  unfold dispatchDataProcessingTerminal
  split
  · exact c.value _
  · refine c.skips fun _ => Composes.ite (fun _ => ?_) fun _ => ?_
    all_goals
      split
      · exact c.value _
      · split
        · exact c.value _
        · exact c.fails (plain_other _)

theorem metadata_composes
    (metadata : ∀ parent childId outcome metadata,
      T (recordChildCommitMetadata parent childId outcome metadata)) : KeepsMetadata T := by
  intro parentId childId outcome text rest ends
  refine c.reading fun parent => ?_
  cases parent with
  | none => exact c.value _
  | some parent => exact c.chain (metadata _ _ _ _) fun _ => ends parent

namespace Resolving

variable (resolving : Resolving T args rec)

include resolving

theorem emitDeferredHeldCascade (td : TerminalDecision) :
    T (emitDeferredHeldCascade args rec td) :=
  c.skips fun _ => c.reading fun _ =>
    collectPost_composes c fun _ _ => resolving.holder _

theorem cancelClaimHandleWalk (outcome : TerminalOutcome) (keepParent : Bool)
    (rows : List ClaimHandle) : T (cancelClaimHandleWalk args rec outcome keepParent rows) := by
  refine collectPost_composes c fun row _ => c.skips fun _ => ?_
  refine c.reading fun current => c.skips fun _ => ?_
  refine c.chain (producerOf_composes c _) fun _ => ?_
  exact c.chain (acquirerInstanceId_composes c _) fun _ => resolving.resolve _

theorem cancelDescendantClaims (rowId : Id) : T (cancelDescendantClaims args rec rowId) :=
  c.reading fun _ => resolving.cancelClaimHandleWalk c _ _ _

theorem cancelInFlightSiblings (parentId triggerId : Id) :
    T (cancelInFlightSiblings args rec parentId triggerId) := by
  refine c.reading fun parent => ?_
  cases parent with
  | none => exact c.value _
  | some parent =>
    refine c.skips fun _ => c.reading fun _ => ?_
    exact resolving.cancelClaimHandleWalk c _ _ _

theorem settleFanoutParent (parent : ClaimHandle) (holderSupervisorId : String)
    (childOutcome : TerminalOutcome) :
    T (settleFanoutParent args rec parent holderSupervisorId childOutcome) := by
  refine c.chain (acquirerInstanceId_composes c _) fun _ =>
    c.chain (producerOf_composes c _) fun _ => ?_
  exact c.guarded (fun _ => resolving.reassign _ _ _) fun _ => resolving.resolve _

theorem settleFromFanoutChild (parentId childId : Id) (childOutcome : TerminalOutcome)
    (metadata : Option String) :
    T (settleFromFanoutChild args rec parentId childId childOutcome metadata) := by
  refine resolving.metadata _ _ _ _ _ fun parent => ?_
  split
  · exact c.value _
  · refine c.skips fun _ => ?_
    refine c.chain (resolving.count _ _ _ _) fun _ => ?_
    refine c.branch (fun _ => resolving.cancelInFlightSiblings c _ _) (fun _ => c.value _)
      fun cancelled => c.reading fun s => ?_
    split
    · exact c.value _
    · split
      · exact c.value _
      · refine c.skips fun _ => ?_
        refine c.chain (resolving.close _) fun _ => ?_
        exact c.chain (resolving.settleFanoutParent c _ _ _) fun _ => c.value _

theorem resolveClaimHandleTerminalBody (td : TerminalDecision) :
    T (resolveClaimHandleTerminalBody args rec td) := by
  refine Composes.ite (fun _ => c.fails (plain_other _)) fun _ => ?_
  refine c.chain (dispatchDataProcessingTerminal_composes c _) fun metadata => ?_
  refine c.chain (resolving.queue _) fun _ => ?_
  refine c.branch (fun _ => resolving.cancelDescendantClaims c _) (fun _ => c.value _)
    fun cancelled => ?_
  refine c.branch (fun _ => resolving.delete _ _) (fun _ => resolving.promote _) fun _ => ?_
  refine c.chain (resolving.emitDeferredHeldCascade c _) fun deferred => ?_
  split
  · exact c.value _
  · exact c.chain (resolving.settleFromFanoutChild c _ _ _ _) fun _ => c.value _

theorem checkAndFireResolution (claimHandleId : Id) :
    T (checkAndFireResolution args rec claimHandleId) := by
  refine c.reading fun s => ?_
  split
  · exact c.value _
  · refine c.skips fun _ => c.chain (producerOf_composes c _) fun _ => ?_
    refine c.skips fun _ => ?_
    exact c.chain (acquirerInstanceId_composes c _) fun _ => resolving.resolve _

section Release

variable {acq : Acquisition}
  (mark : ∀ claimHandleId success, T (markClaimHolderForRun claimHandleId acq.nodeRunId success))

include mark

theorem releaseAcquiredLock (success : Bool) (lk : AcquiredLock) :
    T (releaseAcquiredLock args rec acq success lk) := by
  unfold Rimsky.releaseAcquiredLock
  split
  · exact c.chain (resolving.delete _ _) fun _ => c.value _
  · refine Composes.ite (fun _ => ?_) fun _ => ?_
    · refine c.chain (mark _ _) fun _ => ?_
      exact c.guarded (fun _ => resolving.failAll _ _) fun _ => resolving.checkAndFireResolution c _
    · refine c.reading fun row => c.skips fun _ => ?_
      exact resolving.resolve _

omit mark in
theorem resolveLinkedSubClaims (success : Bool) :
    T (resolveLinkedSubClaims args rec acq success) := by
  refine c.reading fun rows => collectPost_composes c fun row _ => ?_
  refine c.reading fun current => ?_
  cases current with
  | none => exact c.value _
  | some current =>
    refine c.skips fun _ => c.chain (producerOf_composes c _) fun _ => ?_
    exact resolving.resolve _

theorem releaseInheritedClaims (success : Bool) :
    T (releaseInheritedClaims args rec acq success) := by
  refine c.reading fun inherited => collectPost_composes c fun claimHandleId _ => ?_
  exact c.chain (mark _ _) fun _ => resolving.checkAndFireResolution c _

theorem releaseLocks (success : Bool) : T (releaseLocks args rec acq success) := by
  refine c.chain (collectPost_composes c fun lk _ => resolving.releaseAcquiredLock c mark _ lk)
    fun _ => ?_
  refine c.chain (resolving.resolveLinkedSubClaims c _) fun _ => ?_
  exact c.chain (resolving.releaseInheritedClaims c mark _) fun _ => c.value _

end Release

end Resolving

section Holders

variable (gate : ∀ id, T (rec.evaluateOneGate id))

include gate

theorem announceHolder_composes {holder : NodeRun} {state : NodeState} {sig : Signal}
    (record : T (recordRunTreeChanged holder.id state sig.type false))
    (emits : ∀ node : Node, Emits T args rec {
      nodeId := holder.nodeId, nodeType := node.nodeType, nodeRunId := holder.id
      instanceId := node.instanceId, frameId := holder.frameId })
    (drain : T (WaitSet.markDrainedBySender holder.frameId holder.id)) :
    T (announceHolder args rec holder state sig) := by
  refine c.chain record fun _ => c.reading fun node => ?_
  cases node with
  | none => exact c.value _
  | some node =>
    refine c.chain (loadTemplateSpec_composes c _) fun spec => ?_
    refine c.chain ((emits node).emitSignalWithFilter c _ _ _) fun _ => ?_
    exact c.chain (drainWaitSetOnSettled_composes c gate drain) fun _ => c.value _

end Holders

omit c in
theorem settleHolder_steps {R : Store → Store → Prop} [IsPreorder Store R]
    (gate : ∀ id, Steps R (rec.evaluateOneGate id)) {holder : NodeRun}
    {verdict : NodeState × TransitionReason × Signal}
    (settle : Steps R (Nodes.updateState holder.id verdict.1 verdict.2.1 (some verdict.2.2.type)))
    (record : Steps R (recordRunTreeChanged holder.id verdict.1 verdict.2.2.type false))
    (emits : ∀ node : Node, Emits (fun {_} m => Steps R m) args rec {
      nodeId := holder.nodeId, nodeType := node.nodeType, nodeRunId := holder.id
      instanceId := node.instanceId, frameId := holder.frameId })
    (drain : Steps R (WaitSet.markDrainedBySender holder.frameId holder.id)) :
    Steps R (settleHolder args rec holder verdict) := by
  refine steps_bind (steps_attempt settle) fun outcome => ?_
  split
  · exact steps_pure _
  · exact steps_fail _
  · exact announceHolder_composes (steps_composes R _) gate record emits drain

/-- The exit of a sub-graph carries its attributes over to a caller that was just looked up. -/
def CarriesOver (T : ∀ {α : Type}, Tx α → Prop) (writeback : Bag) : Prop :=
  ∀ (parentId : Id) (rest : NodeRun → Tx (List PostCommit)), (∀ parent, T (rest parent)) → T (do
    let parent ← need (.other "SettleFromDelegate: parent run not found")
      (← read (·.run? parentId))
    if !writeback.isEmpty then NodeAttributes.upsert parent.id parent.nodeId writeback
    rest parent)

theorem carriesOver_of_upsert {writeback : Bag}
    (upsert : ∀ runId nodeId, T (NodeAttributes.upsert runId nodeId writeback)) :
    CarriesOver T writeback := by
  intro parentId rest ends
  refine c.reading fun parent => c.chain (c.needs (plain_other _) _) fun parent => ?_
  exact c.guarded (fun _ => upsert _ _) fun _ => ends parent

theorem Resolving.resolveDelegateCallerClaims (resolving : Resolving T args rec) (parent : NodeRun)
    (instanceId : Id) (outcome : TerminalOutcome) :
    T (resolveDelegateCallerClaims args rec parent instanceId outcome) := by
  refine c.skips fun _ => c.reading fun rows => collectPost_composes c fun row _ => ?_
  refine Composes.ite (fun _ => c.chain (resolving.delete _ _) fun _ => c.value _) fun _ => ?_
  exact c.chain (producerOf_composes c _) fun _ => resolving.resolve _

theorem Resolving.settleFromDelegate (resolving : Resolving T args rec)
    (emits : ∀ sender, Emits T args rec sender) (gate : ∀ id, T (rec.evaluateOneGate id))
    (drain : ∀ frameId runId, T (WaitSet.markDrainedBySender frameId runId))
    (close : ∀ id, T (RunScopes.close id)) {writeback : Bag} (carries : CarriesOver T writeback)
    (exitRunId instanceId : Id) :
    T (settleFromDelegate args rec exitRunId instanceId writeback) := by
  refine c.reading fun exit => c.chain (c.needs (plain_other _) _) fun exit => ?_
  refine c.reading fun scope => c.chain (c.needs (plain_other _) _) fun above => ?_
  refine carries above _ fun parent => c.chain (close _) fun _ => ?_
  refine c.chain (resolving.resolveDelegateCallerClaims c _ _ _) fun post => ?_
  refine c.reading fun node => ?_
  cases node with
  | none => exact c.value _
  | some node =>
    refine c.chain ((emits _).cascade _ _ _) fun _ => ?_
    refine c.chain ((emits _).emitAttributeChangesForRun c _ _) fun _ => ?_
    exact c.chain (drainWaitSetOnSettled_composes c gate (drain _ _)) fun _ => c.value _

namespace Settling

variable {acq : Acquisition} (settling : Settling T args rec acq)

include settling

theorem drainWaitSetOnSettled : T (drainWaitSetOnSettled rec acq.frameId acq.nodeRunId) :=
  drainWaitSetOnSettled_composes c settling.gate settling.drain

theorem policyTransition (kind : ActionKind) (settlingSig : String) :
    T (policyTransition acq kind settlingSig) := by
  refine c.reading fun state => Composes.ite (fun _ => ?_) fun _ => ?_
  · split
    · refine c.chain (settling.settle _ _ _ (.inr rfl)) fun _ => ?_
      exact c.chain (settling.record _ _ _ rfl) fun _ => c.value _
    · refine c.chain (settling.settle _ _ _ (.inr rfl)) fun _ => ?_
      exact c.chain (settling.record _ _ _ rfl) fun _ => c.value _
    · exact c.value _
  · exact Composes.ite (fun _ => c.chain (settling.settle _ _ _ (.inr rfl)) fun _ => c.value _)
      fun _ => c.value _

theorem policyRetry (decision : PolicyDecision) : T (policyRetry args rec acq decision) :=
  c.chain (settling.emits.emitSignalOnce c _) fun _ => c.chain settling.stamp fun _ => c.value _

theorem announceSettled (sig : Signal) : T (announceSettled args rec acq sig) := by
  refine c.chain (settling.emits.emitSignalOnce c _) fun _ => ?_
  refine c.chain (settling.emits.emitAttributeChangesForRun c _ _) fun _ => ?_
  exact c.chain (settling.drainWaitSetOnSettled c) fun _ => settling.unclaim

theorem policyReleaseAndRequeue (decision : PolicyDecision) :
    T (policyReleaseAndRequeue args rec acq decision) := by
  refine c.chain (settling.emits.emitSignalOnce c _) fun _ => ?_
  refine c.chain (settling.release _) fun _ => ?_
  exact c.chain settling.purge fun _ => c.value _

theorem applyErrorPolicyGiveUpHeld (sig : Signal) :
    T (applyErrorPolicyGiveUpHeld args rec acq sig) := by
  refine c.chain (settling.settle _ _ _ (.inl rfl)) fun _ => c.chain settling.unclaim fun _ => ?_
  refine settling.emits.announces c _ _ (c.chain (settling.drainWaitSetOnSettled c) fun _ => ?_)
  exact c.chain settling.holder fun _ => c.value _

theorem policySettle (decision : PolicyDecision) : T (policySettle args rec acq decision) := by
  refine c.reading fun heldBefore => ?_
  refine c.chain (settling.release _) fun _ => c.reading fun state => ?_
  refine Composes.ite (fun _ => ?_) fun _ => ?_
  · exact c.chain (settling.applyErrorPolicyGiveUpHeld c _) fun _ => c.value _
  · refine c.chain (settling.policyTransition c _ _) fun _ => ?_
    exact c.chain (settling.announceSettled c _) fun _ => c.value _

theorem applyErrorPolicyWithSettleHook (error : PolicyError) {onSettle : Tx Unit}
    (hook : T onSettle) : T (applyErrorPolicyWithSettleHook args rec acq error onSettle) := by
  refine c.chain (settling.scratch _) fun _ => ?_
  refine c.chain (c.reading fun _ => c.value _) fun counter => ?_
  refine c.chain (settling.counter _) fun _ => ?_
  refine Composes.ite (fun _ => settling.policyRetry c _) fun _ => ?_
  refine Composes.ite (fun _ => settling.policyReleaseAndRequeue c _) fun _ => ?_
  exact c.chain hook fun _ => settling.policySettle c _

theorem applyErrorPolicy (error : PolicyError) : T (applyErrorPolicy args rec acq error) :=
  settling.applyErrorPolicyWithSettleHook c _ (c.value _)

theorem applyInfraGiveUp (errorClass : String) (payload : Option Bag) (retriesSoFar : Nat) :
    T (applyInfraGiveUp args rec acq errorClass payload retriesSoFar) := by
  refine c.chain (settling.release _) fun _ => ?_
  refine c.chain (settling.policyTransition c _ _) fun _ => ?_
  exact c.chain (settling.announceSettled c _) fun _ => c.value _

theorem applyTerminalInfraError (errorClass : String) (payload : Option Bag)
    (scratch : Option String) :
    T (applyTerminalInfraError args rec acq errorClass payload scratch) := by
  refine c.chain (settling.scratch _) fun _ => ?_
  refine c.chain (c.reading fun _ => c.value _) fun counter => ?_
  refine Composes.ite (fun _ => settling.applyInfraGiveUp c _ _ _) fun _ => ?_
  exact c.chain (settling.counter _) fun _ => settling.policyRetry c _

theorem completeHeld (t : TerminalEvent) (before : List PostCommit) :
    T (completeHeld args rec acq t before) := by
  have told : T (announceHeld args rec acq t) := by
    refine c.chain (settling.settle _ _ _ (.inl rfl)) fun _ => c.chain settling.unclaim fun _ => ?_
    exact settling.emits.announces c _ _ (settling.drainWaitSetOnSettled c)
  exact c.chain told fun _ => c.chain settling.holder fun _ => c.value _

theorem applyTerminalCompletePoisoned (t : TerminalEvent) :
    T (applyTerminalCompletePoisoned args rec acq t) := by
  refine c.chain (settling.settle _ _ _ (.inr rfl)) fun _ => c.chain settling.unclaim fun _ => ?_
  exact settling.emits.announces c _ _ (c.chain (settling.drainWaitSetOnSettled c) fun _ =>
    c.value _)

theorem completeFresh (t : TerminalEvent) (before : List PostCommit) :
    T (completeFresh args rec acq t before) := by
  have told : T (tellSuccess args rec acq t) := by
    refine c.chain (settling.settle _ _ _ (.inr rfl)) fun _ => ?_
    refine c.chain (settling.record _ _ _ rfl) fun _ => c.chain settling.unclaim fun _ => ?_
    exact settling.emits.emitSignalWithFilter c _ _ _
  refine c.chain told fun _ => ?_
  refine c.chain (settling.emits.emitAttributeChangesForRun c _ _) fun _ => ?_
  exact c.chain (settling.drainWaitSetOnSettled c) fun _ => c.value _

theorem completeSettle (t : TerminalEvent) (heldBeforeRelease : Bool) (before : List PostCommit) :
    T (completeSettle args rec acq t heldBeforeRelease before) :=
  Composes.ite (fun _ => settling.completeHeld c _ _) fun _ => c.reading fun _ =>
    Composes.ite (fun _ => settling.applyTerminalCompletePoisoned c _) fun _ =>
      settling.completeFresh c _ _

section Complete

variable {merged : Bag} (upsert : T (upsertFinalAttributes acq merged))

include upsert

theorem completeLeaf
    (exit : acq.isSubgraphExit →
      T (settleFromDelegate args rec acq.nodeRunId acq.instanceId merged))
    (t : TerminalEvent) : T (completeLeaf args rec acq merged t) := by
  refine c.branch exit (fun _ => c.value _) fun exitPost => ?_
  refine c.reading fun heldBefore => c.chain (settling.release _) fun released => ?_
  refine c.guarded (fun _ => upsert) fun _ => ?_
  exact c.chain (settling.scratch _) fun _ => settling.completeSettle c _ _ _

end Complete

theorem applyTerminalComplete {resolvedAttrs : Bag} {t : TerminalEvent}
    (upsert : ∀ merged, T (upsertFinalAttributes acq merged))
    (exit : acq.isSubgraphExit → ∀ merged,
      T (settleFromDelegate args rec acq.nodeRunId acq.instanceId merged))
    (caller : acq.nodeDef.any (·.isSubgraphEntryAbsorbed) → ∀ merged,
      T (applyTerminalCompleteSubgraphCaller args rec acq merged t))
    (schema : Option AttributeSchema) :
    T (applyTerminalComplete args rec acq resolvedAttrs schema t) := by
  unfold Rimsky.applyTerminalComplete
  dsimp only
  split
  · exact settling.applyErrorPolicy c _
  · exact Composes.ite (fun delegates => caller delegates _) fun _ =>
      settling.completeLeaf c (upsert _) (fun exits => exit exits _) t

theorem applyTerminalError (upsert : ∀ merged, T (upsertFinalAttributes acq merged))
    (resolvedAttrs : Bag) (schema : Option AttributeSchema) (t : TerminalEvent) :
    T (applyTerminalError args rec acq resolvedAttrs schema t) :=
  settling.applyErrorPolicyWithSettleHook c _ <|
    c.skips fun _ => upsert _

end Settling

end Programs

end Rimsky
