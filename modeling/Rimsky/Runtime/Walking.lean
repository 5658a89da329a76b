import Rimsky.Runtime.Settling

/-!
# What signalling and gates do to the store

A signal creates pending runs and evaluates gates, and a gate that opens or fails signals in
turn. All this does to the store is made of a few kinds of changes, which `Walking` lists: a
preorder on stores that allows each kind is kept by signals, gates and the settlement of runs,
provided that it is kept by the gates called back.
-/

namespace Rimsky

open Transaction

/-- The row without what only settlement's bookkeeping reads. -/
def NodeRun.core (r : NodeRun) : NodeRun :=
  { r with
    retryCounter := 0, priorDispatchId := none, priorDispatchDisposition := none
    scratch := none, lastProgressAt := none, settlingSignalType := none, changed := false
    aggregationPolicy := none }

def Store.cascadeModeOf (s : Store) (row : NodeRun) : CascadeMode :=
  ((s.node? row.nodeId).map (·.cascadeMode)).getD .mostRecent

/-- The relation allows what signals and gates do apart from settling runs and delivering. -/
structure Walking (R : Store → Store → Prop) : Prop where
  /-- Wait rows, attribute bags and the supply of ids. -/
  aside : ∀ s waitSet attributes nextId, s.nextId ≤ nextId →
    R s { s with waitSet, attributes, nextId }
  touch : ∀ s f, (∀ r, (f r).core = r.core) → R s { s with runs := s.runs.map f }
  /-- The scope of a partition is closed. -/
  close : ∀ s scope, s.runScope? scope.id = some scope → scope.partitionKey ≠ "" →
    R s (RunScopes.close scope.id s).2
  wake : ∀ id reason, Steps R (resumeParkedRunInTx id reason)
  clear : ∀ id t, Steps R (Nodes.transitionPendingToStale id t)
  drop : ∀ id, Steps R (Nodes.dropPendingRun id)
  prior : ∀ s row, s.run? row.id = some row → row.state = .pending →
    s.cascadeModeOf row = .mostRecent →
    R s (Nodes.deletePriorCascadeStales row.nodeId row.runScopeId row.sequence s).2
  pend : ∀ nodeId runScopeId frameId, Steps R (Nodes.createCascadePending nodeId runScopeId frameId)

structure Acting (R : Store → Store → Prop) (supervisorId : String)
    (nodeRunId nodeId runScopeId : Id) : Prop where
  settle : ∀ state reason sig, state = .held ∨ state.isTerminal →
    Steps R (Nodes.updateState nodeRunId state reason sig)
  record : ∀ state sig changed, state.isTerminal →
    Steps R (recordRunTreeChanged nodeRunId state sig changed)
  signal : ∀ sig receiverId,
    Steps R (logDelivery { senderRunId := nodeRunId, signal := sig, receiverId })
  release : Steps R (Queue.removeForNode nodeId runScopeId supervisorId)

def HolderSteps (R : Store → Store → Prop) (args : RunArgs) (rec : Rec) : Prop :=
  ∀ s holder, s.run? holder.id = some holder → holder.state = .held →
    s.children holder.id = [] → R s (settleHolder args rec holder (s.holderVerdict holder.id) s).2

theorem isTerminal_holderVerdict (s : Store) (runId : Id) :
    (s.holderVerdict runId).1.isTerminal := by
  unfold Store.holderVerdict
  split <;> rfl

def GateFailureSteps (R : Store → Store → Prop) (args : RunArgs) (rec : Rec) : Prop :=
  ∀ s row error, s.run? row.id = some row → row.state = .pending →
    (∃ carry, buildResolvedBagAtGateEval args row carry s = (.ok (.error error), s)) →
    R s (routeSubstitutionFailureAtGate args rec row error s).2

theorem HolderSteps.mono {R R' : Store → Store → Prop} {args : RunArgs} {rec : Rec}
    (holders : HolderSteps R args rec) (weaker : ∀ s s', R s s' → R' s s') :
    HolderSteps R' args rec :=
  fun s holder known held childless => weaker _ _ (holders s holder known held childless)

theorem Walking.meet {R R' Q : Store → Store → Prop} (walk : Walking R) (walk' : Walking R')
    (both : ∀ s s', R s s' → R' s s' → Q s s') : Walking Q where
  aside s w a n le := both _ _ (walk.aside s w a n le) (walk'.aside s w a n le)
  touch s f keeps := both _ _ (walk.touch s f keeps) (walk'.touch s f keeps)
  close s scope found partition :=
    both _ _ (walk.close s scope found partition) (walk'.close s scope found partition)
  wake id reason s := both _ _ (walk.wake id reason s) (walk'.wake id reason s)
  clear id t s := both _ _ (walk.clear id t s) (walk'.clear id t s)
  drop id s := both _ _ (walk.drop id s) (walk'.drop id s)
  prior s row known pending mode :=
    both _ _ (walk.prior s row known pending mode) (walk'.prior s row known pending mode)
  pend n sc f s := both _ _ (walk.pend n sc f s) (walk'.pend n sc f s)

theorem Walking.mono {R R' : Store → Store → Prop} (walk : Walking R)
    (weaker : ∀ s s', R s s' → R' s s') : Walking R' where
  aside s w a n le := weaker _ _ (walk.aside s w a n le)
  touch s f keeps := weaker _ _ (walk.touch s f keeps)
  close s scope found partition := weaker _ _ (walk.close s scope found partition)
  wake id reason := steps_mono (walk.wake id reason) weaker
  clear id t := steps_mono (walk.clear id t) weaker
  drop id := steps_mono (walk.drop id) weaker
  prior s row known pending mode := weaker _ _ (walk.prior s row known pending mode)
  pend n sc f := steps_mono (walk.pend n sc f) weaker

theorem Acting.mono {R R' : Store → Store → Prop} {supervisorId : String}
    {nodeRunId nodeId runScopeId : Id} (acting : Acting R supervisorId nodeRunId nodeId runScopeId)
    (weaker : ∀ s s', R s s' → R' s s') : Acting R' supervisorId nodeRunId nodeId runScopeId where
  settle state reason sig settled := steps_mono (acting.settle state reason sig settled) weaker
  record state sig changed terminal := steps_mono (acting.record state sig changed terminal) weaker
  signal sig receivers := steps_mono (acting.signal sig receivers) weaker
  release := steps_mono acting.release weaker

structure Store.AtGate (s : Store) (row : NodeRun) : Prop where
  known : s.run? row.id = some row
  pending : row.state = .pending

theorem reads_bind_cases {α β : Type} {m : Tx α} (reads : Steps Eq m) (k : α → Tx β) (s : Store) :
    ((m >>= k) s).2 = s ∨ ∃ a, m s = (.ok a, s) ∧ (m >>= k) s = k a s := by
  cases run : m s with
  | mk outcome s' =>
    have same : s = s' := by
      have reads := reads s
      rwa [run] at reads
    subst same
    cases outcome with
    | error e => exact .inl (by rw [bind_of_error run])
    | ok a => exact .inr ⟨a, rfl, bind_of_ok run⟩

variable {acq : Acquisition}

namespace Walking

section Statements

variable {R : Store → Store → Prop} (walk : Walking R)

include walk

theorem upsert (runId nodeId : Id) (data : Bag) :
    Steps R (NodeAttributes.upsert runId nodeId data) := by
  refine steps_write fun s => ?_
  unfold Store.upsertAttributes
  split <;> exact walk.aside s _ _ _ (Nat.le_refl _)

theorem setDispatchInputBag (runId nodeId : Id) (bag : Bag) :
    Steps R (NodeAttributes.setDispatchInputBag runId nodeId bag) := by
  refine steps_write fun s => ?_
  unfold Store.upsertAttributes
  split <;> exact walk.aside s _ _ _ (Nat.le_refl _)

theorem waitInsert (row : WaitRow) : Steps R (WaitSet.insert row) := by
  refine steps_write fun s => ?_
  split <;> exact walk.aside s _ _ _ (Nat.le_refl _)

theorem markDrained (frameId runId : Id) : Steps R (WaitSet.markDrainedBySender frameId runId) :=
  steps_write fun s => walk.aside s _ _ _ (Nat.le_refl _)

variable [IsPreorder Store R]

theorem updateRuns {guard : Store → NodeRun → Bool} {change : Nat → NodeRun → NodeRun}
    (keeps : ∀ now r, (change now r).core = r.core) : Steps R (updateRuns guard change) := by
  refine steps_updateRuns fun s => ?_
  refine walk.touch s _ fun r => ?_
  split
  · exact keeps _ r
  · rfl

theorem drainWaitSetOnSettled {rec : Rec} (gate : ∀ id, Steps R (rec.evaluateOneGate id))
    (frameId senderNodeRunId : Id) :
    Steps R (drainWaitSetOnSettled rec frameId senderNodeRunId) :=
  drainWaitSetOnSettled_composes (steps_composes R _) gate (walk.markDrained _ _)

theorem recordChildCommitMetadata (parent : ClaimHandle) (childId : Id) (outcome : TerminalOutcome)
    (metadata : Option String) :
    Steps R (recordChildCommitMetadata parent childId outcome metadata) := by
  unfold Rimsky.recordChildCommitMetadata
  split
  · refine steps_unless fun _ => steps_reads fun s => ?_
    exact walk.upsert _ _ _
  · exact steps_pure _

theorem closePartitionScopes (children : List ClaimHandle) :
    Steps R (closePartitionScopes children) := by
  refine steps_forM fun c _ => steps_read_bind fun s => ?_
  dsimp only [id]
  cases found : c.nodeRunId.bind fun runId =>
    (s.run? runId).bind fun run => s.runScope? run.runScopeId with
  | none => exact refl s
  | some scope =>
    rcases Option.bind_eq_some_iff.mp found with ⟨runId, -, found⟩
    rcases Option.bind_eq_some_iff.mp found with ⟨run, -, found⟩
    have same : scope.id = run.runScopeId := by simpa using List.find?_some found
    by_cases partition : scope.partitionKey = ""
    · simp only [partition, if_true]
      exact refl s
    · simp only [partition, if_false]
      exact walk.close s scope (same ▸ found) partition

theorem applyTerminalScratch (scratch : Option String) :
    Steps R (applyTerminalScratch acq scratch) := by
  cases scratch with
  | none => exact steps_pure _
  | some text =>
    refine steps_unless fun _ => ?_
    refine steps_bind (steps_bind (walk.updateRuns fun _ _ => rfl) fun _ => ?_) fun _ => ?_
    · exact steps_check fun _ => steps_pure _
    · exact steps_bind (walk.updateRuns fun _ _ => rfl) fun _ => steps_pure _

theorem updateRunEvaluatorState (runId : Id) (counter : Nat) :
    Steps R (Nodes.updateRunEvaluatorState runId counter) :=
  steps_bind (walk.updateRuns fun _ _ => rfl) fun _ =>
    steps_check fun _ => steps_pure _

theorem stampPriorDispatch (runId priorRunId : Id) (disposition : String) :
    Steps R (Queue.stampPriorDispatch runId priorRunId disposition) :=
  steps_bind (walk.updateRuns fun _ _ => rfl) fun _ =>
    steps_check fun _ => steps_pure _

end Statements

section Walker

variable {R : Store → Store → Prop} [IsPreorder Store R] (walk : Walking R) {args : RunArgs}
  {rec : Rec} (gate : ∀ id, Steps R (rec.evaluateOneGate id))

include walk gate

theorem signalling (runScopeId : Id) : Signalling (fun {_} m => Steps R m) rec runScopeId :=
  .of_steps (fun id => walk.wake id _) (fun _ _ => walk.pend _ _ _) walk.waitInsert gate

theorem walkReceiver {spec : TemplateSpec} {nodes : List Node} {sender : Sender} {sig : Signal}
    {receiver : Node} (scope : RunScope) (edge : SubscriptionEdge) (visited : List Id)
    (log : Steps R (logDelivery
      { senderRunId := sender.nodeRunId, signal := sig, receiverId := receiver.id })) :
    Steps R (walkReceiver rec spec nodes sender sig scope edge visited receiver) :=
  (walk.signalling gate _).walkReceiver (steps_composes R _) log (fun _ _ _ => walk.waitInsert _)
    _ _ _ _

omit walk gate in
theorem attributeBaseline (sender : Sender) : Steps R (attributeBaseline args sender) :=
  attributeBaseline_composes (steps_composes R _) sender

section Signals

variable {sender : Sender}
  (signal : ∀ sig receiverId,
    Steps R (logDelivery { senderRunId := sender.nodeRunId, signal := sig, receiverId }))

include signal

theorem emits : Emits (fun {_} m => Steps R m) args rec sender :=
  .of_receiver (steps_composes R _) fun _ _ _ _ _ _ _ => walk.walkReceiver gate _ _ _ (signal _ _)

theorem emitSignalWithFilter (sig : Signal) (visited : List Id) (filter : String → Bool) :
    Steps R (emitSignalWithFilter args rec sender sig visited filter) :=
  (walk.emits gate signal).emitSignalWithFilter (steps_composes R _) sig visited filter

theorem emitSignalOnce (sig : Signal) : Steps R (emitSignalOnce args rec sender sig) :=
  (walk.emits gate signal).emitSignalOnce (steps_composes R _) sig

theorem emitAttributeChangesForRun (visited : List Id) (filter : String → Bool) :
    Steps R (emitAttributeChangesForRun args rec sender visited filter) :=
  (walk.emits gate signal).emitAttributeChangesForRun (steps_composes R _) visited filter

end Signals

end Walker

section Holders

variable {R : Store → Store → Prop} [IsPreorder Store R] (walk : Walking R) {args : RunArgs}
  {rec : Rec} (gate : ∀ id, Steps R (rec.evaluateOneGate id))

theorem collectPost {α : Type} {f : α → Tx (List PostCommit)} {xs : List α}
    (each : ∀ x ∈ xs, Steps R (f x)) : Steps R (collectPost f xs) :=
  collectPost_composes (steps_composes R _) each

theorem producerOf (h : ClaimHandle) : Steps R (producerOf args h) := steps_need _ _

theorem acquirerInstanceId (nodeId : Id) : Steps R (acquirerInstanceId nodeId) :=
  acquirerInstanceId_composes (steps_composes R _) nodeId

theorem dispatchDataProcessingTerminal (td : TerminalDecision) :
    Steps R (dispatchDataProcessingTerminal args td) :=
  dispatchDataProcessingTerminal_composes (steps_composes R _) td

include walk gate

theorem announceHolder {holder : NodeRun} {state : NodeState} {sig : Signal}
    (record : Steps R (recordRunTreeChanged holder.id state sig.type false))
    (signal : ∀ sig receiverId,
      Steps R (logDelivery { senderRunId := holder.id, signal := sig, receiverId })) :
    Steps R (announceHolder args rec holder state sig) :=
  announceHolder_composes (steps_composes R _) gate record (fun _ => walk.emits gate signal)
    (walk.markDrained _ _)

theorem settleHolder {holder : NodeRun} {verdict : NodeState × TransitionReason × Signal}
    (settle : Steps R (Nodes.updateState holder.id verdict.1 verdict.2.1 (some verdict.2.2.type)))
    (record : Steps R (recordRunTreeChanged holder.id verdict.1 verdict.2.2.type false))
    (signal : ∀ sig receiverId,
      Steps R (logDelivery { senderRunId := holder.id, signal := sig, receiverId })) :
    Steps R (settleHolder args rec holder verdict) :=
  settleHolder_steps gate settle record (fun _ => walk.emits gate signal) (walk.markDrained _ _)

omit walk gate

theorem transitionHolder_steps (runId : Id)
    (settles : ∀ s holder, s.run? runId = some holder → holder.state = .held →
      s.children runId = [] → R s
        (Rimsky.settleHolder args rec holder (s.holderVerdict runId) s).2) :
    Steps R (Rimsky.transitionHolderIfFullyResolved args rec runId) := by
  refine steps_read_bind fun s => ?_
  cases found : s.run? runId with
  | none =>
    simp only [id, found]
    exact refl s
  | some holder =>
    simp only [id, found]
    split
    case isTrue => exact refl s
    case isFalse resolved =>
      simp only [Bool.or_eq_true, decide_eq_true_eq, not_or, not_not] at resolved
      exact settles s holder found resolved.1.1.2 (by simpa using resolved.1.2)

variable (holders : HolderSteps R args rec)

include holders

theorem transitionHolderIfFullyResolved (runId : Id) :
    Steps R (transitionHolderIfFullyResolved args rec runId) := by
  refine transitionHolder_steps runId fun s holder found held childless => ?_
  have same : holder.id = runId := by simpa using List.find?_some found
  subst same
  exact holders s holder found held childless

theorem emitDeferredHeldCascade (td : TerminalDecision) :
    Steps R (emitDeferredHeldCascade args rec td) := by
  refine steps_unless fun _ => steps_reads fun _ => ?_
  exact collectPost fun _ _ => transitionHolderIfFullyResolved holders _

end Holders

theorem readOnly_loadTemplateSpec (instanceId : Id) : Steps Eq (loadTemplateSpec instanceId) :=
  steps_reads fun _ => steps_need _ _

theorem readOnly_loadReceiverCarryForward (row : NodeRun) :
    Steps Eq (loadReceiverCarryForward row) :=
  steps_reads fun _ => steps_reads fun _ => steps_pure _

theorem readOnly_buildResolvedBagAtGateEval (args : RunArgs) (row : NodeRun) (carry : Bag) :
    Steps Eq (buildResolvedBagAtGateEval args row carry) := by
  refine steps_reads fun s => ?_
  split
  · exact steps_pure _
  · refine steps_bind (readOnly_loadTemplateSpec _) fun spec => ?_
    split
    · exact steps_pure _
    · exact steps_pure _

theorem readOnly_anySubscribedUpstreamInFlight (row : NodeRun) :
    Steps Eq (anySubscribedUpstreamInFlight row) := by
  refine steps_reads fun s => ?_
  split
  · exact steps_pure _
  · split
    · exact steps_pure _
    · exact steps_reads fun _ => steps_pure _

theorem readOnly_bagsEqual (args : RunArgs) (prior : NodeRun) (bag : Bag) :
    Steps Eq (bagsEqual args prior bag) := by
  refine steps_reads fun priorBag => ?_
  cases priorBag with
  | some priorBag => exact steps_pure _
  | none =>
    refine steps_bind (readOnly_loadReceiverCarryForward _) fun _ => ?_
    refine steps_bind (readOnly_buildResolvedBagAtGateEval _ _ _) fun resolved => ?_
    split
    · exact steps_pure _
    · exact steps_fail _

theorem readOnly_modeDropIfPriorEqual (args : RunArgs) (row : NodeRun) (bag : Bag)
    (includeSettled : Bool) : Steps Eq (modeDropIfPriorEqual args row bag includeSettled) := by
  refine steps_reads fun queued => ?_
  cases queued with
  | some prior => exact readOnly_bagsEqual _ _ _
  | none =>
    refine steps_unless fun _ => steps_reads fun settled => ?_
    cases settled with
    | none => exact steps_pure _
    | some prior => exact readOnly_bagsEqual _ _ _

theorem evaluateOneGateBody_cases (args : RunArgs) (rec : Rec) (runId : Id) (s : Store) :
    (evaluateOneGateBody args rec runId s).2 = s ∨
      ∃ row carry, s.AtGate row ∧ row.id = runId ∧
        ((∃ resolved, evaluateOneGateBody args rec runId s = passGate args row resolved s) ∨
          ∃ error, buildResolvedBagAtGateEval args row carry s = (.ok (.error error), s) ∧
            error.isMissingSource ∧
            evaluateOneGateBody args rec runId s =
              routeSubstitutionFailureAtGate args rec row error s) := by
  unfold evaluateOneGateBody
  rw [read_bind]
  cases found : s.run? runId with
  | none => exact .inl rfl
  | some row =>
    have same : row.id = runId := by simpa using List.find?_some found
    dsimp only
    split
    case isTrue => exact .inl rfl
    case isFalse pending =>
      have pending : row.state = .pending := by simpa using pending
      rcases reads_bind_cases (m := WaitSet.hasUndrainedRowsForReceiver row.frameId row.id)
        (steps_read _) (fun undrained => _) s with stays | ⟨undrained, -, continues⟩
      · exact .inl stays
      rw [continues]
      split
      case isTrue => exact .inl rfl
      case isFalse =>
      rcases reads_bind_cases (readOnly_anySubscribedUpstreamInFlight row) (fun inFlight => _)
        s with stays | ⟨inFlight, -, continues⟩
      · exact .inl stays
      rw [continues]
      split
      case isTrue => exact .inl rfl
      case isFalse =>
      rcases reads_bind_cases (readOnly_loadReceiverCarryForward row) (fun carry => _)
        s with stays | ⟨carry, -, continues⟩
      · exact .inl stays
      rw [continues]
      rcases reads_bind_cases (readOnly_buildResolvedBagAtGateEval args row carry)
        (fun resolved => _) s with stays | ⟨resolved, built, continues⟩
      · exact .inl stays
      rw [continues]
      have atGate : s.AtGate row := ⟨same ▸ found, pending⟩
      cases resolved with
      | ok resolved => exact .inr ⟨row, carry, atGate, same, .inl ⟨resolved, rfl⟩⟩
      | error error =>
        dsimp only
        split
        case isTrue missing =>
          exact .inr ⟨row, carry, atGate, same, .inr ⟨error, built, missing, rfl⟩⟩
        case isFalse => exact .inl rfl

variable {row : NodeRun}

section Gates

variable {R : Store → Store → Prop} [IsPreorder Store R] (walk : Walking R) {args : RunArgs}
  {rec : Rec}

include walk

theorem settlingWith (gate : ∀ id, Steps R (rec.evaluateOneGate id))
    (holder : Steps R (Rimsky.transitionHolderIfFullyResolved args rec acq.nodeRunId))
    (acting : Acting R args.supervisorId acq.nodeRunId acq.nodeId acq.runScopeId)
    (release : ∀ success, Steps R (releaseLocks args rec acq success))
    (purge : Steps R (deleteAbandonedClaimHandles acq.nodeRunId)) :
    Settling (fun {_} m => Steps R m) args rec acq where
  emits := walk.emits gate acting.signal
  gate := gate
  drain := walk.markDrained _ _
  unclaim := acting.release
  scratch := walk.applyTerminalScratch
  counter := walk.updateRunEvaluatorState _
  stamp := walk.stampPriorDispatch _ _ _
  release := release
  purge := purge
  holder := holder
  settle := acting.settle
  record := acting.record

theorem routeSubstitutionFailureAtGate (gate : ∀ id, Steps R (rec.evaluateOneGate id))
    (holder : Steps R (Rimsky.transitionHolderIfFullyResolved args rec row.id))
    (acting : Acting R args.supervisorId row.id row.nodeId row.runScopeId)
    (release : ∀ acq success, acq.nodeRunId = row.id → acq.locks = [] →
      Steps R (releaseLocks args rec acq success))
    (purge : Steps R (deleteAbandonedClaimHandles row.id)) (error : SubstitutionError) :
    Steps R (routeSubstitutionFailureAtGate args rec row error) := by
  refine steps_reads fun node => ?_
  cases node with
  | none => exact steps_pure _
  | some node =>
    refine steps_bind (steps_reads fun _ => steps_need _ _) fun spec => ?_
    refine steps_reads fun _ => steps_bind (walk.clear _ _) fun _ => ?_
    refine steps_bind (Settling.applyErrorPolicy (steps_composes R _) ?_ _) fun _ => steps_pure _
    exact walk.settlingWith gate holder acting
      (fun success => release _ success rfl rfl) purge

theorem clearGate (row : NodeRun) (resolved : Bag) : Steps R (clearGate row resolved) := by
  refine steps_bind (walk.upsert _ _ _) fun _ =>
    steps_bind (walk.setDispatchInputBag _ _ _) fun _ => ?_
  exact steps_reads fun _ => walk.clear _ _

theorem applyCascadeModeRule {s : Store} (known : s.run? row.id = some row)
    (pending : row.state = .pending) (bag : Bag) :
    R s (applyCascadeModeRule args row bag (s.cascadeModeOf row) s).2 := by
  have dropped : ∀ includeSettled,
      R s (modeDropIfPriorEqual args row bag includeSettled s).2 := by
    intro includeSettled
    rw [← readOnly_modeDropIfPriorEqual args row bag includeSettled s]
    exact refl s
  cases mode : s.cascadeModeOf row with
  | mostRecent =>
    refine steps_read_bind (R := fun s s' => s.run? row.id = some row →
      s.cascadeModeOf row = .mostRecent → R s s') (fun s => ?_) s known mode
    intro known mode
    split
    case isTrue => exact refl s
    case isFalse =>
      exact steps_bind_from (walk.prior s row known pending mode) fun _ => steps_pure _
  | sequenced => exact refl s
  | idempotentQueue => exact dropped false
  | idempotentSettled => exact dropped true

theorem passGate {s : Store} (known : s.run? row.id = some row) (pending : row.state = .pending)
    (resolved : Bag) :
    R s (passGate args row resolved s).2 := by
  change R s ((Rimsky.applyCascadeModeRule args row resolved (s.cascadeModeOf row) >>= fun drop =>
    if drop then Nodes.dropPendingRun row.id
    else Nodes.hasAdvancedSiblingInScope row.nodeId row.runScopeId row.id >>= fun advanced =>
      if advanced then pure () else Rimsky.clearGate row resolved) s).2
  refine steps_bind_from (walk.applyCascadeModeRule known pending resolved) fun drop => ?_
  refine steps_ite (fun _ => walk.drop _) fun _ => steps_reads fun advanced => ?_
  exact steps_unless fun _ => walk.clearGate row resolved

theorem evaluateOneGateBody (failures : GateFailureSteps R args rec) (runId : Id) :
    Steps R (evaluateOneGateBody args rec runId) := by
  intro s
  rcases evaluateOneGateBody_cases args rec runId s with
    stays | ⟨row, carry, atGate, -, ⟨resolved, passes⟩ | ⟨error, built, -, fails⟩⟩
  · rw [stays]
    exact refl s
  · rw [passes]
    exact walk.passGate atGate.known atGate.pending resolved
  · rw [fails]
    exact failures s row error atGate.known atGate.pending ⟨carry, built⟩

end Gates

variable {R : Store → Store → Prop} [IsPreorder Store R] (walk : Walking R) {args : RunArgs}
  {rec : Rec} (gate : ∀ id, Steps R (rec.evaluateOneGate id)) (holders : HolderSteps R args rec)

include walk gate holders

theorem settling (acting : Acting R args.supervisorId acq.nodeRunId acq.nodeId acq.runScopeId)
    (release : ∀ success, Steps R (releaseLocks args rec acq success))
    (purge : Steps R (deleteAbandonedClaimHandles acq.nodeRunId)) :
    Settling (fun {_} m => Steps R m) args rec acq :=
  walk.settlingWith gate (transitionHolderIfFullyResolved holders _) acting release purge

end Walking

end Rimsky
