import Rimsky.Runtime.RunSteps
import Rimsky.Runtime.Silence

/-!
# Moves that the state machine refuses

Settling a run asks `UpdateState` for a move, and a move that `nextState` does not know aborts
the settlement. What nests below a settlement never asks for one: holders that cannot move are
skipped, parked runs are looked up before they are woken, and gates settle runs that hold
nothing. What remains are the moves of the run that settles itself.
-/

namespace Rimsky

open Transaction List Store Walking

variable {e : StoreError} {runId : Id} {s : Store} {acq : Acquisition}

/-- The transaction never asks for a move that is refused, in any store. -/
def Moveless {α : Type} (m : Tx α) : Prop := Avoids (fun _ => True) (· = .illegalTransition) m

namespace Moveless

theorem composes : Composes (· ≠ StoreError.illegalTransition) fun {_} (m : Tx _) => Moveless m :=
  avoids_composes _ _

theorem of_write (f : Store → Store) : Moveless (write f) := fun _ _ => ⟨trivial, by simp⟩

theorem putRuns (runs : List NodeRun) : Moveless (putRuns runs) :=
  Composes.ite (fun _ => of_write _) fun _ => composes.fails (by simp)

theorem updateRuns (guard : Store → NodeRun → Bool) (change : Nat → NodeRun → NodeRun) :
    Moveless (updateRuns guard change) :=
  composes.chain (composes.reads _) fun _ => composes.chain (putRuns _) fun _ => composes.value _

theorem bookkeeping (guard : Store → NodeRun → Bool) (change : Nat → NodeRun → NodeRun)
    (other : e ≠ .illegalTransition) : Moveless (do
      let n ← Rimsky.updateRuns guard change
      if n = 0 then fail e : Tx Unit) :=
  composes.chain (updateRuns _ _) fun _ =>
    Composes.ite (fun _ => composes.fails other) fun _ => composes.value _

theorem newId : Moveless newId :=
  composes.chain (composes.reads _) fun _ => composes.chain (of_write _) fun _ => composes.value _

theorem scopeError (runScopeId : Id) {α : Type} :
    Moveless (Rimsky.scopeError runScopeId >>= fun e => (fail e : Tx α)) := by
  intro s _
  refine ⟨trivial, ?_⟩
  unfold Rimsky.scopeError
  rw [bind_apply, read_bind]
  cases s.runScope? runScopeId with
  | none => simp
  | some scope =>
    cases closed : scope.closedAt.isSome <;> simp [closed]

theorem createCascadePending (nodeId runScopeId frameId : Id) :
    Moveless (Nodes.createCascadePending nodeId runScopeId frameId) := by
  refine composes.chain newId fun _ => composes.chain (composes.reads _) fun s => ?_
  split
  · refine Composes.ite (fun _ => ?_) fun _ => scopeError _
    refine composes.chain (composes.chain (composes.reads _) fun _ => putRuns _) fun _ => ?_
    exact composes.value _
  · exact scopeError _

theorem updateHandle (id : Id) (guard : ClaimHandle → Bool)
    (change : Nat → ClaimHandle → ClaimHandle) : Moveless (ClaimHandles.update id guard change) :=
  composes.chain (composes.reads _) fun _ =>
    Composes.ite (fun _ => of_write _) fun _ => composes.fails (by simp)

theorem deleteHandle (id : Id) (supervisorId : String) :
    Moveless (ClaimHandles.delete id supervisorId) :=
  composes.chain (composes.reads _) fun _ =>
    Composes.ite (fun _ => of_write _) fun _ => composes.fails (by simp)

theorem deleteResolved (id : Id) : Moveless (ClaimHandles.deleteResolved id) :=
  composes.chain (composes.reads _) fun _ =>
    Composes.ite (fun _ => of_write _) fun _ => composes.fails (by simp)

theorem completeHolders (fits : ClaimHolder → Bool) (state : ClaimHolderState) :
    Moveless (ClaimHolders.completeWhere fits state) :=
  composes.chain (composes.reads _) fun _ =>
    Composes.ite (fun _ => of_write _) fun _ => composes.fails (by simp)

theorem markClaimHolderForRun (claimHandleId runId : Id) (success : Bool) :
    Moveless (markClaimHolderForRun claimHandleId runId success) := by
  cases success <;> exact completeHolders _ _

theorem enqueueVerb (row : OutboxRow) : Moveless (ProducerVerbOutbox.enqueue row) :=
  composes.chain newId fun _ => of_write _

theorem applyTerminalScratch (acq : Acquisition) (scratch : Option String) :
    Moveless (applyTerminalScratch acq scratch) := by
  cases scratch with
  | none => exact composes.value _
  | some text =>
    refine Composes.ite (fun _ => composes.value _) fun _ => ?_
    refine composes.chain (bookkeeping _ _ (by simp)) fun _ => ?_
    exact composes.chain (updateRuns _ _) fun _ => composes.value _

theorem deleteAbandonedClaimHandles (runId : Id) : Moveless (deleteAbandonedClaimHandles runId) :=
  composes.chain (composes.reads _) fun _ => composes.forM fun _ _ => deleteResolved _

theorem promoteHandleState (td : TerminalDecision) : Moveless (promoteHandleState td) := by
  refine avoids_attempt_bind (updateHandle _ _ _) fun outcome other => ?_
  split
  · exact composes.value _
  · exact composes.fails (other _ rfl)
  · exact composes.value _

end Moveless

/-- No run changes its state and no claim changes hands. -/
structure Store.Unmoved (s s' : Store) : Prop where
  handles : s'.claimHandles = s.claimHandles
  holders : s'.claimHolders = s.claimHolders
  nextId : s'.nextId = s.nextId
  states : s'.runs.map (fun r => (r.id, r.state)) = s.runs.map fun r => (r.id, r.state)

namespace Store.Unmoved

variable {s s' : Store}

instance : IsPreorder Store Store.Unmoved where
  refl _ := ⟨rfl, rfl, rfl, rfl⟩
  trans _ _ _ first second := ⟨second.handles.trans first.handles,
    second.holders.trans first.holders,
    second.nextId.trans first.nextId, second.states.trans first.states⟩

theorem hasActiveHeldClaims (unmoved : s.Unmoved s') (runId : Id) :
    s'.hasActiveHeldClaims runId = s.hasActiveHeldClaims runId := by
  simp only [Store.hasActiveHeldClaims, Store.coHeld, Store.claimHandle?, unmoved.handles,
    unmoved.holders]

theorem back (unmoved : s.Unmoved s') {r' : NodeRun} (mem : r' ∈ s'.runs) :
    ∃ r ∈ s.runs, r.id = r'.id ∧ r.state = r'.state := by
  have listed : (r'.id, r'.state) ∈ s'.runs.map fun r => (r.id, r.state) :=
    mem_map_of_mem mem
  rw [unmoved.states] at listed
  rcases mem_map.mp listed with ⟨r, old, same⟩
  injection same with id state
  exact ⟨r, old, id, state⟩

theorem underway (unmoved : s.Unmoved s') (underway : s.Underway runId) : s'.Underway runId := by
  intro r' mem same
  rcases unmoved.back mem with ⟨r, old, id, state⟩
  rw [← state]
  exact underway r old (id.trans same)

theorem updateRuns {guard : Store → NodeRun → Bool} {change : Nat → NodeRun → NodeRun}
    (keeps : ∀ now r, ((change now r).id, (change now r).state) = (r.id, r.state)) :
    Steps Store.Unmoved (updateRuns guard change) := by
  refine steps_updateRuns fun s => ?_
  refine ⟨rfl, rfl, rfl, ?_⟩
  dsimp only [updatedRuns]
  rw [map_map]
  refine map_congr_left fun r _ => ?_
  rw [Function.comp]
  split
  · exact keeps _ r
  · rfl

theorem bookkeeping {guard : Store → NodeRun → Bool} {change : Nat → NodeRun → NodeRun}
    (keeps : ∀ now r, ((change now r).id, (change now r).state) = (r.id, r.state)) :
    Steps Store.Unmoved (do
      let n ← Rimsky.updateRuns guard change
      if n = 0 then fail e : Tx Unit) :=
  steps_bind (updateRuns keeps) fun _ => steps_check fun _ => steps_pure _

theorem applyTerminalScratch (acq : Acquisition) (scratch : Option String) :
    Steps Store.Unmoved (applyTerminalScratch acq scratch) := by
  cases scratch with
  | none => exact steps_pure _
  | some text =>
    refine steps_unless fun _ => ?_
    refine steps_bind (bookkeeping fun _ _ => rfl) fun _ => ?_
    exact steps_bind (updateRuns fun _ _ => rfl) fun _ => steps_pure _

theorem upsertFinalAttributes (acq : Acquisition) (merged : Bag) :
    Steps Store.Unmoved (upsertFinalAttributes acq merged) := by
  refine steps_reads fun _ => steps_write fun s => ?_
  unfold upsertAttributes
  split <;> exact ⟨rfl, rfl, rfl, rfl⟩

end Store.Unmoved

def Store.retries (s : Store) (runId : Id) : Nat := ((s.run? runId).map (·.retryCounter)).getD 0

theorem applyTerminalScratch_retries (acq : Acquisition) (scratch : Option String) (runId : Id) :
    Steps (fun s s' : Store => s'.retries runId = s.retries runId)
      (applyTerminalScratch acq scratch) := by
  have written : ∀ {guard : Store → NodeRun → Bool} {change : Nat → NodeRun → NodeRun},
      (∀ now r, (change now r).id = r.id ∧ (change now r).retryCounter = r.retryCounter) →
      Steps (fun s s' : Store => s'.retries runId = s.retries runId) (updateRuns guard change) := by
    intro guard change keeps s
    rcases updateRuns_store guard change s with same | updated
    · rw [same]
    · have sameId : ∀ r, (if guard s r then change s.clock r else r).id = r.id := by
        intro r
        split
        · exact (keeps _ r).1
        · rfl
      rw [updated]
      simp only [retries, run?, updatedRuns, find?_key_map sameId]
      cases s.runs.find? (·.id = runId) with
      | none => rfl
      | some r =>
        simp only [Option.map_some, Option.getD_some]
        split
        · exact (keeps _ r).2
        · rfl
  cases scratch with
  | none => exact steps_pure _
  | some text =>
    refine steps_unless fun _ => ?_
    refine steps_bind (steps_bind (written fun _ _ => ⟨rfl, rfl⟩) fun _ =>
      steps_check fun _ => steps_pure _) fun _ => ?_
    exact steps_bind (written fun _ _ => ⟨rfl, rfl⟩) fun _ => steps_pure _

/-- What is done when an error settles leaves runs and claims as they are. -/
structure SettleHook (runId : Id) (onSettle : Tx Unit) : Prop where
  moveless : Moveless onSettle
  unmoved : Steps Store.Unmoved onSettle
  sound : ∀ s : Store, s.RunsSound → runId < s.nextId → (onSettle s).2.RunsSound

theorem SettleHook.none (runId : Id) : SettleHook runId (pure ()) where
  moveless := Moveless.composes.value _
  unmoved := steps_pure _
  sound _ sound _ := sound

theorem SettleHook.upsert (acq : Acquisition) (merged : Bag) :
    SettleHook acq.nodeRunId (upsertFinalAttributes acq merged) where
  moveless := Moveless.composes.chain (Moveless.composes.reads _) fun _ => Moveless.of_write _
  unmoved := Store.Unmoved.upsertFinalAttributes _ _
  sound _ sound known := (Tidy.upsert _ _ known).sound sound

/-- Where runs are sound, the transaction is tidy and the state machine refuses nothing. -/
structure Legal (args : RunArgs) {α : Type} (m : Tx α) : Prop where
  tidy : Steps (Tidy anytime args) m
  allowed : ∀ s, s.RunsSound → (m s).1 ≠ .error .illegalTransition

theorem Moveless.allowed {α : Type} {m : Tx α} (moveless : Moveless m) (s : Store) :
    (m s).1 ≠ .error .illegalTransition :=
  fun refused => (moveless s trivial).2 _ refused rfl

theorem allowed_bind {α β : Type} {m : Tx α} {f : α → Tx β}
    (first : (m s).1 ≠ .error .illegalTransition)
    (rest : ∀ a mid, m s = (.ok a, mid) → (f a mid).1 ≠ .error .illegalTransition) :
    ((m >>= f) s).1 ≠ .error .illegalTransition := by
  rw [bind_apply]
  split
  case h_1 a mid run => exact rest a mid run
  case h_2 e mid run =>
    rw [run] at first
    rintro ⟨⟩
    exact first rfl

namespace Legal

variable {args : RunArgs}

theorem of_moveless {α : Type} {m : Tx α} (tidy : Steps (Tidy anytime args) m)
    (moveless : Moveless m) :
    Legal args m := ⟨tidy, fun s _ => moveless.allowed s⟩

theorem sound {α : Type} {m : Tx α} (legal : Legal args m) {mid : Store} {a : α}
    (sound : s.RunsSound) (run : m s = (.ok a, mid)) : mid.RunsSound := by
  have changes := legal.tidy s sound
  rw [run] at changes
  exact changes.sound sound

theorem composes (args : RunArgs) : Composes StoreError.Plain fun {_} (m : Tx _) =>
    Legal args m where
  value a := .of_moveless (steps_pure a) (Moveless.composes.value a)
  reads f := .of_moveless (steps_read f) (Moveless.composes.reads f)
  fails plain := .of_moveless (steps_fail _) (Moveless.composes.fails (by rintro rfl; exact plain))
  chain first rest := {
    tidy := steps_bind first.tidy fun a => (rest a).tidy
    allowed := fun s sound => allowed_bind (first.allowed s sound) fun a mid run =>
      (rest a).allowed mid (first.sound sound run) }

/-- A move is not refused where the table of transitions has it. -/
theorem updateState_allowed {state : NodeState} {reason : TransitionReason}
    (moves : ∀ row, s.run? runId = some row → nextState row.state reason = some state)
    (sig : Option String) :
    (Nodes.updateState runId state reason sig s).1 ≠ .error .illegalTransition := by
  unfold Nodes.updateState
  rw [read_bind]
  cases found : s.run? runId with
  | none => simp [need]
  | some row =>
    rw [need_some, Transaction.pure_bind, if_pos (moves row found)]
    exact (Moveless.composes.chain (Moveless.updateRuns _ _) fun _ =>
      Moveless.composes.value _).allowed s

/-- Only a parked run is resumed, so the wake that follows is allowed. -/
theorem parked_of_resumeParked {mid : Store} {id : Id} (distinct : (s.runs.map (·.id)).Nodup)
    (run : Queue.resumeParked id s = (.ok true, mid)) {row : NodeRun}
    (found : mid.run? id = some row) : row.state = .parked := by
  rcases bind_eq_ok.mp run with ⟨n, mid', updated, counted⟩
  injection counted with counted same
  subst same
  rw [updateRuns_eq] at updated
  split at updated
  case isFalse => cases updated
  case isTrue =>
    injection updated with affected stored
    injection affected with affected
    injection counted with counted
    subst stored
    have some := of_decide_eq_true counted
    rw [← affected] at some
    rcases exists_mem_of_length_pos (some ▸ Nat.one_pos) with ⟨parked, mem⟩
    rcases mem_filter.mp mem with ⟨known, fits⟩
    simp only [Bool.and_eq_true, decide_eq_true_eq] at fits
    rcases mem_of_run? found with ⟨here, sameId⟩
    rcases mem_map.mp here with ⟨r, old, rfl⟩
    have id : r.id = id := by
      split at sameId <;> exact sameId
    have same : r = parked := inj_on_of_nodup_map distinct old known (id.trans fits.1.symm)
    subst same
    split <;> exact fits.2

theorem wake (id : Id) : Legal args (resumeParkedRunInTx id .cascadeResume) := by
  refine ⟨Tidy.wake id (by simp) (by simp) (by simp), fun s sound => ?_⟩
  have found : Moveless (Queue.resumeParked id) :=
    Moveless.composes.chain (Moveless.updateRuns _ _) fun _ => Moveless.composes.value _
  refine allowed_bind (found.allowed s) fun resumed mid run => ?_
  cases resumed with
  | false => simp
  | true =>
    refine allowed_bind (updateState_allowed (fun row here => ?_) none) fun _ _ _ => by simp
    rw [parked_of_resumeParked sound.distinct run here]
    rfl

section Gate

variable {rec : Rec} (gate : ∀ id, Legal args (rec.evaluateOneGate id))

theorem pend (nodeId runScopeId frameId : Id) :
    Legal args (Nodes.createCascadePending nodeId runScopeId frameId) :=
  .of_moveless (Tidy.pend _ _ _) (Moveless.createCascadePending _ _ _)

theorem waitInsert (row : WaitRow) : Legal args (WaitSet.insert row) :=
  .of_moveless (Tidy.waitInsert _) (Moveless.of_write _)

theorem attempt_bind {α β : Type} {m : Tx α} {f : Except StoreError α → Tx β} (legal : Legal args m)
    (rest : ∀ outcome, outcome ≠ .error .illegalTransition → Legal args (f outcome)) :
    Legal args (attempt m >>= f) where
  tidy s sound := by
    have changes := legal.tidy s sound
    exact changes.trans ((rest _ (legal.allowed s sound)).tidy _ (changes.sound sound))
  allowed s sound := (rest _ (legal.allowed s sound)).allowed _ ((legal.tidy s sound).sound sound)

theorem raise {α : Type} (other : e ≠ .illegalTransition) :
    Legal args (fail e : Tx α) := .of_moveless (steps_fail _) (Moveless.composes.fails other)

theorem ensureCascadePending (receiverNodeId runScopeId frameId senderNodeId senderNodeRunId : Id) :
    Legal args (ensureCascadePending receiverNodeId runScopeId frameId senderNodeId
      senderNodeRunId) := by
  have c := composes args
  refine c.reading fun latest => ?_
  cases latest with
  | none => exact pend _ _ _
  | some latest =>
    refine c.reading fun covered => c.skips fun _ => ?_
    exact c.reading fun senders =>
      Composes.ite (fun _ => pend _ _ _) fun _ => c.value _

include gate

theorem signalling (runScopeId : Id) : Signalling (fun {_} m => Legal args m) rec runScopeId where
  wake := wake
  receive receiverNodeId frameId senderNodeId senderNodeRunId visited := by
    have c := composes args
    refine Composes.ite (fun _ => c.reading fun _ => c.value _) fun _ => ?_
    refine attempt_bind (ensureCascadePending _ _ _ _ _) fun outcome allowed => ?_
    split
    · exact c.value _
    · exact c.value _
    · exact raise fun refused => allowed (congrArg _ refused)
  pull upstream receiverNodeRunId frameId := by
    have c := composes args
    refine c.reading fun inFlight => ?_
    cases inFlight with
    | some upstreamRunId => exact waitInsert _
    | none =>
      refine c.reading fun ran => c.skips fun _ => ?_
      refine attempt_bind (pend _ _ _) fun outcome allowed => ?_
      split
      · exact c.value _
      · exact raise fun refused => allowed (congrArg _ refused)
      · exact c.chain (gate _) fun _ => waitInsert _

theorem emits (sender : Sender) : Emits (fun {_} m => Legal args m) args rec sender :=
  .of_receiver (composes args) fun _ _ _ _ _ _ _ =>
    (signalling gate _).walkReceiver (composes args)
      (.of_moveless (Tidy.logDelivery _) (Moveless.of_write _)) (fun _ _ _ => waitInsert _) _ _ _ _

omit gate in
theorem markDrained (frameId runId : Id) : Legal args (WaitSet.markDrainedBySender frameId runId) :=
  .of_moveless (Tidy.markDrained _ _) (Moveless.of_write _)

omit gate in
theorem removeForNode (nodeId runScopeId : Id) (supervisorId : String) :
    Legal args (Queue.removeForNode nodeId runScopeId supervisorId) :=
  .of_moveless (Tidy.removeForNode _ _ _)
    (Moveless.composes.chain (Moveless.updateRuns _ _) fun _ => Moveless.composes.value _)

theorem drainWaitSetOnSettled (frameId senderNodeRunId : Id) :
    Legal args (drainWaitSetOnSettled rec frameId senderNodeRunId) :=
  drainWaitSetOnSettled_composes (composes args) gate (markDrained _ _)

theorem announceSettled (acq : Acquisition) (sig : Signal) :
    Legal args (announceSettled args rec acq sig) := by
  have c := composes args
  refine c.chain ((emits gate _).emitSignalOnce c _) fun _ => ?_
  refine c.chain ((emits gate _).emitAttributeChangesForRun c _ _) fun _ => ?_
  exact c.chain (drainWaitSetOnSettled gate _ _) fun _ => removeForNode _ _ _

theorem transitionHolderIfFullyResolved (holderNodeRunId : Id) :
    Legal args (transitionHolderIfFullyResolved args rec holderNodeRunId) := by
  have c := composes args
  refine ⟨Walking.transitionHolderIfFullyResolved (Tidy.holders fun id => (gate id).tidy) _, ?_⟩
  intro s sound
  unfold Rimsky.transitionHolderIfFullyResolved
  rw [read_bind]
  simp only [id_eq]
  cases s.run? holderNodeRunId with
  | none => simp
  | some holder =>
    dsimp only
    split
    case isTrue => simp
    case isFalse =>
    have terminal := isTerminal_holderVerdict s holderNodeRunId
    have settled : Tidy anytime args s _ :=
      Tidy.settle holder.id (s.holderVerdict holderNodeRunId).2.1
      (some (s.holderVerdict holderNodeRunId).2.2.type) (.inr terminal) s
    refine allowed_bind (by simp) fun outcome mid run => ?_
    split
    · simp
    case h_2 e other =>
      rintro ⟨⟩
      exact other rfl
    case h_3 =>
      refine (announceHolder_composes c gate ?_ (fun _ => emits gate _) (markDrained _ _)).allowed
        mid ?_
      · exact .of_moveless (Tidy.recordRunTreeChanged _ _ _ terminal)
          (Moveless.bookkeeping _ _ (by simp))
      · injection run with _ stored
        rw [← stored]
        exact (settled sound).sound sound

end Gate

end Legal

structure RecLegal (args : RunArgs) (rec : Rec) : Prop where
  gate : ∀ id, Legal args (rec.evaluateOneGate id)
  resolve : ∀ td, Legal args (rec.resolveClaimHandleTerminal td)

theorem RecLegal.tidy {args : RunArgs} {rec : Rec} (nested : RecLegal args rec) :
    RecSteps (Tidy anytime args) rec :=
  ⟨fun id => (nested.gate id).tidy, fun td => (nested.resolve td).tidy⟩

namespace Legal

variable {args : RunArgs}

section Nested

variable {rec : Rec} (nested : RecLegal args rec)

omit nested in
theorem metadata : KeepsMetadata fun {_} m => Legal args m := by
  intro parentId childId outcome text rest ends
  refine ⟨Tidy.metadata _ _ _ _ _ fun parent => (ends parent).tidy, fun s sound => ?_⟩
  have kept : Tidy anytime args s _ := Tidy.metadata parentId childId outcome text
    (fun _ => pure []) (fun _ => steps_pure _) s
  replace kept := kept sound
  rw [read_bind] at kept ⊢
  cases found : s.claimHandle? parentId with
  | none => simp
  | some parent =>
    have written : Moveless (recordChildCommitMetadata parent childId outcome text) := by
      unfold recordChildCommitMetadata
      split
      · refine Composes.ite (fun _ => Moveless.composes.value _) fun _ => ?_
        exact Moveless.composes.chain (Moveless.composes.reads _) fun _ => Moveless.of_write _
      · exact Moveless.composes.value _
    refine allowed_bind (written.allowed s) fun _ mid run => (ends parent).allowed mid ?_
    simp only [found, bind_of_ok run, pure_apply] at kept
    exact kept.sound sound

omit nested in
theorem closePartitionScopes (children : List ClaimHandle) :
    Legal args (closePartitionScopes children) := by
  refine .of_moveless (Tidy.closePartitionScopes _) (Moveless.composes.forM fun c _ => ?_)
  refine Moveless.composes.chain (Moveless.composes.reads _) fun s => ?_
  split
  · exact Moveless.composes.value _
  · exact Composes.ite (fun _ => Moveless.composes.value _) fun _ => Moveless.of_write _

include nested

theorem resolving : Resolving (fun {_} m => Legal args m) args rec where
  resolve := nested.resolve
  holder := transitionHolderIfFullyResolved nested.gate
  queue _ := .of_moveless ((Tidy.resolving nested.tidy).queue _)
    (Moveless.composes.chain (Moveless.composes.reads _) fun _ => Moveless.enqueueVerb _)
  promote _ := .of_moveless (Tidy.claiming.promoteHandleState _) (Moveless.promoteHandleState _)
  delete _ _ := .of_moveless (Tidy.claiming.deleteHandle _ _) (Moveless.deleteHandle _ _)
  reassign _ _ _ := .of_moveless ((Tidy.resolving nested.tidy).reassign _ _ _)
    (Composes.ite (fun _ => Moveless.composes.fails (by simp)) fun _ => Moveless.updateHandle _ _ _)
  count _ _ _ _ := .of_moveless ((Tidy.resolving nested.tidy).count _ _ _ _)
    (Moveless.updateHandle _ _ _)
  failAll _ _ := .of_moveless ((Tidy.resolving nested.tidy).failAll _ _)
    (Moveless.of_write _)
  metadata := metadata
  close := closePartitionScopes

theorem releaseLocks (acq : Acquisition) (success : Bool) :
    Legal args (releaseLocks args rec acq success) :=
  (resolving nested).releaseLocks (composes args)
    (fun _ _ => .of_moveless (Tidy.claiming.markClaimHolderForRun _ _ _)
      (Moveless.markClaimHolderForRun _ _ _))
    success

/-- The policy moves a run by what state it is in, and each of these moves is in the table. -/
theorem policyTransition (acq : Acquisition) (kind : ActionKind) (sig : String) :
    Legal args (policyTransition acq kind sig) := by
  refine ⟨(Tidy.settling nested.tidy acq).policyTransition (steps_composes _ _) _ _, ?_⟩
  intro s _
  have recorded : ∀ state, Moveless (do
      recordRunTreeChanged acq.nodeRunId state sig false
      return true) := fun state =>
    Moveless.composes.chain (Moveless.bookkeeping _ _ (by simp)) fun _ => Moveless.composes.value _
  unfold Rimsky.policyTransition
  rw [read_bind]
  cases found : s.run? acq.nodeRunId with
  | none =>
    split <;> simp
  | some row =>
    have moves : ∀ {state reason}, nextState row.state reason = some state →
        (Nodes.updateState acq.nodeRunId state reason (some sig) s).1 ≠
          .error .illegalTransition := by
      intro state reason allowed
      refine updateState_allowed (fun row' here => ?_) _
      rw [← Option.some.inj (found.symm.trans here)]
      exact allowed
    obtain ⟨state, isState⟩ : ∃ state, row.state = state := ⟨_, rfl⟩
    rw [isState] at moves
    simp only [Option.map_some, isState]
    split
    case isTrue =>
      cases state with
      | running | stale => exact allowed_bind (moves rfl) fun _ mid _ => (recorded _).allowed mid
      | pending | held | parked | fresh | failed => simp
    case isFalse =>
      cases state with
      | running | stale => exact allowed_bind (moves rfl) fun _ mid _ => by simp
      | pending | held | parked | fresh | failed => simp

omit nested in
theorem moved (args : RunArgs) {β : Type} {state : NodeState} {reason : TransitionReason}
    (settled : state = .held ∨ state.isTerminal) (moves : nextState .running reason = some state)
    {sig : Option String} {rest : Unit → Tx β} (legal : Legal args (rest ())) (sound : s.RunsSound)
    (running : ∀ row, s.run? runId = some row → row.state = .running) :
    ((Nodes.updateState runId state reason sig >>= rest) s).1 ≠ .error .illegalTransition := by
  refine allowed_bind (updateState_allowed (fun row found => ?_) _) fun _ mid run => ?_
  · rw [running row found]
    exact moves
  · have changes : Tidy anytime args s _ := Tidy.settle runId reason sig settled s
    rw [run] at changes
    exact legal.allowed mid ((changes sound).sound sound)

theorem applyErrorPolicyGiveUpHeld (sound : s.RunsSound)
    (running : ∀ row, s.run? acq.nodeRunId = some row → row.state = .running) (sig : Signal) :
    (applyErrorPolicyGiveUpHeld args rec acq sig s).1 ≠ .error .illegalTransition := by
  have c := composes args
  refine moved args (.inl rfl) rfl ?_ sound running
  refine c.chain (removeForNode _ _ _) fun _ => (emits nested.gate acq.sender).announces c _ _ ?_
  refine c.chain (drainWaitSetOnSettled nested.gate _ _) fun _ => ?_
  exact c.chain (transitionHolderIfFullyResolved nested.gate _) fun _ => c.value _

/-- Giving up with claims held is the one move that needs the run under way. -/
theorem policySettle (sound : s.RunsSound) (known : acq.nodeRunId < s.nextId)
    (decision : PolicyDecision)
    (fits : decision.kind = .giveUp → s.hasActiveHeldClaims acq.nodeRunId →
      s.Underway acq.nodeRunId) :
    (policySettle args rec acq decision s).1 ≠ .error .illegalTransition := by
  have release := releaseLocks nested acq (decision.kind = .pass)
  unfold Rimsky.policySettle
  rw [read_bind]
  refine allowed_bind (release.allowed s sound) fun released mid run => ?_
  have changes := release.tidy s sound
  rw [run] at changes
  have sound' := changes.sound sound
  rw [read_bind]
  split
  case isTrue inFlight =>
    simp only [Bool.and_eq_true, Bool.or_eq_true, decide_eq_true_eq] at inFlight
    have underway := changes.underway known (fits inFlight.1.1 inFlight.2)
    refine allowed_bind (applyErrorPolicyGiveUpHeld nested sound' (fun row found => ?_) _)
      fun _ _ _ => by simp
    rcases mem_of_run? found with ⟨mem, same⟩
    rw [found] at inFlight
    rcases inFlight.1.2 with running | stale
    · simpa using running
    · -- releasing claims does not put a run back into the queue
      have state := underway row mem same
      simp only [Option.map_some, Option.some.injEq] at stale
      rw [stale] at state
      simp [NodeState.isTerminal] at state
  case isFalse =>
    have transition := policyTransition nested acq decision.kind decision.signal.type
    refine allowed_bind (transition.allowed mid sound') fun _ mid' run => ?_
    refine allowed_bind ((announceSettled nested.gate acq _).allowed mid'
      (transition.sound sound' run)) fun _ _ _ => by simp

end Nested

end Legal

def Store.policyAction (s : Store) (acq : Acquisition) (error : PolicyError) : ActionKind :=
  (evaluatePolicy (lookupPolicyForNode acq.nodeDef error.errorClass error.fallbackClass)
    (s.retries acq.nodeRunId) acq.maxRetries).1

/-- Giving up the run does not find it queued with claims it has kept. -/
def Store.MayGiveUp (s : Store) (acq : Acquisition) (error : PolicyError) : Prop :=
  s.policyAction acq error = .giveUp → s.hasActiveHeldClaims acq.nodeRunId →
    s.Underway acq.nodeRunId

namespace Legal

variable {args : RunArgs} {rec : Rec} (nested : RecLegal args rec)

include nested

theorem applyErrorPolicyWithSettleHook (sound : s.RunsSound) (known : acq.nodeRunId < s.nextId)
    {error : PolicyError} (fits : s.MayGiveUp acq error) {onSettle : Tx Unit}
    (hook : SettleHook acq.nodeRunId onSettle) :
    (applyErrorPolicyWithSettleHook args rec acq error onSettle s).1 ≠
      .error .illegalTransition := by
  have c := composes args
  have settling := Tidy.settling nested.tidy acq
  have scratch : Legal args (Rimsky.applyTerminalScratch acq error.scratch) :=
    .of_moveless (settling.scratch _) (Moveless.applyTerminalScratch _ _)
  refine allowed_bind (scratch.allowed s sound) fun _ s1 run => ?_
  have unmoved := Store.Unmoved.applyTerminalScratch acq error.scratch s
  have retries := applyTerminalScratch_retries acq error.scratch acq.nodeRunId s
  have sound1 := scratch.sound sound run
  rw [run] at unmoved retries
  have action := fits
  unfold Store.MayGiveUp policyAction at action
  rw [← retries] at action
  have counted : Nodes.getRunEvaluatorState acq.nodeRunId s1 =
      (.ok (s1.retries acq.nodeRunId), s1) :=
    rfl
  rw [bind_of_ok counted]
  generalize evaluatePolicy (lookupPolicyForNode acq.nodeDef error.errorClass error.fallbackClass)
    (s1.retries acq.nodeRunId) acq.maxRetries = decided at action ⊢
  rcases decided with ⟨kind, counter⟩
  have counts : Legal args (Nodes.updateRunEvaluatorState acq.nodeRunId counter) :=
    .of_moveless (settling.counter _) (Moveless.bookkeeping _ _ (by simp))
  refine allowed_bind (counts.allowed s1 sound1) fun _ s2 run => ?_
  have bumped : Steps Store.Unmoved (Nodes.updateRunEvaluatorState acq.nodeRunId counter) :=
    Store.Unmoved.bookkeeping fun _ _ => rfl
  have unmoved := IsTrans.trans _ _ _ unmoved (bumped.run run)
  have sound2 := counts.sound sound1 run
  have known2 : acq.nodeRunId < s2.nextId := unmoved.nextId ▸ known
  split
  case isTrue =>
    refine (c.chain ((emits nested.gate _).emitSignalOnce c _) fun _ => c.chain ?_ fun _ =>
      c.value _).allowed s2 sound2
    exact .of_moveless settling.stamp (Moveless.bookkeeping _ _ (by simp))
  case isFalse =>
  split
  case isTrue =>
    refine (c.chain ((emits nested.gate _).emitSignalOnce c _) fun _ =>
      c.chain (releaseLocks nested acq _) fun _ => c.chain ?_ fun _ => c.value _).allowed s2 sound2
    exact .of_moveless settling.purge (Moveless.deleteAbandonedClaimHandles _)
  case isFalse =>
    refine allowed_bind (hook.moveless.allowed s2) fun _ s3 run => ?_
    have sound3 := hook.sound s2 sound2 known2
    rw [run] at sound3
    have unmoved := IsTrans.trans _ _ _ unmoved (hook.unmoved.run run)
    refine policySettle nested sound3 (unmoved.nextId ▸ known) _ fun gives holds => ?_
    exact unmoved.underway (action gives (unmoved.hasActiveHeldClaims _ ▸ holds))

/-- A run at its gate has no claims, so giving up there is allowed. -/
theorem routeSubstitutionFailureAtGate {row : NodeRun} (sound : s.RunsSound)
    (known : s.run? row.id = some row) (pending : row.state = .pending)
    (error : SubstitutionError) :
    (routeSubstitutionFailureAtGate args rec row error s).1 ≠ .error .illegalTransition := by
  have mem : row ∈ s.runs := mem_of_find?_eq_some known
  unfold Rimsky.routeSubstitutionFailureAtGate
  rw [read_bind]
  cases s.node? row.nodeId with
  | none => simp
  | some node =>
  have loads := loadTemplateSpec_composes (composes args) node.instanceId
  refine allowed_bind (loads.allowed s sound) fun spec mid run => ?_
  have same : s = mid := (readOnly_loadTemplateSpec node.instanceId).run run
  subst same
  rw [read_bind]
  rcases transitionPendingToStale_of_pending mem pending s.clock with ⟨e, failed⟩ | ⟨-, passed⟩
  · have clears : Moveless (Nodes.transitionPendingToStale row.id s.clock) :=
      Moveless.bookkeeping _ _ (by simp)
    exact allowed_bind (clears.allowed s) fun _ _ run => by
      rw [failed] at run
      cases run
  · rw [bind_of_ok passed]
    have opened : ({ s with runs := s.runs.map (NodeRun.passed row.id s.clock) } :
      Store).RunsSound := by
      refine sound.map (fun r _ => ?_) fun r mem waits => ?_
      · unfold NodeRun.passed
        split <;> rfl
      · have same := NodeRun.passed_of_pending waits
        rw [same] at waits ⊢
        exact ⟨waits, (sound.queued r mem waits).2⟩
    have free := sound.free.free known pending
    refine allowed_bind (applyErrorPolicyWithSettleHook nested opened (sound.known row mem) ?_
      (.none _)) fun _ _ _ => by simp
    intro _ holds
    have nothing : ({ s with runs := s.runs.map (NodeRun.passed row.id s.clock) } :
        Store).hasActiveHeldClaims row.id = false :=
      hasActiveHeldClaims_of_free ⟨free.handles, free.holders⟩
    exact absurd (nothing.symm.trans holds) (by simp)

omit nested in
theorem allowed_reads {α β : Type} {m : Tx α} (reads : Steps Eq m) (moveless : Moveless m)
    {f : α → Tx β} (rest : ∀ a, (f a s).1 ≠ .error .illegalTransition) :
    ((m >>= f) s).1 ≠ .error .illegalTransition := by
  refine allowed_bind (moveless.allowed s) fun a mid run => ?_
  have same : s = mid := reads.run run
  exact same ▸ rest a

omit nested in
theorem buildResolvedBagAtGateEval_moveless (row : NodeRun) (carry : Bag) :
    Moveless (buildResolvedBagAtGateEval args row carry) := by
  have c := Moveless.composes
  refine c.reading fun s => ?_
  split
  · exact c.value _
  · refine c.chain (c.reading fun _ => c.needs (by simp) _) fun spec => ?_
    split <;> exact c.value _

omit nested in
theorem loadReceiverCarryForward_moveless (row : NodeRun) :
    Moveless (loadReceiverCarryForward row) :=
  Moveless.composes.chain (Moveless.composes.reads _) fun _ =>
    Moveless.composes.chain (Moveless.composes.reads _) fun _ => Moveless.composes.value _

omit nested in
theorem modeDropIfPriorEqual_moveless (row : NodeRun) (bag : Bag) (includeSettled : Bool) :
    Moveless (modeDropIfPriorEqual args row bag includeSettled) := by
  have c := Moveless.composes
  have equal : ∀ prior, Moveless (bagsEqual args prior bag) := by
    intro prior
    refine c.reading fun stored => ?_
    cases stored with
    | some stored => exact c.value _
    | none =>
      refine c.chain (loadReceiverCarryForward_moveless prior) fun carry => ?_
      refine c.chain (buildResolvedBagAtGateEval_moveless prior carry) fun resolved => ?_
      split
      · exact c.value _
      · exact c.fails (by simp)
  refine c.reading fun queued => ?_
  cases queued with
  | some prior => exact equal prior
  | none =>
    refine c.skips fun _ => c.reading fun settled => ?_
    cases settled with
    | none => exact c.value _
    | some prior => exact equal prior

omit nested in
theorem passGate_moveless (row : NodeRun) (resolved : Bag) :
    Moveless (passGate args row resolved) := by
  have c := Moveless.composes
  have rule : ∀ mode, Moveless (applyCascadeModeRule args row resolved mode) := by
    intro mode
    cases mode with
    | mostRecent =>
      refine c.reading fun later => c.skips fun _ => ?_
      exact c.chain (Moveless.of_write _) fun _ => c.value _
    | sequenced => exact c.value _
    | idempotentQueue => exact modeDropIfPriorEqual_moveless _ _ _
    | idempotentSettled => exact modeDropIfPriorEqual_moveless _ _ _
  refine c.reading fun node => c.chain (rule _) fun drops => Composes.ite (fun _ => ?_) fun _ => ?_
  · exact c.reading fun row =>
      Composes.ite (fun _ => Moveless.of_write _) fun _ => c.fails (by simp)
  · refine c.reading fun advanced => c.skips fun _ => ?_
    refine c.chain (Moveless.of_write _) fun _ => c.chain (Moveless.of_write _) fun _ => ?_
    exact c.reading fun _ => Moveless.bookkeeping _ _ (by simp)

theorem evaluateOneGateBody (runId : Id) : Legal args (evaluateOneGateBody args rec runId) := by
  refine ⟨Tidy.evaluateOneGateBody nested.tidy.gate runId, fun s sound => ?_⟩
  have c := Moveless.composes
  have upstream : ∀ row, Moveless (anySubscribedUpstreamInFlight row) := by
    intro row
    refine c.reading fun s => ?_
    split
    · exact c.value _
    · split
      · exact c.value _
      · exact c.reading fun _ => c.value _
  unfold Rimsky.evaluateOneGateBody
  rw [read_bind]
  cases found : s.run? runId with
  | none => simp
  | some row =>
  have same : row.id = runId := (mem_of_run? found).2
  dsimp only
  split
  case isTrue => simp
  case isFalse pending =>
  refine allowed_reads (steps_read _) (c.reads _) fun undrained => ?_
  split
  case isTrue => simp
  case isFalse =>
  refine allowed_reads (readOnly_anySubscribedUpstreamInFlight row) (upstream row) fun busy => ?_
  split
  case isTrue => simp
  case isFalse =>
  refine allowed_reads (readOnly_loadReceiverCarryForward row)
    (loadReceiverCarryForward_moveless row) fun carry => ?_
  refine allowed_reads (readOnly_buildResolvedBagAtGateEval args row carry)
    (buildResolvedBagAtGateEval_moveless row carry) fun resolved => ?_
  cases resolved with
  | ok resolved => exact (passGate_moveless row resolved).allowed s
  | error error =>
    dsimp only
    split
    · exact routeSubstitutionFailureAtGate nested sound (same ▸ found)
        (by simpa using pending) error
    · simp

end Legal

/-- By induction on the fuel, nothing that is nested asks for a refused move. -/
theorem RecLegal.knot (args : RunArgs) (fuel : Nat) : RecLegal args (knot args fuel) := by
  induction fuel with
  | zero =>
    refine ⟨fun _ => ?_, fun _ => ?_⟩
    · exact (Legal.composes args).fails trivial
    · exact (Legal.composes args).fails trivial
  | succ fuel ih =>
    refine ⟨Legal.evaluateOneGateBody ih, fun td => ?_⟩
    exact (Legal.resolving ih).resolveClaimHandleTerminalBody (Legal.composes args) td

end Rimsky
