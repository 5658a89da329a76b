import Rimsky.Runtime.LegalMoves

/-!
# The moves of a run that settles

Which moves the functions that settle a run ask for, and when the state machine refuses them. A
success is applied to a running run: releasing its claims and carrying its attributes over leave
it running. An error is also applied to a stale run, whose claims could not be acquired. If the
run has kept claims from before it was parked and gives up, it is to be held, and only a running
run can be.
-/

namespace Rimsky

open Transaction

/-- The run is known and, if it is still there, running. -/
def Store.isRunning (s : Store) (runId : Id) : Prop := s.isIn (· = .running) runId

theorem firm_running : Firm (· = .running) := by
  rintro _ rfl
  exact ⟨nofun, nofun, nofun⟩

abbrev StaysRunning (runId : Id) : Store → Store → Prop := StaysIn (· = .running) runId

variable {args : RunArgs} {s : Store} {rec : Rec}

namespace StaysRunning

variable {runId : Id} (nested : RecSteps (StaysRunning runId) rec)

theorem footprint : Footprint (StaysRunning runId) := StaysIn.footprint firm_running

include nested

theorem holders : HolderSteps (StaysRunning runId) args rec := StaysIn.holders firm_running nested

theorem releaseLocks (acq : Acquisition) (success : Bool) :
    Steps (StaysRunning runId) (releaseLocks args rec acq success) :=
  footprint.releaseLocks nested (holders nested) acq success

theorem settleFromDelegate (exitRunId instanceId : Id) (writeback : Bag) :
    Steps (StaysRunning runId) (settleFromDelegate args rec exitRunId instanceId writeback) := by
  have c := steps_composes (StaysRunning runId) StoreError.Plain
  have walk := footprint.toWalking (R := StaysRunning runId)
  exact (footprint.resolving nested (holders nested)).settleFromDelegate c
    (fun _ => walk.emits nested.gate fun _ _ => StaysIn.logDelivery _) nested.gate walk.markDrained
    (fun _ => steps_write fun _ running => running)
    (carriesOver_of_upsert c fun _ _ => walk.upsert _ _ _) exitRunId instanceId

end StaysRunning

namespace Legal

variable {args : RunArgs} {rec : Rec} (nested : RecLegal args rec)

theorem carriesOver (args : RunArgs) (writeback : Bag) :
    CarriesOver (fun {_} m => Legal args m) writeback := by
  intro parentId rest ends
  refine ⟨Tidy.carriesOver writeback parentId rest fun parent => (ends parent).tidy,
    fun s sound => ?_⟩
  rw [read_bind]
  cases found : s.run? parentId with
  | none => simp [need]
  | some parent =>
    have known := sound.known parent (List.mem_of_find?_eq_some found)
    rw [need_some, Transaction.pure_bind]
    split
    case isTrue =>
      refine allowed_bind ((Moveless.of_write _).allowed s) fun _ mid run =>
        (ends parent).allowed mid ?_
      have stored : (NodeAttributes.upsert parent.id parent.nodeId writeback s).2 = mid :=
        congrArg Prod.snd run
      exact stored ▸ (Tidy.upsert _ _ known).sound sound
    case isFalse => exact (ends parent).allowed s sound

include nested

theorem settleFromDelegate (exitRunId instanceId : Id) (writeback : Bag) :
    Legal args (settleFromDelegate args rec exitRunId instanceId writeback) :=
  (resolving nested).settleFromDelegate (composes args) (emits nested.gate)
    nested.gate markDrained (fun _ => .of_moveless (Tidy.close _) (Moveless.of_write _))
    (carriesOver args writeback) exitRunId instanceId

end Legal

namespace Moveless

variable {args : RunArgs}

theorem createChildNodeRun (nodeId frameId runScopeId : Id) (executor : String)
    (required : List String) :
    Moveless (createChildNodeRun nodeId frameId runScopeId executor required) := by
  refine composes.chain (composes.reads _) fun inFlight => ?_
  cases inFlight with
  | some existing => exact composes.value _
  | none =>
    refine composes.chain newId fun runId => composes.chain (composes.reads _) fun now => ?_
    refine composes.chain (composes.chain (composes.reads _) fun s => ?_) fun _ => composes.value _
    refine Composes.ite (fun _ => ?_) fun _ => composes.value _
    refine composes.chain (composes.chain (composes.reads _) fun _ => putRuns _) fun _ => ?_
    exact composes.chain (composes.reads _) fun _ => of_write _

theorem partitionScope (input : ChildExecutionInput) (key : String) :
    Moveless (partitionScope input key) := by
  refine composes.chain (composes.reads _) fun existing => ?_
  cases existing with
  | some existing => exact composes.value _
  | none =>
    refine composes.chain newId fun scopeId => ?_
    refine composes.chain (composes.chain (composes.reads _) fun _ => ?_) fun _ => composes.value _
    exact Composes.ite (fun _ => of_write _) fun _ => composes.fails (by simp)

theorem dispatchChildren (input : ChildExecutionInput) :
    Moveless (dispatchChildren args input) := by
  refine Composes.ite (fun _ => composes.value _) fun _ =>
    composes.chain (composes.reads _) fun s => ?_
  split
  · exact composes.fails (by simp)
  · refine Composes.ite (fun _ => composes.fails (by simp)) fun _ => composes.foldlM fun _ p _ => ?_
    refine composes.chain (Composes.ite (fun _ => composes.fails (by simp)) fun _ => ?_) fun _ =>
      composes.value _
    refine composes.chain (partitionScope _ _) fun scopeId => composes.foldlM fun _ child _ => ?_
    refine composes.chain (createChildNodeRun _ _ _ _ _) fun runId => ?_
    exact composes.guarded (fun _ => updateHandle _ _ _) fun _ => composes.value _

theorem bindEntryAliasEdgesToCaller (acq : Acquisition) (spec : TemplateSpec) (delegate : String)
    (nodes : List Node) (dispatched : List DispatchedChild) (callerSig : Signal) :
    Moveless (bindEntryAliasEdgesToCaller args acq spec delegate nodes dispatched callerSig) := by
  unfold Rimsky.bindEntryAliasEdgesToCaller
  split
  · exact composes.value _
  · refine Composes.ite (fun _ => composes.value _) fun _ => ?_
    refine composes.chain (composes.forM fun _ _ => of_write _) fun _ => ?_
    exact Composes.ite (fun _ => composes.value _) fun _ => of_write _

theorem seedEntryAliasSourcedAttributes (internals : List TemplateNodeDef) (nodes : List Node)
    (dispatched : List DispatchedChild) (callerBag : Bag) :
    Moveless (seedEntryAliasSourcedAttributes internals nodes dispatched callerBag) := by
  refine composes.forM fun child _ => ?_
  dsimp only
  split
  · exact composes.value _
  · refine Composes.ite (fun _ => composes.value _) fun _ =>
      composes.chain (composes.reads _) fun _ => ?_
    exact composes.chain (of_write _) fun _ => of_write _

end Moveless

/-- A delegating caller is made running again by an update that asks for no move. -/
theorem Legal.applyTerminalCompleteSubgraphCaller (nested : RecLegal args rec) {acq : Acquisition}
    (sound : s.RunsSound) (known : acq.nodeRunId < s.nextId) (merged : Bag) (t : TerminalEvent) :
    (applyTerminalCompleteSubgraphCaller args rec acq merged t s).1 ≠
      .error .illegalTransition := by
  have c := composes args
  have m := Moveless.composes
  have loads := loadTemplateSpec_composes c acq.instanceId
  refine allowed_bind (loads.allowed s sound) fun spec mid run => ?_
  have same : s = mid := (Walking.readOnly_loadTemplateSpec acq.instanceId).run run
  subst same
  cases subgraphInternals spec ((acq.nodeDef.map (·.delegate)).getD "") with
  | none => simp [need]
  | some internals =>
  rw [need_some, Transaction.pure_bind]
  have written : Moveless (upsertFinalAttributes acq merged) :=
    m.chain (m.reads _) fun _ => Moveless.of_write _
  have calm : Calm s (upsertFinalAttributes acq merged s).2 := Tidy.upsert _ _ known
  refine allowed_bind (written.allowed s) fun _ s1 run => ?_
  rw [run] at calm
  have scratched := Calm.applyTerminalScratch acq t.scratch s1
  refine allowed_bind ((Moveless.applyTerminalScratch acq t.scratch).allowed s1) fun _ s2 run => ?_
  rw [run] at scratched
  have sound2 := (calm.trans scratched).sound sound
  have records : Moveless (NodeRunTree.updateStateAndOutcome acq.nodeRunId .running
      (some "terminal/success") t.changed) := Moveless.bookkeeping _ _ (by simp)
  refine allowed_bind (records.allowed s2) fun _ s3 run => ?_
  have sound3 : s3.RunsSound := by
    rcases updateStateAndOutcome_cases acq.nodeRunId .running (some "terminal/success")
      t.changed s2 with ⟨e, failed⟩ | ⟨outcome, moved⟩
    · rw [failed] at run
      cases run
    · rw [moved] at run
      injection run with _ stored
      exact stored ▸ reopened_sound sound2 acq.nodeRunId t.changed
  have tells : Legal args (emitAttributeChangesForRun args rec acq.sender [] fun _ => true) :=
    (emits nested.gate acq.sender).emitAttributeChangesForRun c [] fun _ => true
  refine allowed_bind (tells.allowed s3 sound3) fun _ s4 _ => ?_
  refine Moveless.allowed ?_ s4
  refine Composes.ite (fun _ => m.value _) fun _ => m.chain (m.reads _) fun nodes => ?_
  refine m.chain (m.foldlM fun _ _ _ => m.chain (m.needs (by simp) _) fun _ => m.value _) fun _ =>
    ?_
  refine m.chain (Moveless.dispatchChildren _) fun dispatched => ?_
  refine m.chain (Moveless.bindEntryAliasEdgesToCaller _ _ _ _ _ _) fun _ => ?_
  exact m.chain (Moveless.seedEntryAliasSourcedAttributes _ _ _ _) fun _ => m.value _

def AllowedWhileRunning (runId : Id) {α : Type} (m : Tx α) : Prop :=
  ∀ s : Store, s.RunsSound → s.isRunning runId → (m s).1 ≠ .error .illegalTransition

namespace AllowedWhileRunning

variable {runId : Id} {α β : Type}

theorem bind {m : Tx α} {f : α → Tx β} (legal : Legal args m) (stays : Steps (StaysRunning runId) m)
    (rest : ∀ a, AllowedWhileRunning runId (f a)) :
    AllowedWhileRunning runId (m >>= f) := fun s sound running =>
  allowed_bind (legal.allowed s sound) fun a mid run =>
    rest a mid (legal.sound sound run) (stays.run run running)

theorem upsert {acq : Acquisition} {f : Unit → Tx β} (merged : Bag)
    (rest : AllowedWhileRunning acq.nodeRunId (f ())) :
    AllowedWhileRunning acq.nodeRunId (upsertFinalAttributes acq merged >>= f) := by
  intro s sound running
  refine rest _ ((Tidy.upsert _ _ running.1).sound sound) ?_
  exact (StaysRunning.footprint.upsert _ _ _ :
    Steps (StaysRunning acq.nodeRunId) _) s running

theorem state (running : s.isRunning runId) (row : NodeRun) (found : s.run? runId = some row) :
    row.state = .running :=
  running.2 row (Store.mem_of_run? found).1 (Store.mem_of_run? found).2

section Complete

variable {args : RunArgs} {rec : Rec} (nested : RecLegal args rec)
  {acq : Acquisition} (t : TerminalEvent)

include nested

theorem completeHeld (before : List PostCommit) :
    AllowedWhileRunning acq.nodeRunId (completeHeld args rec acq t before) := by
  intro s sound running
  have c := Legal.composes args
  unfold Rimsky.completeHeld announceHeld
  rw [bind_assoc]
  refine Legal.moved args (.inl rfl) rfl ?_ sound (state running)
  refine c.chain ?_ fun _ => c.chain (Legal.transitionHolderIfFullyResolved nested.gate _) fun _ =>
    c.value _
  refine c.chain (Legal.removeForNode _ _ _) fun _ =>
    (Legal.emits nested.gate acq.sender).announces c _ _ ?_
  exact Legal.drainWaitSetOnSettled nested.gate _ _

theorem applyTerminalCompletePoisoned :
    AllowedWhileRunning acq.nodeRunId (applyTerminalCompletePoisoned args rec acq t) := by
  intro s sound running
  have c := Legal.composes args
  refine Legal.moved args (.inr rfl) rfl ?_ sound (state running)
  refine c.chain (Legal.removeForNode _ _ _) fun _ =>
    (Legal.emits nested.gate acq.sender).announces c _ _ ?_
  exact c.chain (Legal.drainWaitSetOnSettled nested.gate _ _) fun _ => c.value _

theorem completeFresh (before : List PostCommit) :
    AllowedWhileRunning acq.nodeRunId (completeFresh args rec acq t before) := by
  intro s sound running
  have c := Legal.composes args
  unfold Rimsky.completeFresh tellSuccess
  rw [bind_assoc]
  refine Legal.moved args (.inr rfl) rfl ?_ sound (state running)
  have recorded : Legal args (recordRunTreeChanged acq.nodeRunId .fresh "terminal/success"
      t.changed) :=
    .of_moveless (Tidy.recordRunTreeChanged _ _ _ rfl) (Moveless.bookkeeping _ _ (by simp))
  refine c.chain (c.chain recorded fun _ => c.chain (Legal.removeForNode _ _ _) fun _ =>
    (Legal.emits nested.gate _).emitSignalWithFilter c _ _ _) fun visited => ?_
  refine c.chain ((Legal.emits nested.gate _).emitAttributeChangesForRun c _ _) fun _ => ?_
  exact c.chain (Legal.drainWaitSetOnSettled nested.gate _ _) fun _ => c.value _

theorem completeSettle (heldBeforeRelease : Bool) (before : List PostCommit) :
    AllowedWhileRunning acq.nodeRunId (completeSettle args rec acq t heldBeforeRelease before) := by
  refine Composes.ite (fun _ => completeHeld nested t before) fun _ => ?_
  refine bind ((Legal.composes args).reads _) (steps_read _) fun poisoned => ?_
  exact Composes.ite (fun _ => applyTerminalCompletePoisoned nested t) fun _ =>
    completeFresh nested t before

variable (stays : RecSteps (StaysRunning acq.nodeRunId) rec)

include stays

theorem completeLeaf (merged : Bag) :
    AllowedWhileRunning acq.nodeRunId (completeLeaf args rec acq merged t) := by
  have c := Legal.composes args
  have scratch : Legal args (applyTerminalScratch acq t.scratch) :=
    .of_moveless ((Tidy.settling nested.tidy acq).scratch _)
      (Moveless.applyTerminalScratch _ _)
  have settles : ∀ heldBefore before, AllowedWhileRunning acq.nodeRunId (do
      applyTerminalScratch acq t.scratch
      Rimsky.completeSettle args rec acq t heldBefore before) := fun heldBefore before =>
    bind scratch (StaysRunning.footprint.applyTerminalScratch _) fun _ =>
      completeSettle nested t heldBefore before
  refine Composes.ite (fun _ => bind (Legal.settleFromDelegate nested _ _ _)
    (StaysRunning.settleFromDelegate stays _ _ _) fun exitPost => ?_) fun _ =>
      bind (c.value _) (steps_pure _) fun exitPost => ?_
  all_goals
    refine bind (c.reads _) (steps_read _) fun heldBefore => ?_
    refine bind (Legal.releaseLocks nested acq true)
      (StaysRunning.releaseLocks stays acq true) fun released => ?_
    exact Composes.ite (fun _ => upsert merged (settles _ _)) fun _ => settles _ _

end Complete

end AllowedWhileRunning

inductive SettleCall where
  | errorPolicy (error : PolicyError) (writeback : Option Bag)
  | giveUpHeld (sig : Signal)
  | infraGiveUp (errorClass : String) (payload : Option Bag) (retriesSoFar : Nat)
  | complete (resolvedAttrs : Bag) (schema : Option AttributeSchema) (t : TerminalEvent)
  | completePoisoned (t : TerminalEvent)

def rejectsWriteback (args : RunArgs) (resolvedAttrs : Bag) (schema : Option AttributeSchema)
    (t : TerminalEvent) : Bool :=
  !t.attributesDel.isEmpty &&
    (validateCommitWriteback args schema
      (mergeAttributesDelta resolvedAttrs t.attributesDel)).isSome

def keepWriteback (acq : Acquisition) : Option Bag → Tx Unit
  | none => pure ()
  | some merged => upsertFinalAttributes acq merged

namespace SettleCall

def perform (args : RunArgs) (rec : Rec) (acq : Acquisition) : SettleCall → Tx Unit
  | .errorPolicy error writeback => do
    let _ ← applyErrorPolicyWithSettleHook args rec acq error (keepWriteback acq writeback)
  | .giveUpHeld sig => do
    let _ ← applyErrorPolicyGiveUpHeld args rec acq sig
  | .infraGiveUp errorClass payload retriesSoFar => do
    let _ ← applyInfraGiveUp args rec acq errorClass payload retriesSoFar
  | .complete resolvedAttrs schema t => do
    let _ ← applyTerminalComplete args rec acq resolvedAttrs schema t
  | .completePoisoned t => do
    let _ ← applyTerminalCompletePoisoned args rec acq t

/--
The store in which the call may be made. An error must not give up a run that is queued, or about
to be, with active claims. A success is of a running run, unless the run delegates.
-/
def Fits (args : RunArgs) (acq : Acquisition) (s : Store) : SettleCall → Prop
  | .errorPolicy error _ => s.MayGiveUp acq error
  | .giveUpHeld _ => s.isRunning acq.nodeRunId
  | .infraGiveUp _ _ _ => True
  | .complete resolvedAttrs schema t =>
    if rejectsWriteback args resolvedAttrs schema t then
      s.MayGiveUp acq { errorClass := "attributes_schema_failed" }
    else acq.nodeDef.any (·.isSubgraphEntryAbsorbed) ∨ s.isRunning acq.nodeRunId
  | .completePoisoned _ => s.isRunning acq.nodeRunId

theorem applyTerminalComplete_cases (args : RunArgs) (rec : Rec) (acq : Acquisition)
    (resolvedAttrs : Bag) (schema : Option AttributeSchema) (t : TerminalEvent) :
    (rejectsWriteback args resolvedAttrs schema t ∧ ∃ text,
      applyTerminalComplete args rec acq resolvedAttrs schema t = applyErrorPolicy args rec acq {
        errorClass := "attributes_schema_failed", payload := some [("error", .str text)]
        tags := t.tags, attributesDel := t.attributesDel, scratch := t.scratch }) ∨
    rejectsWriteback args resolvedAttrs schema t = false ∧
      applyTerminalComplete args rec acq resolvedAttrs schema t =
        if acq.nodeDef.any (·.isSubgraphEntryAbsorbed) then
          applyTerminalCompleteSubgraphCaller args rec acq
            (mergeAttributesDelta resolvedAttrs t.attributesDel) t
        else completeLeaf args rec acq (mergeAttributesDelta resolvedAttrs t.attributesDel) t := by
  unfold applyTerminalComplete rejectsWriteback
  cases t.attributesDel.isEmpty with
  | true => exact .inr ⟨rfl, rfl⟩
  | false =>
    simp only [Bool.false_eq_true, if_false, Bool.not_false, Bool.true_and]
    cases validateCommitWriteback args schema
      (mergeAttributesDelta resolvedAttrs t.attributesDel) with
    | none => exact .inr ⟨rfl, rfl⟩
    | some text => exact .inl ⟨rfl, text, rfl⟩

section Allowed

variable {args : RunArgs} {rec : Rec} (nested : RecLegal args rec) {acq : Acquisition} {s : Store}
  (sound : s.RunsSound) (known : acq.nodeRunId < s.nextId)

include nested sound known

theorem complete_allowed (stays : RecSteps (StaysRunning acq.nodeRunId) rec) {resolvedAttrs : Bag}
    {schema : Option AttributeSchema} {t : TerminalEvent}
    (fits : (complete resolvedAttrs schema t).Fits args acq s) :
    (applyTerminalComplete args rec acq resolvedAttrs schema t s).1 ≠
      .error .illegalTransition := by
  simp only [Fits] at fits
  rcases applyTerminalComplete_cases args rec acq resolvedAttrs schema t with
    ⟨rejects, text, rejected⟩ | ⟨accepts, applied⟩
  · rw [if_pos rejects] at fits
    rw [rejected]
    refine Legal.applyErrorPolicyWithSettleHook nested sound known ?_ (.none _)
    exact fits
  · rw [if_neg (by simp [accepts])] at fits
    rw [applied]
    by_cases delegates : acq.nodeDef.any (·.isSubgraphEntryAbsorbed)
    · rw [if_pos delegates]
      exact Legal.applyTerminalCompleteSubgraphCaller nested sound known _ t
    · rw [if_neg delegates]
      exact AllowedWhileRunning.completeLeaf nested t stays _ s sound (fits.resolve_left delegates)

omit known in
theorem infraGiveUp_allowed (errorClass : String) (payload : Option Bag) (retriesSoFar : Nat) :
    (applyInfraGiveUp args rec acq errorClass payload retriesSoFar s).1 ≠
      .error .illegalTransition := by
  have c := Legal.composes args
  refine (c.chain (Legal.releaseLocks nested acq false) fun released => ?_ :
    Legal args (applyInfraGiveUp args rec acq errorClass payload retriesSoFar)).allowed s sound
  refine c.chain (Legal.policyTransition nested acq _ _) fun _ => ?_
  exact c.chain (Legal.announceSettled nested.gate acq _) fun _ => c.value _

theorem perform_allowed (stays : RecSteps (StaysRunning acq.nodeRunId) rec) {call : SettleCall}
    (fits : call.Fits args acq s) :
    (call.perform args rec acq s).1 ≠ .error .illegalTransition := by
  cases call with
  | errorPolicy error writeback =>
    have hook : SettleHook acq.nodeRunId (keepWriteback acq writeback) := by
      cases writeback with
      | none => exact .none _
      | some merged => exact .upsert acq merged
    exact allowed_bind (Legal.applyErrorPolicyWithSettleHook nested sound known fits
      hook) fun _ _ _ => by simp
  | giveUpHeld sig =>
    exact allowed_bind (Legal.applyErrorPolicyGiveUpHeld nested sound
      (AllowedWhileRunning.state fits) sig) fun _ _ _ => by simp
  | infraGiveUp errorClass payload retriesSoFar =>
    exact allowed_bind (infraGiveUp_allowed nested sound errorClass payload retriesSoFar)
      fun _ _ _ => by simp
  | complete resolvedAttrs schema t =>
    exact allowed_bind (complete_allowed nested sound known stays fits) fun _ _ _ => by simp
  | completePoisoned t =>
    exact allowed_bind (AllowedWhileRunning.applyTerminalCompletePoisoned nested t s sound fits)
      fun _ _ _ => by simp

end Allowed

end SettleCall

/--
Wherever the transactions about runs have led, a settlement whose call fits is not aborted by the
state machine.
-/
theorem RunAction.settle_not_refused {s₀ s : Store} (sound : s₀.RunsSound)
    (reached : Reaches RunAction.next (fun s a => a.Enabled s) s₀ s) (args : RunArgs) (fuel : Nat)
    {acq : Acquisition} (known : acq.nodeRunId < s.nextId) {call : SettleCall}
    (fits : call.Fits args acq s) :
    (call.perform args (knot args fuel) acq s).1 ≠ .error .illegalTransition := by
  have sound : s.RunsSound := by
    refine reached.invariant (fun s a s' before enabled taken => ?_) sound
    exact (RunAction.next_effect before enabled taken).sound before
  exact SettleCall.perform_allowed (RecLegal.knot args fuel) sound known
    (StaysIn.knot firm_running args fuel) fits

namespace Chain

def reportAcquisition (runId : Id) : Acquisition where
  nodeRunId := runId
  nodeId := 2
  instanceId := 1
  nodeType := "report"
  runScopeId := 1
  frameId := 1
  nodeDef := some (report [])

def runsWithClaim : List RunAction :=
  [start 2 .operatorInvalidate] ++ dispatch 10 ++
    [act (.claims [{
      id := 11, lockKind := .claimScope, producerName := some "table", holderNodeId := 2
      holderSupervisorId := some "supervisor", nodeRunId := some 10, isHeld := true
      claimedAt := 0, expiresAt := 9 }] [] 2)]

theorem settle_not_refused_report :
    ∃ s, Reaches RunAction.next (fun s a => a.Enabled s) (store (report [])) s ∧
      s.hasActiveHeldClaims 10 ∧
      ((SettleCall.errorPolicy { errorClass := "acquire/unavailable" } none).perform Chain.args
        (knot Chain.args 4) (reportAcquisition 10) s).1 ≠ .error .illegalTransition := by
  have run : (runAll RunAction.next (fun s a => a.Enabled s) runsWithClaim (store (report []))).any
      (fun s => 10 < s.nextId ∧ (∀ r ∈ s.runs, r.id = 10 → r.state = .running) ∧
        s.hasActiveHeldClaims 10) := by
    decide +kernel
  rcases exists_reaches_of_runAll run with ⟨s, reached, holds⟩
  have holds := of_decide_eq_true holds
  refine ⟨s, reached, holds.2.2, ?_⟩
  refine RunAction.settle_not_refused (store_sound _) reached Chain.args 4 holds.1
    fun _ _ r mem same => ?_
  exact .inl (holds.2.1 r mem same)

def resumesWithClaim : List RunAction :=
  runsWithClaim ++
    [act (.terminal (reportAcquisition 10) [] none { kind := .park }), act (.wake 2 10),
      act (.queue (.claimDispatchRow 10 "supervisor"))]

/--
The report has kept its claim while it was parked. Its other claim is not available and its policy
is to give up, so it is to go from stale to held.
-/
theorem give_up_refused :
    ∃ s, Reaches RunAction.next (fun s a => a.Enabled s) (store (report [])) s ∧
      (s.run? 10).map (fun r => (r.state, r.claimedBy)) = some (.stale, some "supervisor") ∧
      s.hasActiveHeldClaims 10 ∧
      ((SettleCall.errorPolicy { errorClass := "acquire/unavailable" } none).perform Chain.args
        (knot Chain.args 4) (reportAcquisition 10) s).1 = .error .illegalTransition := by
  have run : (runAll RunAction.next (fun s a =>
      a.Enabled s) resumesWithClaim (store (report []))).any
      (fun s => (s.run? 10).map (fun r => (r.state, r.claimedBy)) =
        some (.stale, some "supervisor") ∧ s.hasActiveHeldClaims 10 ∧
        ((SettleCall.errorPolicy { errorClass := "acquire/unavailable" } none).perform Chain.args
          (knot Chain.args 4) (reportAcquisition 10) s).1 = .error .illegalTransition) := by
    decide +kernel
  rcases exists_reaches_of_runAll run with ⟨s, reached, refused⟩
  exact ⟨s, reached, of_decide_eq_true refused⟩

end Chain

end Rimsky
