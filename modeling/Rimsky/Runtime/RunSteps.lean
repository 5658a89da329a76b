import Rimsky.Lib.Run
import Rimsky.Runtime.Acquire
import Rimsky.Runtime.TerminalChanges

/-!
# Runs step by step

The transactions that supervisors, conductors and message handlers commit, one after the other,
in any order and with any arguments: signals, gates, new runs, statements of the queue, wakes,
terminals and refused acquisitions. What each does to runs is said once here; the properties of
the table of runs that hold along every sequence of such steps are derived from that.
-/

namespace Rimsky

open Transaction

/-- A statement of the queue that is a transaction of its own. -/
inductive QueueCall where
  | claimDispatchRow (runId : Id) (supervisorId : String)
  | promoteClaimedToRunning (runId : Id) (supervisorId : String)
  | complete (runId : Id) (supervisorId : String)
  | removeForNode (nodeId runScopeId : Id) (supervisorId : String)
  | forceRemoveForNode (nodeId runScopeId : Id)
  | releaseClaim (runId : Id) (supervisorId : String)
  | releaseClaimWithDisposition (runId : Id) (supervisorId disposition : String)
  | stampPriorDispatch (runId priorRunId : Id) (disposition : String)
  | registerAsyncAck (runId : Id) (ackId : String) (maxQuietSec maxRuntimeSec : Option Nat)
      (expectedPrincipal callbackUrl : String)
  | writeScratch (runId : Id) (scratch : Option String)
  | bumpLastProgressAt (runId : Id)

variable {s : Store} {s' : Store} {turn : Turn}

namespace QueueCall

def perform : QueueCall → Tx Unit
  | .claimDispatchRow runId supervisorId => do
    let _ ← Queue.claimDispatchRow runId supervisorId
  | .promoteClaimedToRunning runId supervisorId => do
    let _ ← Queue.promoteClaimedToRunning runId supervisorId
  | .complete runId supervisorId => Queue.complete runId supervisorId
  | .removeForNode nodeId runScopeId supervisorId =>
    Queue.removeForNode nodeId runScopeId supervisorId
  | .forceRemoveForNode nodeId runScopeId => Queue.forceRemoveForNode nodeId runScopeId
  | .releaseClaim runId supervisorId => Queue.releaseClaim runId supervisorId
  | .releaseClaimWithDisposition runId supervisorId disposition =>
    Queue.releaseClaimWithDisposition runId supervisorId disposition
  | .stampPriorDispatch runId priorRunId disposition =>
    Queue.stampPriorDispatch runId priorRunId disposition
  | .registerAsyncAck runId ackId maxQuietSec maxRuntimeSec expectedPrincipal callbackUrl =>
    Queue.registerAsyncAck runId ackId maxQuietSec maxRuntimeSec expectedPrincipal callbackUrl
  | .writeScratch runId scratch => Queue.writeScratch runId scratch
  | .bumpLastProgressAt runId => Queue.bumpLastProgressAt runId

def requeued? : QueueCall → Option Id
  | .releaseClaim runId _ => some runId
  | .releaseClaimWithDisposition runId _ _ => some runId
  | _ => none

structure Handles (call : QueueCall) (r r' : NodeRun) : Prop where
  origin : r'.origin = r.origin
  unclaimed : r.state = .pending → r'.claimedBy = none
  state : r'.state = r.state ∨ (r.state = .stale ∧ r'.state = .running) ∨
    (r.state.isAdvanced ∧ r'.state = .stale ∧ call.requeued? = some r.id)

namespace Handles

variable {call : QueueCall} {r r' : NodeRun}

theorem of_state (origin : r'.origin = r.origin)
    (unclaimed : r.state = .pending → r'.claimedBy = none)
    (state : r'.state = r.state) : call.Handles r r' := ⟨origin, unclaimed, .inl state⟩

section

variable (handles : call.Handles r r')

include handles

theorem id : r'.id = r.id := congrArg (·.id) handles.origin

theorem advanced (advanced : r'.state.isAdvanced) :
    r.state.isAdvanced := by
  rcases handles.state with same | ⟨stale, -⟩ | ⟨before, -⟩
  · rwa [same] at advanced
  · rw [stale]
    rfl
  · exact before

theorem pending (pending : r'.state = .pending) : r.state = .pending := by
  rcases handles.state with same | ⟨-, running⟩ | ⟨-, stale, -⟩
  · rw [← same, pending]
  · rw [running] at pending
    cases pending
  · rw [stale] at pending
    cases pending

end

end Handles

def HandlesRuns (call : QueueCall) (s s' : Store) : Prop :=
  ∃ f : NodeRun → NodeRun, s' = { s with runs := s.runs.map f } ∧ ∀ r ∈ s.runs, call.Handles r (f r)

theorem handles_self (call : QueueCall) {r : NodeRun}
    (free : r.state = .pending → r.claimedBy = none) :
    call.Handles r r := .of_state rfl free rfl

theorem handlesRuns_self (call : QueueCall) (sound : s.RunsSound) : call.HandlesRuns s s :=
  ⟨fun r => r, by simp, fun r mem => call.handles_self fun waits => (sound.queued r mem waits).2⟩

theorem handlesRuns_updateRuns (call : QueueCall) {guard : Store → NodeRun → Bool}
    {change : Nat → NodeRun → NodeRun} (sound : s.RunsSound)
    (rows : ∀ now (r : NodeRun), guard s r → (r.state = .pending → r.claimedBy = none) →
      call.Handles r (change now r)) :
    call.HandlesRuns s (updateRuns guard change s).2 := by
  rcases updateRuns_store guard change s with same | updated
  · rw [same]
    exact call.handlesRuns_self sound
  · rw [updated]
    refine ⟨_, rfl, fun r mem => ?_⟩
    have free : r.state = .pending → r.claimedBy = none := fun waits => (sound.queued r mem waits).2
    split
    case isTrue fits => exact rows _ r fits free
    case isFalse => exact call.handles_self free

theorem isAdvanced_of_claimed {r : NodeRun} (free : r.state = .pending → r.claimedBy = none)
    {supervisorId : String} (claimed : r.claimedBy = some supervisorId)
    (unsettled : r.state.isTerminal = false) : r.state.isAdvanced := by
  cases state : r.state with
  | pending =>
    rw [free state] at claimed
    cases claimed
  | fresh | failed =>
    rw [state] at unsettled
    cases unsettled
  | stale | running | held | parked => rfl

theorem handlesRuns_requeue {call : QueueCall} {runId : Id} (requeues : call.requeued? = some runId)
    {supervisorId : String} {change : Nat → NodeRun → NodeRun}
    (origin : ∀ now r, (change now r).origin = r.origin)
    (unclaimed : ∀ now r, (change now r).claimedBy = none)
    (stale : ∀ now r, (change now r).state = .stale) (sound : s.RunsSound) :
    call.HandlesRuns s (updateRuns (fun _ r => r.id = runId && r.claimedBy = some supervisorId &&
      !r.state.isTerminal) change s).2 := by
  refine handlesRuns_updateRuns _ sound fun now r fits free => ?_
  simp only [Bool.and_eq_true, Bool.not_eq_true', decide_eq_true_eq] at fits
  refine ⟨origin now r, fun _ => unclaimed now r, .inr (.inr ⟨?_, stale now r, ?_⟩)⟩
  · exact isAdvanced_of_claimed free fits.1.2 fits.2
  · rw [fits.1.1]
    exact requeues

theorem perform_handles (call : QueueCall) (sound : s.RunsSound) :
    call.HandlesRuns s (call.perform s).2 := by
  have found : ∀ (e : StoreError) (n : Nat) (s : Store),
      ((if n = 0 then fail e else pure () : Tx Unit) s).2 = s := by
    intro e n s
    split <;> rfl
  cases call with
  | claimDispatchRow runId supervisorId =>
    simp only [perform, Queue.claimDispatchRow, bind_pure_store]
    refine handlesRuns_updateRuns _ sound fun now r fits free => .of_state rfl ?_ rfl
    intro waits
    simp [waits] at fits
  | promoteClaimedToRunning runId supervisorId =>
    simp only [perform, Queue.promoteClaimedToRunning, bind_pure_store]
    refine handlesRuns_updateRuns _ sound fun now r fits free => ⟨rfl, free, .inr (.inl ⟨?_, rfl⟩)⟩
    simp only [Bool.and_eq_true, decide_eq_true_eq] at fits
    exact fits.2
  | complete | removeForNode | forceRemoveForNode =>
    simp only [perform, Queue.complete, Queue.removeForNode, Queue.forceRemoveForNode,
      bind_pure_store]
    exact handlesRuns_updateRuns _ sound fun now r _ _ => .of_state rfl (fun _ => rfl) rfl
  | releaseClaim | releaseClaimWithDisposition =>
    simp only [perform, Queue.releaseClaim, Queue.releaseClaimWithDisposition, bind_pure_store]
    refine handlesRuns_requeue rfl ?_ ?_ ?_ sound
    all_goals exact fun _ _ => rfl
  | stampPriorDispatch runId priorRunId disposition =>
    simp only [perform, Queue.stampPriorDispatch, bind_store (found _)]
    exact handlesRuns_updateRuns _ sound fun now r _ free => .of_state rfl free rfl
  | registerAsyncAck runId ackId maxQuietSec maxRuntimeSec expectedPrincipal callbackUrl =>
    simp only [perform, Queue.registerAsyncAck]
    split
    · exact handlesRuns_self _ sound
    · rw [bind_store (found _)]
      exact handlesRuns_updateRuns _ sound fun now r _ free => .of_state rfl free rfl
  | writeScratch runId scratch =>
    simp only [perform, Queue.writeScratch, bind_store (found _)]
    exact handlesRuns_updateRuns _ sound fun now r _ free => .of_state rfl free rfl
  | bumpLastProgressAt runId =>
    simp only [perform, Queue.bumpLastProgressAt, bind_pure_store]
    exact handlesRuns_updateRuns _ sound fun now r _ free => .of_state rfl free rfl

theorem HandlesRuns.sound {call : QueueCall} (handles : call.HandlesRuns s s')
    (sound : s.RunsSound) :
    s'.RunsSound := by
  rcases handles with ⟨f, rfl, rows⟩
  refine sound.map (fun r mem => (rows r mem).origin) fun r mem waits => ?_
  have before := (rows r mem).pending waits
  exact ⟨before, (rows r mem).unclaimed before⟩

end QueueCall

/--
The transactions about runs. The propagation of a child's terminal to its parent and the kill of
an instance are left out.
-/
inductive RunStep where
  | signal (sender : Sender) (sig : Signal) (visited : List Id) (filter : String → Bool)
  | gate (runId : Id)
  | create (input : Nodes.NonCascadeStaleInput)
  | queue (call : QueueCall)
  | wake (nodeId runId : Id)
  | terminal (acq : Acquisition) (resolvedAttrs : Bag) (schema : Option AttributeSchema)
      (t : TerminalEvent)
  | refused (acq : Acquisition) (errorClass fallbackClass : String) (payload : Bag)
  /-- Claims are acquired, expire or are moved; ids are used up. -/
  | claims (handles : List ClaimHandle) (holders : List ClaimHolder) (ids : Nat)

def RunStep.perform (args : RunArgs) (rec : Rec) : RunStep → Tx Unit
  | .signal sender sig visited filter => do
    let _ ← emitSignalWithFilter args rec sender sig visited filter
  | .gate runId => evaluateOneGateBody args rec runId
  | .create input => do
    let _ ← Nodes.createNonCascadeStale input
  | .queue call => call.perform
  | .wake nodeId runId => wakeParkedNode nodeId runId
  | .terminal acq resolvedAttrs schema t => do
    let _ ← applyTerminal args rec acq resolvedAttrs schema t
  | .refused acq errorClass fallbackClass payload => do
    let _ ← applyAcquireErrorPolicy args rec acq errorClass fallbackClass payload
  | .claims handles holders ids => write fun s =>
    { s with claimHandles := handles, claimHolders := holders, nextId := s.nextId + ids }

structure RunAction where
  args : RunArgs
  fuel : Nat
  step : RunStep

namespace RunAction

def next (s : Store) (a : RunAction) : Option Store :=
  some (commit (a.step.perform a.args (knot a.args a.fuel)) s).2

/-- Terminals are of runs that exist, and claims are not for runs that wait for their gate. -/
def Enabled (s : Store) (a : RunAction) : Prop :=
  match a.step with
  | .terminal acq _ _ _ => acq.nodeRunId < s.nextId
  | .claims handles holders ids =>
    ({ s with claimHandles := handles, claimHolders := holders, nextId := s.nextId + ids } :
      Store).PendingFree
  | _ => True

instance (s : Store) (id : Id) : Decidable (s.MayHold id) := inferInstanceAs (Decidable (_ ∧ _))

instance (s : Store) : Decidable s.PendingFree :=
  decidable_of_iff ((∀ h ∈ s.claimHandles, ∀ runId ∈ h.nodeRunId, s.MayHold runId) ∧
      ∀ h ∈ s.claimHolders, s.MayHold h.holderRunId)
    ⟨fun free => ⟨free.1, free.2⟩, fun free => ⟨free.handles, free.holders⟩⟩

instance (s : Store) (a : RunAction) : Decidable (a.Enabled s) :=
  match a with
  | ⟨_, _, .terminal acq _ _ _⟩ => inferInstanceAs (Decidable (acq.nodeRunId < s.nextId))
  | ⟨_, _, .claims _ _ _⟩ => inferInstanceAs (Decidable (Store.PendingFree _))
  | ⟨_, _, .signal _ _ _ _⟩ | ⟨_, _, .gate _⟩ | ⟨_, _, .create _⟩ | ⟨_, _, .queue _⟩
  | ⟨_, _, .wake _ _⟩ | ⟨_, _, .refused _ _ _ _⟩ => inferInstanceAs (Decidable True)

inductive Effect (a : RunAction) (turn : Turn) (s s' : Store) : Prop where
  | tidy (changes : RunChanges turn a.args s s')
  | handles (call : QueueCall) (step : a.step = .queue call) (handles : call.HandlesRuns s s')
  | creates (input : Nodes.NonCascadeStaleInput) (row : NodeRun) (step : a.step = .create input)
      (nodeId : row.nodeId = input.nodeId) (runScopeId : row.runScopeId = input.runScopeId)
      (reason : row.creationReason = input.creationReason) (adds : Adds row s s')
  | parks (acq : Acquisition) (resolvedAttrs : Bag) (schema : Option AttributeSchema)
      (t : TerminalEvent) (step : a.step = .terminal acq resolvedAttrs schema t) (mid : Store)
      (row : NodeRun) (park : t.kind = .park) (calm : Calm s mid)
      (found : mid.run? acq.nodeRunId = some row) (running : row.state = .running)
      (parked : s' = mid.parked acq.nodeRunId)
  | reopens (acq : Acquisition) (resolvedAttrs : Bag) (schema : Option AttributeSchema)
      (t : TerminalEvent) (step : a.step = .terminal acq resolvedAttrs schema t) (mid : Store)
      (complete : t.kind = .complete) (delegates : acq.nodeDef.any (·.isSubgraphEntryAbsorbed))
      (calm : Calm s mid) (changes :
        RunChanges turn a.args (mid.reopened acq.nodeRunId t.changed) s')
  | claims (same : s'.runs = s.runs ∧ s'.attributes = s.attributes ∧ s'.runScopes = s.runScopes ∧
      s'.nodes = s.nodes ∧ s'.instances = s.instances) (later : s.nextId ≤ s'.nextId)
      (free : s'.PendingFree)

theorem createNonCascadeStale_changes (args : RunArgs) (input : Nodes.NonCascadeStaleInput)
    (sound : s.RunsSound) :
    RunChanges turn args s (Nodes.createNonCascadeStale input s).2 ∨
      ∃ row : NodeRun, row.nodeId = input.nodeId ∧ row.runScopeId = input.runScopeId ∧
        row.creationReason = input.creationReason ∧
        Adds row s (Nodes.createNonCascadeStale input s).2 := by
  unfold Nodes.createNonCascadeStale
  split
  · exact .inl .refl
  split
  · exact .inl .refl
  let used : Store := { s with nextId := s.nextId + 1 }
  have calm : Calm s used := .of_same rfl rfl rfl (Nat.le_succ _) rfl rfl rfl rfl
  simp only [newId_bind, read_bind, id_eq]
  split
  case isFalse =>
    have failed := scopeError_fails (α := Id) input.runScopeId used
    refine .inl (.single (.calm ?_))
    exact failed.symm ▸ calm
  case isTrue =>
    let row : NodeRun := {
      id := s.nextId, nodeId := input.nodeId, executorName := input.executorName
      requiredClaimProducers := input.requiredClaimProducers, enqueuedAt := input.enqueuedAt
      state := .stale, creationReason := input.creationReason
      sequence := used.nextSequence input.nodeId input.runScopeId, frameId := input.frameId
      runScopeId := input.runScopeId, priorDispatchId := input.priorNodeRunId
      priorDispatchDisposition := input.priorDispatchDisposition, scratch := input.initialScratch }
    rw [← bind_assoc, bind_pure_store]
    rcases insertRun_snapshot row input.nodeId input.runScopeId used with
      ⟨e, failed⟩ | ⟨s', ok, inserts⟩
    · refine .inl (.single (.calm ?_))
      have same := congrArg Prod.snd failed
      exact same.symm ▸ calm
    · have same := congrArg Prod.snd ok
      rcases inserts.eq with ⟨attributes, stored⟩
      refine .inr ⟨row, rfl, rfl, rfl, ?_⟩
      refine same.symm ▸ ?_
      have unused : ∀ a ∈ s.attributes, a.dispatchInputBag = none → a.nodeRunId ≠ row.id :=
        fun a mem lacks => Nat.ne_of_lt (sound.bags a mem lacks)
      have bag := inserts.bag unused
      have bags := inserts.bags
      have known := inserts.attributes
      rw [stored] at bag bags known ⊢
      exact {
        fresh := Nat.le_refl _, known := Nat.lt_succ_self _, stale := rfl, runs := rfl
        nodes := rfl, instances := rfl, bag, bags, attributes := known, scopes := rfl
        handles := rfl, holders := rfl }

theorem wakeParkedNode_tidy (args : RunArgs) (nodeId runId : Id) :
    Steps (Tidy turn args) (wakeParkedNode nodeId runId) := by
  refine steps_reads fun row => ?_
  cases row with
  | none => exact steps_pure _
  | some row =>
    refine steps_reads fun parked => ?_
    cases parked with
    | none => exact steps_pure _
    | some parked =>
      refine steps_ite (fun _ => ?_) fun _ => steps_pure _
      exact steps_bind (Tidy.wake _ (by simp) (by simp) (by simp)) fun _ => steps_pure _

theorem perform_effect {a : RunAction} {rec : Rec} (nested : RecSteps (Tidy turn a.args) rec)
    (gates : ∀ runId, a.step = .gate runId →
      Steps (Tidy turn a.args) (evaluateOneGateBody a.args rec runId))
    (sound : s.RunsSound) (enabled : a.Enabled s) :
    a.Effect turn s (commit (a.step.perform a.args rec) s).2 := by
  rcases a with ⟨args, fuel, step⟩
  have c := steps_composes (Tidy turn args) StoreError.Plain
  have tidy : ∀ {α : Type} {m : Tx α}, Steps (Tidy turn args) m → RunChanges turn args s (m s).2 :=
    fun steps => steps s sound
  dsimp only
  rcases commit_store (step.perform args rec) s with failed | done
  · rw [failed]
    exact .tidy .refl
  rw [done]
  cases step with
  | signal sender sig visited filter =>
    simp only [RunStep.perform, bind_pure_store]
    exact .tidy (tidy ((Tidy.emits nested.gate sender).emitSignalWithFilter c sig visited filter))
  | gate runId => exact .tidy (tidy (gates runId rfl))
  | create input =>
    simp only [RunStep.perform, bind_pure_store]
    rcases createNonCascadeStale_changes args input sound with
      changes | ⟨row, node, scope, reason, adds⟩
    · exact .tidy changes
    · exact .creates input row rfl node scope reason adds
  | queue call => exact .handles call rfl (call.perform_handles sound)
  | wake nodeId runId => exact .tidy (tidy (wakeParkedNode_tidy args nodeId runId))
  | terminal acq resolvedAttrs schema t =>
    simp only [RunStep.perform, bind_pure_store]
    rcases applyTerminal_changes nested sound enabled resolvedAttrs schema t with
      changes | ⟨mid, row, park, calm, found, running, parked⟩ | ⟨mid, complete, delegates,
        calm, changes⟩
    · exact .tidy changes
    · exact .parks acq resolvedAttrs schema t rfl mid row park calm found running parked
    · exact .reopens acq resolvedAttrs schema t rfl mid complete delegates calm changes
  | refused acq errorClass fallbackClass payload =>
    simp only [RunStep.perform, bind_pure_store]
    exact .tidy (tidy ((Tidy.settling nested acq).applyErrorPolicy c _))
  | claims handles holders ids =>
    exact .claims ⟨rfl, rfl, rfl, rfl, rfl⟩ (Nat.le_add_right _ _) enabled

theorem next_effect {a : RunAction} (sound : s.RunsSound) (enabled : a.Enabled s)
    (taken : a.next s = some s') : a.Effect anytime s s' := by
  injection taken with taken
  have nested := Tidy.knot a.args a.fuel
  exact taken ▸ perform_effect nested (fun _ _ => Tidy.evaluateOneGateBody nested.gate _)
    sound enabled

theorem Effect.sound {a : RunAction} (effect : a.Effect turn s s') (sound : s.RunsSound) :
    s'.RunsSound := by
  cases effect with
  | tidy changes => exact changes.sound sound
  | handles call _ handles => exact handles.sound sound
  | creates input row _ _ _ _ adds => exact adds.sound sound
  | parks acq _ _ t _ mid row _ calm found running parked =>
    exact parked ▸ parked_sound (calm.sound sound) _
  | reopens acq _ _ t _ mid _ _ calm changes =>
    exact changes.sound (reopened_sound (calm.sound sound) _ _)
  | claims same later free =>
    rcases same with ⟨runs, attributes, -⟩
    refine ⟨runs ▸ sound.distinct, ?_, runs ▸ sound.queued, ?_, free⟩
    · rw [runs]
      exact fun r mem => Nat.lt_of_lt_of_le (sound.known r mem) later
    · rw [attributes]
      exact fun a mem lacks => Nat.lt_of_lt_of_le (sound.bags a mem lacks) later

end RunAction

namespace Chain

def args : RunArgs := .plain "supervisor"

def report (errorTypes : List (String × ErrorTypePolicy)) : TemplateNodeDef where
  type := "report"
  attributes := some {
    properties :=
      some [("total", { source := some "\x7b\x7bnodes.source.attribute.total\x7d\x7d" })] }
  errorTypes := errorTypes
  subscribes := [{ node := "source", type := "terminal/success" }]

def store (report : TemplateNodeDef) : Store where
  instances := [{ id := 1, template := { nodes := [{ type := "source" }, report] } }]
  nodes := [{ id := 1, instanceId := 1, nodeType := "source" },
    { id := 2, instanceId := 1, nodeType := "report", cascadeMode := report.cascadeMode }]
  runScopes := [{ id := 1, graphName := "main", instanceId := 1 }]
  nextId := 10

def act (step : RunStep) : RunAction := ⟨args, 4, step⟩

def start (nodeId : Id) (creationReason : CreationReason) : RunAction :=
  act (.create { nodeId, runScopeId := 1, frameId := 1, enqueuedAt := 0, creationReason })

def dispatch (runId : Id) : List RunAction :=
  [act (.queue (.claimDispatchRow runId "supervisor")),
    act (.queue (.promoteClaimedToRunning runId "supervisor"))]

def succeed (runId : Id) (delta : Bag) : RunAction :=
  act (.terminal {
    nodeRunId := runId, nodeId := 1, instanceId := 1, nodeType := "source", runScopeId := 1
    frameId := 1, nodeDef := some { type := "source" } } [] none
    { kind := .complete, attributesDel := delta })

theorem store_sound (report : TemplateNodeDef) : (store report).RunsSound :=
  ⟨by simp [store], by simp [store], by simp [store], by simp [store], by simp [store],
    by simp [store]⟩

end Chain

end Rimsky
