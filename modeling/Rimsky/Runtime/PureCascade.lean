import Rimsky.Runtime.AcquireRollback
import Rimsky.Runtime.SettleCalls

/-!
# Settling nodes without an executor

`runtime/scheduler/pure_cascade.go`, `runtime/pure_cascade_settle.go` and
`graph/scheduler/steps.go`: the scheduler settles a stale run of a node that has no executor and
acquires no claims, without a supervisor acquiring it. What a supervisor would do for the run apart
from signalling is left out: it does not hold claims along with an upstream, starts no sub-graph
and carries nothing over to the caller of the sub-graph it ends. The caller is settled all the
same, once its last child is, but without the table of claim handles its claims stay as they are. A
run with none of these obligations, outside of sub-graphs, is settled alike both ways.
-/

namespace Rimsky

open Transaction Detached

def Store.isPureCascadeReady (s : Store) (node : Node) (run : NodeRun) : Bool :=
  node.executor = "" && run.nodeId = node.id && run.state = .stale && run.claimedBy.isNone &&
    run.requiredClaimProducers.isEmpty &&
    !s.waitSet.any fun w => w.frameId = run.frameId && w.receiverRunId = run.id &&
      w.drainedAt.isNone

def Store.listPureCascadeReady (s : Store) : List (Node × NodeRun) :=
  s.nodes.flatMap fun node => (s.runs.filter (s.isPureCascadeReady node)).map fun run => (node, run)

def acquiresClaims (nodeDef : Option TemplateNodeDef) : Bool :=
  nodeDef.any (!·.claimProducers.isEmpty)

/-- `SetRunRequiredClaimProducers`, as `PrepareNativeClaimRouting` issues it. -/
def prepareNativeClaimRouting (run : NodeRun) (nodeDef : TemplateNodeDef) : Tx Bool := do
  let n ← updateRuns
    (fun s r => r.id = run.id && r.state = .stale && r.claimedBy.isNone && s.scopeOpen r.runScopeId)
    fun _ r => { r with requiredClaimProducers := requiredClaimProducers nodeDef }
  return n = 1

/-- The scheduler is no supervisor, and it has no registries and no claim handles. -/
def RunArgs.scheduler (args : RunArgs) : RunArgs where
  supervisorId := ""
  evalWhen := args.evalWhen
  resolveProducer := fun _ => none
  expectedAttributesSchemaFor := fun _ => none
  validate := args.validate
  hasClaimHandles := false

section Scheduler

variable (args : RunArgs) (rec : Rec)

def pureCascadeSender (node : Node) (run : NodeRun) : Sender where
  nodeId := node.id
  nodeType := node.nodeType
  nodeRunId := run.id
  instanceId := node.instanceId
  frameId := run.frameId

def emitTerminalSuccessAndDrain (sender : Sender) (changeSummary : String) : Tx Unit := do
  emitSignalOnce args rec sender (buildTerminalSuccessSignal false [] changeSummary [])
  upsertDataFromDispatchInputBagIfEmpty sender.nodeRunId sender.nodeId
  let _ ← emitAttributeChangesForRun args rec sender [] fun _ => true
  drainWaitSetOnSettled rec sender.frameId sender.nodeRunId

def transitionPureCascade (node : Node) (run : NodeRun) : Tx Unit := do
  Nodes.updateState run.id .fresh .pureCascade (some "terminal/success")
  Queue.forceRemoveForNode run.nodeId run.runScopeId
  emitTerminalSuccessAndDrain args rec (pureCascadeSender node run) "pure_cascade"

/--
What is left to be done after a commit, each part in its own transaction. Requeued and
recalculated runs are left to the scheduler.
-/
def afterCommit : Nat → List PostCommit → Store → Store
  | 0, _, s | _, [], s => s
  | fuel + 1, .propagate runId :: rest, s =>
    match commit (propagateIfChildAfterTerminal args rec runId) s with
    | (.ok post, s') => afterCommit fuel rest (afterCommit fuel post s')
    | (.error _, s') => afterCommit fuel rest s'
  | fuel + 1, _ :: rest, s => afterCommit fuel rest s

def processPureCascadeRow (s : Store) (row : Node × NodeRun) : Store :=
  let nodeDef := (s.template? row.1.instanceId).bind (·.lookupNodeDef row.1.nodeType)
  match nodeDef with
  | some def_ =>
    if acquiresClaims nodeDef then (commit (prepareNativeClaimRouting row.2 def_) s).2
    else settle s
  | none => settle s
where
  /-- The transaction, and the propagation after it. -/
  settle (s : Store) : Store :=
    match commit (transitionPureCascade args rec row.1 row.2) s with
    | (.ok (), s') => afterCommit args rec (s'.runs.length + 1) [.propagate row.2.id] s'
    | (.error _, s') => s'

def processPureCascade (s : Store) : Store :=
  s.listPureCascadeReady.foldl (processPureCascadeRow args rec) s

end Scheduler

def runToSuccess (args : RunArgs) (fuel : Nat) (input : AcquireInput) (run : NodeRun)
    (resolvedAttrs : Bag) (schema : Option AttributeSchema) (t : TerminalEvent) :
    Tx (Option Settlement) := do
  match ← tryAcquire args input run with
  | .error _ => return none
  | .ok acq =>
    let _ ← Queue.promoteClaimedToRunning run.id args.supervisorId
    return some (← applyTerminalComplete args (knot args fuel) acq resolvedAttrs schema t)

/-- A supervisor runs the stale run to its success, and does what is left to be done then. -/
def settleBySupervisor (args : RunArgs) (fuel : Nat) (input : AcquireInput) (run : NodeRun)
    (resolvedAttrs : Bag) (schema : Option AttributeSchema) (t : TerminalEvent) (s : Store) :
    Option Store :=
  match commit (runToSuccess args fuel input run resolvedAttrs schema t) s with
  | (.ok (some settlement), s') =>
    some (afterCommit args (knot args fuel) (s'.runs.length + 1) settlement.post s')
  | _ => none

/-- What the terminal writes back fits the schema, so that it is a success. -/
def TerminalEvent.Fits (args : RunArgs) (resolvedAttrs : Bag) (schema : Option AttributeSchema)
    (t : TerminalEvent) : Prop :=
  t.attributesDel = [] ∨
    validateCommitWriteback args schema (mergeAttributesDelta resolvedAttrs t.attributesDel) = none

/--
Claims change only with the runs that are deleted, no run is started below the run, and every other
run that is running, such as the caller of its sub-graph, is left running.
-/
structure Spared (runId : Id) (s s' : Store) : Prop where
  claims : Trimmed s s'
  children : s'.children runId = []
  running : ∀ id, id ≠ runId → s.isRunning id → s'.isRunning id

/--
The run has no claims and none to hold, starts no sub-graph and ends none, and lies in a scope
that is below no other run.
-/
structure Store.Unobliged (s : Store) (run : NodeRun) (nodeDef : Option TemplateNodeDef) :
    Prop where
  free : s.Free run.id
  childless : s.NoneBelow run.id
  known : run.id < s.nextId
  root : ∀ row, s.run? run.id = some row →
    ∀ scope ∈ s.runScopes, scope.id = row.runScopeId → scope.parentNodeRunId = none
  holds : ∀ def_ ∈ nodeDef, def_.holds = []
  single : ¬nodeDef.any (·.fanOut.isSome)
  starts : ¬nodeDef.any (·.isSubgraphEntryAbsorbed)
  ends : ¬nodeDef.any (·.isSubgraphExit)

section Both

variable {R : Store → Store → Prop} [IsPreorder Store R] (walk : Walking R) {args : RunArgs}
  {rec : Rec} (gate : ∀ id, Steps R (rec.evaluateOneGate id))

include walk gate

theorem Walking.transitionPureCascade (node : Node) (run : NodeRun)
    (settle : Steps R (Nodes.updateState run.id .fresh .pureCascade (some "terminal/success")))
    (remove : Steps R (Queue.forceRemoveForNode run.nodeId run.runScopeId))
    (signal : ∀ sig receiverId,
      Steps R (logDelivery { senderRunId := run.id, signal := sig, receiverId })) :
    Steps R (transitionPureCascade args rec node run) := by
  refine steps_bind settle fun _ => steps_bind remove fun _ => ?_
  refine steps_bind (walk.emitSignalOnce gate signal _) fun _ => steps_bind ?_ fun _ => ?_
  · refine steps_reads fun _ => steps_unless fun _ => ?_
    exact steps_reads fun _ => walk.upsert _ _ _
  · refine steps_bind (walk.emitAttributeChangesForRun gate signal _ _) fun _ => ?_
    exact walk.drainWaitSetOnSettled gate _ _

theorem Walking.applyTerminalComplete (holders : HolderSteps R args rec) {acq : Acquisition}
    (acting : Acting R args.supervisorId acq.nodeRunId acq.nodeId acq.runScopeId)
    (release : ∀ success, Steps R (releaseLocks args rec acq success))
    (purge : Steps R (deleteAbandonedClaimHandles acq.nodeRunId))
    (starts : ¬acq.nodeDef.any (·.isSubgraphEntryAbsorbed))
    (ends : ¬acq.nodeDef.any (·.isSubgraphExit))
    (resolvedAttrs : Bag) (schema : Option AttributeSchema) (t : TerminalEvent) :
    Steps R (applyTerminalComplete args rec acq resolvedAttrs schema t) := by
  have settling := walk.settling gate holders acting release purge
  refine settling.applyTerminalComplete (steps_composes R _) (fun merged => ?_)
    (fun exits => absurd exits ends) (fun delegates => absurd delegates starts) schema
  exact steps_reads fun _ => walk.upsert _ _ _

end Both

section Acquire

variable {args : RunArgs} {input : AcquireInput} {run : NodeRun} {s s' : Store}
  {acq acq' : Acquisition} {spec : Option TemplateSpec}

theorem checkpoint_ok {producers : Producers} {step : AcquireStep} {u : Unit}
    (passed : checkpoint producers step s = (.ok u, s')) : s' = s := by
  unfold checkpoint at passed
  cases fault : producers.fault step with
  | none =>
    simp only [fault] at passed
    cases passed
    rfl
  | some text =>
    simp only [fault] at passed
    cases passed

theorem acquireFanOut_of_nothing (locks : acq.locks = [])
    (holds : ∀ def_ ∈ acq.nodeDef, def_.holds = []) {result : Except RefusedLocks (List SubClaim)}
    (splits : acquireFanOut args input acq run spec s = (.ok result, s')) : s' = s := by
  rcases bind_eq_ok.mp splits with ⟨_, mid, passed, splits⟩
  cases checkpoint_ok passed
  cases spec with
  | none =>
    cases splits
    rfl
  | some spec =>
    cases defined : acq.nodeDef with
    | none =>
      simp only [defined] at splits
      cases splits
      rfl
    | some nodeDef =>
      have nothing : s.fanOutParentClaim? acq.instanceId run.frameId spec nodeDef acq.locks =
          fun _ => none := by
        funext claimAlias
        simp [Store.fanOutParentClaim?, locks, holds nodeDef (by simp [defined])]
      simp only [defined] at splits
      unfold acquireFanOutIfDeclared at splits
      cases declared : nodeDef.fanOut with
      | none =>
        simp only [declared] at splits
        cases splits
        rfl
      | some fanOut =>
        simp only [declared, read_bind, id_eq, nothing] at splits
        split at splits
        · cases splits
          rfl
        · cases splits
          rfl

theorem enterAcquired_of_nothing (free : s.Free run.id)
    (holds : ∀ def_ ∈ acq.nodeDef, def_.holds = [])
    {entered : Bool} (enters : enterAcquired args input acq run spec s = (.ok entered, s')) :
    s' = s := by
  have restamped : restampLinkedSubClaimHolders args run.id s = (.ok true, s) := by
    simp only [restampLinkedSubClaimHolders, ClaimHandles.listByNodeRun, read_bind, noHandles free]
    rfl
  rcases bind_eq_ok.mp enters with ⟨_, mid, passed, enters⟩
  cases checkpoint_ok passed
  rw [bind_of_ok restamped] at enters
  rcases bind_eq_ok.mp enters with ⟨_, mid, passed, enters⟩
  cases checkpoint_ok passed
  have last : (checkpoint input.producers .scratch >>= fun _ => (pure true : Tx Bool)) s =
      (.ok entered, s') → s' = s := by
    intro ending
    rcases bind_eq_ok.mp ending with ⟨_, mid, passed, done⟩
    cases checkpoint_ok passed
    cases done
    rfl
  cases spec with
  | none => exact last enters
  | some spec =>
    cases defined : acq.nodeDef with
    | none =>
      simp only [defined] at enters
      exact last enters
    | some nodeDef =>
      have nothing : insertCoHolderClaimHoldersAtAcquire acq.instanceId run spec nodeDef s =
          (.ok (), s) := by
        simp only [insertCoHolderClaimHoldersAtAcquire, resolveHolds,
          holds nodeDef (by simp [defined])]
        rfl
      simp only [defined, bind_of_ok nothing] at enters
      exact last enters

theorem orRefuse_eq_ok {α : Type} {m : Tx α} {a : α} (ok : orRefuse acq m s = (.ok (.ok a), s')) :
    m s = (.ok a, s') := by
  cases run : m s with
  | mk result mid =>
    cases result with
    | error e =>
      rw [orRefuse_error run] at ok
      cases ok
    | ok b =>
      rw [orRefuse_ok run] at ok
      cases ok
      rfl

theorem takeLocks_of_nothing (free : s.Free run.id) (holds : ∀ def_ ∈ acq.nodeDef, def_.holds = [])
    (taken : takeLocks args input acq run spec [] s = (.ok (.ok acq'), s')) :
    s' = s ∧ ∃ subClaims, acq' = { acq with locks := [], subClaims } := by
  change finishAcquire args input { acq with locks := [] } run spec s = _ at taken
  rcases bind_eq_ok.mp taken with ⟨result, mid, splits, taken⟩
  cases result with
  | error refused => cases taken
  | ok result =>
    have split := orRefuse_eq_ok splits
    have same : mid = s := by
      refine acquireFanOut_of_nothing ?_ ?_ split
      · rfl
      · exact holds
    cases same
    cases result with
    | error refused => cases taken
    | ok subClaims =>
      rcases bind_eq_ok.mp taken with ⟨result, mid, enters, taken⟩
      cases result with
      | error refused => cases taken
      | ok entered =>
        have joined := orRefuse_eq_ok enters
        have same : mid = s := by
          refine enterAcquired_of_nothing free ?_ joined
          exact holds
        cases same
        cases entered with
        | false => cases taken
        | true =>
          cases taken
          exact ⟨rfl, subClaims, rfl⟩

def Store.nodeDefOf (s : Store) (run : NodeRun) : Option TemplateNodeDef :=
  (s.node? run.nodeId).bind fun node =>
    (s.template? node.instanceId).bind (·.lookupNodeDef node.nodeType)

structure Acquisition.IsPlain (acq : Acquisition) (run : NodeRun)
    (nodeDef : Option TemplateNodeDef) : Prop where
  nodeRunId : acq.nodeRunId = run.id
  locks : acq.locks = []
  defined : acq.nodeDef = nodeDef

theorem claimDispatchRow_claims {supervisorId : String} {claimed : Bool}
    (claims : Queue.claimDispatchRow run.id supervisorId s = (.ok claimed, s')) :
    s'.claimHandles = s.claimHandles ∧ s'.claimHolders = s.claimHolders := by
  rcases bind_eq_ok.mp claims with ⟨n, mid, updated, done⟩
  cases done
  have same := updateRuns_store (fun s r => r.id = run.id &&
    (r.claimedBy.isNone || r.claimedBy = some supervisorId) && r.state = .stale && !s.serialized r)
    (fun now r =>
      { r with claimedBy := some supervisorId, claimedAt := some now, lastProgressAt := some now })
      s
  rw [updated] at same
  rcases same with rfl | rfl <;> exact ⟨rfl, rfl⟩

theorem tryAcquire_of_nothing (free : s.Free run.id)
    (holds : ∀ def_ ∈ s.nodeDefOf run, def_.holds = [])
    (specs : input.specs = .ok []) (acquired : tryAcquire args input run s = (.ok (.ok acq), s')) :
    acq.IsPlain run (s.nodeDefOf run) ∧
      (Queue.claimDispatchRow run.id args.supervisorId s).2 = s' := by
  unfold tryAcquire at acquired
  rw [read_bind] at acquired
  cases known : s.node? run.nodeId with
  | none =>
    simp only [id_eq, known] at acquired
    cases acquired
  | some node =>
    have defined : s.nodeDefOf run =
        (s.template? node.instanceId).bind (·.lookupNodeDef node.nodeType) := by
      simp [Store.nodeDefOf, known]
    have none : input.lockSpecs (run.acquisition node (s.template? node.instanceId)).nodeDef =
        .ok [] := by
      simp [AcquireInput.lockSpecs, specs]
    simp only [id_eq, known, none] at acquired
    split at acquired
    · cases acquired
    · rcases bind_eq_ok.mp acquired with ⟨_, mid, passed, acquired⟩
      cases checkpoint_ok passed
      rcases bind_eq_ok.mp acquired with ⟨claimed, mid, claims, acquired⟩
      rw [claims]
      cases claimed with
      | false => cases acquired
      | true =>
        have free' : mid.Free run.id := by
          have claimed := claimDispatchRow_claims claims
          exact ⟨claimed.1 ▸ free.handles, claimed.2 ▸ free.holders⟩
        rw [defined] at holds
        rcases takeLocks_of_nothing free' holds acquired with ⟨rfl, subClaims, rfl⟩
        exact ⟨⟨rfl, rfl, defined.symm⟩, rfl⟩

end Acquire

section Alike

variable {args : RunArgs} {run : NodeRun} {s s' : Store} {input : AcquireInput} {fuel : Nat}
  {resolvedAttrs : Bag} {schema : Option AttributeSchema} {t : TerminalEvent}
    {settlement : Settlement}

theorem runToSuccess_cases (free : s.Free run.id)
    (holds : ∀ def_ ∈ s.nodeDefOf run, def_.holds = []) (specs : input.specs = .ok [])
    (ran : runToSuccess args fuel input run resolvedAttrs schema t s =
      (.ok (some settlement), s')) :
    ∃ acq running, acq.IsPlain run (s.nodeDefOf run) ∧
      (∀ (R : Store → Store → Prop) [IsPreorder Store R],
        Steps R (Queue.claimDispatchRow run.id args.supervisorId) →
        Steps R (Queue.promoteClaimedToRunning run.id args.supervisorId) → R s running) ∧
      applyTerminalComplete args (knot args fuel) acq resolvedAttrs schema t running =
        (.ok settlement, s') := by
  rcases bind_eq_ok.mp ran with ⟨result, claimed, acquired, ran⟩
  cases result with
  | error refused => cases ran
  | ok acq =>
    rcases tryAcquire_of_nothing free holds specs acquired with ⟨plain, same⟩
    rcases bind_eq_ok.mp ran with ⟨_, running, promoted, ran⟩
    rcases bind_eq_ok.mp ran with ⟨_, settled, completed, done⟩
    cases done
    refine ⟨acq, running, plain, fun R _ claim promote => ?_, completed⟩
    have first : R s claimed := same ▸ claim s
    exact IsTrans.trans _ _ _ first (promote.run promoted)

theorem Detached.transitionPureCascade (node : Node) :
    Steps Detached (transitionPureCascade args (knot args fuel) node run) := by
  refine walking.transitionPureCascade (gate args fuel) node run
    (updateState _ _ _ (by simp)) ?_ fun _ _ => logDelivery _
  exact steps_bind (updateRuns (fun _ _ => rfl) (fun _ _ => rfl) fun _ _ pending =>
    pending) fun _ => steps_pure _

theorem Detached.From.applyTerminalComplete {acq : Acquisition} {nodeDef : Option TemplateNodeDef}
    (plain : acq.IsPlain run nodeDef) (starts : ¬nodeDef.any (·.isSubgraphEntryAbsorbed))
    (ends : ¬nodeDef.any (·.isSubgraphExit)) :
    Steps (From Detached run.id)
      (applyTerminalComplete args (knot args fuel) acq resolvedAttrs schema t) := by
  have weaker : ∀ s s', Detached s s' → From Detached run.id s s' := fun _ _ => isFrom run.id
  have gates : ∀ id, Steps Detached ((knot args fuel).evaluateOneGate id) := gate args fuel
  refine (walking.mono weaker).applyTerminalComplete (fun id => steps_mono (gates id) weaker)
    ((holders gates).mono weaker) ((acting _ _ _ _).mono weaker) ?_ ?_
    (plain.defined ▸ starts) (plain.defined ▸ ends) resolvedAttrs schema t
  · intro success s pendingFree free
    rw [releaseLocks_of_free plain.locks success (plain.nodeRunId ▸ free)]
    exact refl (r := From Detached run.id) s pendingFree free
  · intro s pendingFree free
    rw [plain.nodeRunId, deleteAbandonedClaimHandles_free free]
    exact refl (r := From Detached run.id) s pendingFree free

theorem ScopesStay.transitionPureCascade (node : Node) :
    Steps ScopesStay (transitionPureCascade args (knot args fuel) node run) :=
  blind.footprint.transitionPureCascade (blind.knot args fuel).gate node run
    (blind.runBlind.updateState _ _ _ _)
    (steps_bind (blind.runBlind.updateRuns _ _) fun _ => steps_pure _) fun _ _ =>
      blind.runBlind.logDelivery _

theorem StaysRunning.transitionPureCascade {runId : Id} (other : run.id ≠ runId) (node : Node) :
    Steps (StaysRunning runId) (transitionPureCascade args (Rimsky.knot args fuel) node run) := by
  refine StaysRunning.footprint.transitionPureCascade
    (StaysIn.knot firm_running args fuel).gate
    node run (StaysIn.updateState other _ _ _) ?_ fun _ _ => StaysIn.logDelivery _
  exact steps_bind (StaysIn.updateRuns (fun _ _ => rfl) fun _ _ _ _ state => state) fun _ =>
    steps_pure _

section Complete

variable {acq : Acquisition} {nodeDef : Option TemplateNodeDef} (plain : acq.IsPlain run nodeDef)
  (starts : ¬nodeDef.any (·.isSubgraphEntryAbsorbed)) (ends : ¬nodeDef.any (·.isSubgraphExit))

include plain starts ends

theorem ScopesStay.applyTerminalComplete :
    Steps ScopesStay (applyTerminalComplete args (knot args fuel) acq resolvedAttrs schema t) := by
  have fp := blind.footprint
  have nested := blind.knot args fuel
  have holders : HolderSteps ScopesStay args _ := blind.runBlind.holders nested
  exact fp.applyTerminalComplete nested.gate holders (blind.runBlind.acting _ _ _ _)
    (fp.releaseLocks nested holders acq) (fp.deleteAbandonedClaimHandles _)
    (plain.defined ▸ starts) (plain.defined ▸ ends) resolvedAttrs schema t

theorem StaysRunning.applyTerminalComplete {runId : Id} (other : run.id ≠ runId) :
    Steps (StaysRunning runId)
      (applyTerminalComplete args (Rimsky.knot args fuel) acq resolvedAttrs schema t) := by
  have fp : Footprint (StaysRunning runId) := StaysRunning.footprint
  have nested : RecSteps (StaysRunning runId) (Rimsky.knot args fuel) :=
    StaysIn.knot firm_running args fuel
  exact fp.applyTerminalComplete nested.gate (StaysRunning.holders nested)
    (StaysIn.acting _ _ _ (plain.nodeRunId ▸ other)) (StaysRunning.releaseLocks nested acq)
    (fp.deleteAbandonedClaimHandles _) (plain.defined ▸ starts) (plain.defined ▸ ends)
    resolvedAttrs schema t

end Complete

section Root

variable (unobliged : s.Unobliged run (s.nodeDefOf run)) {gone : Id → Bool}

include unobliged

theorem propagateIfChildAfterTerminal_root {rec : Rec} (culled : Culled gone s s')
    (stays : ScopesStay s s') : propagateIfChildAfterTerminal args rec run.id s' =
      (.ok [], s') := by
  have above : ((s'.run? run.id).bind fun row =>
      (s'.runScope? row.runScopeId).bind (·.parentNodeRunId)) = none := by
    simp only [Option.bind_eq_none_iff]
    intro row' found' scope' scopeFound'
    have place := culled.runs run.id unobliged.known
    rw [found'] at place
    split at place
    · cases place
    · rcases Option.map_eq_some_iff.mp place.symm with ⟨row, found, same⟩
      have scopeId : row.runScopeId = row'.runScopeId := congrArg Prod.snd same
      rcases stays scope' (List.mem_of_find?_eq_some scopeFound') with ⟨scope, mem, id, parent⟩
      have named : scope'.id = row'.runScopeId := by simpa using List.find?_some scopeFound'
      rw [← parent]
      exact unobliged.root row found scope mem (id.trans (named.trans scopeId.symm))
  unfold propagateIfChildAfterTerminal
  rw [read_bind]
  dsimp only [id]
  rw [above]
  rfl

theorem afterCommit_root {rec : Rec} (culled : Culled gone s s') (stays : ScopesStay s s')
    (n : Nat) : afterCommit args rec (n + 1) [.propagate run.id] s' = s' := by
  unfold afterCommit
  rw [commit_of_ok (propagateIfChildAfterTerminal_root unobliged culled stays)]
  cases n <;> rfl

theorem Store.Unobliged.commits (pendingFree : s.PendingFree) {α : Type} {m : Tx α}
    {result : Except StoreError α} (apart : Steps Detached m) (stays : Steps ScopesStay m)
    (running : ∀ id, id ≠ run.id → Steps (StaysRunning id) m) (done : commit m s = (result, s')) :
    Spared run.id s s' ∧ ScopesStay s s' ∧ ∃ gone, Culled gone s s' := by
  have stays := steps_commit stays s
  rcases steps_commit apart s pendingFree with ⟨-, gone, culled⟩
  have running := fun id other => steps_commit (running id other) s
  rw [done] at stays culled
  simp only [done] at running
  refine ⟨⟨culled.trimmed, ?_, running⟩, stays, gone, culled⟩
  exact (stays.noneBelow unobliged.childless).children

/-- The scheduler leaves claims, runs below and other running runs as they are. -/
theorem spared_pureCascade (pendingFree : s.PendingFree) (node : Node) :
    Spared run.id s (processPureCascadeRow args (knot args fuel) s (node, run)) := by
  have settles : Spared run.id s
      (processPureCascadeRow.settle args (knot args fuel) (node, run) s) := by
    unfold processPureCascadeRow.settle
    cases settled : commit (transitionPureCascade args (knot args fuel) node run) s with
    | mk result s' =>
      rcases unobliged.commits pendingFree (Detached.transitionPureCascade node)
        (ScopesStay.transitionPureCascade node)
        (fun id other => StaysRunning.transitionPureCascade other.symm node) settled with
        ⟨spared, stays, gone, culled⟩
      cases result with
      | error e => exact spared
      | ok _ =>
        dsimp only
        rw [afterCommit_root unobliged culled stays]
        exact spared
  have routes : ∀ def_, Spared run.id s (commit (prepareNativeClaimRouting run def_) s).2 := by
    intro def_
    refine (unobliged.commits pendingFree (steps_bind ?_ fun _ => steps_pure _)
      (steps_bind (ScopesStay.blind.runBlind.updateRuns _ _) fun _ => steps_pure _)
      (fun id _ => steps_bind ?_ fun _ => steps_pure _) rfl).1
    · exact Detached.updateRuns (fun _ _ => rfl) (fun _ _ => rfl) fun _ _ pending => pending
    · exact StaysIn.updateRuns (fun _ _ => rfl) fun _ _ _ _ state => state
  unfold processPureCascadeRow
  dsimp only
  split
  · split
    · exact routes _
    · exact settles
  · exact settles

end Root

theorem Store.Free.noneHeld {runId : Id} (free : s.Free runId) :
    s.hasActiveHeldClaims runId = false ∧ s.poisoned runId = false := by
  have along : ∀ fits, s.coHeld runId fits = [] := by
    intro fits
    rw [Store.coHeld, List.filter_eq_nil_iff.mpr]
    · rfl
    · intro h mem
      simp [free.holders h mem]
  have own : s.claimHandles.filter (fun h => h.nodeRunId = some runId) = [] :=
    List.filter_eq_nil_iff.mpr fun h mem => by simpa using free.handles h mem
  refine ⟨?_, ?_⟩
  · rw [Store.hasActiveHeldClaims, along, List.any_nil, Bool.or_false, List.any_eq_false]
    intro h mem
    simp [free.handles h mem]
  · rw [Store.poisoned, Store.portfolio, own, along]
    rfl

/-- All that a success without obligations leaves to be done is to look at the parent. -/
theorem applyTerminalComplete_post {acq : Acquisition} {nodeDef : Option TemplateNodeDef}
    (plain : acq.IsPlain run nodeDef) (starts : ¬nodeDef.any (·.isSubgraphEntryAbsorbed))
    (ends : ¬nodeDef.any (·.isSubgraphExit)) (single : ¬nodeDef.any (·.fanOut.isSome))
    (pendingFree : s.PendingFree) (free : s.Free run.id) (fits : t.Fits args resolvedAttrs schema)
    (done : applyTerminalComplete args (knot args fuel) acq resolvedAttrs schema t s =
      (.ok settlement, s')) : settlement.post = [.propagate run.id] := by
  have valid : (if t.attributesDel.isEmpty then none else validateCommitWriteback args schema
      (mergeAttributesDelta resolvedAttrs t.attributesDel)) = none := by
    rcases fits with empty | fits
    · simp [empty]
    · simp [fits]
  have noExit : acq.isSubgraphExit = false := by
    simpa [Acquisition.isSubgraphExit, plain.defined] using ends
  unfold applyTerminalComplete at done
  rw [valid] at done
  simp only [plain.defined, starts, Bool.false_eq_true, if_false] at done
  unfold completeLeaf at done
  simp only [noExit, Bool.false_eq_true, if_false, Bool.not_false, if_true, Transaction.pure_bind,
    read_bind, plain.nodeRunId, free.noneHeld.1] at done
  rw [bind_of_ok (Detached.releaseLocks_free plain.locks true (plain.nodeRunId ▸ free))] at done
  rcases bind_eq_ok.mp done with ⟨_, kept, keep, done⟩
  rcases bind_eq_ok.mp done with ⟨_, noted, note, done⟩
  have keeps := (Steps.run (steps_reads fun _ => Detached.walking.upsert _ _ _) keep).isFrom run.id
  have notes := (Steps.run (Detached.walking.applyTerminalScratch _) note).isFrom run.id
  rcases IsTrans.trans _ _ _ keeps notes pendingFree free with ⟨-, free, -⟩
  unfold completeSettle at done
  rw [if_neg Bool.false_ne_true, read_bind, plain.nodeRunId, free.noneHeld.2] at done
  rcases bind_eq_ok.mp done with ⟨_, _, _, done⟩
  rcases bind_eq_ok.mp done with ⟨_, _, _, done⟩
  rcases bind_eq_ok.mp done with ⟨_, _, _, done⟩
  cases done
  simp [Acquisition.recalculate, plain.defined, single, plain.nodeRunId]

theorem spared_settleBySupervisor (pendingFree : s.PendingFree)
    (unobliged : s.Unobliged run (s.nodeDefOf run)) (specs : input.specs = .ok [])
    (fits : t.Fits args resolvedAttrs schema)
    (settles : settleBySupervisor args fuel input run resolvedAttrs schema t s = some s') :
    Spared run.id s s' := by
  unfold settleBySupervisor at settles
  split at settles
  case h_2 => cases settles
  case h_1 settlement settled committed =>
    injection settles with settles
    have ran : runToSuccess args fuel input run resolvedAttrs schema t s =
        (.ok (some settlement), settled) := commit_eq_ok committed
    rcases runToSuccess_cases unobliged.free unobliged.holds specs ran with
      ⟨acq, running, plain, reached, completed⟩
    have apart := reached Detached
      (steps_bind (Detached.updateRuns (fun _ _ => rfl) (fun _ _ => rfl) fun _ _ pending => pending)
        fun _ => steps_pure _)
      (steps_bind (Detached.updateRuns (fun _ _ => rfl) (fun _ _ => rfl) (by rintro _ _ ⟨⟩))
        fun _ => steps_pure _)
    rcases apart.isFrom run.id pendingFree unobliged.free with ⟨pendingFree', free', -⟩
    rcases apart pendingFree with ⟨-, before, culled⟩
    have post := applyTerminalComplete_post plain unobliged.starts unobliged.ends unobliged.single
      pendingFree' free' fits completed
    rcases Steps.run (Detached.From.applyTerminalComplete plain unobliged.starts unobliged.ends)
      completed pendingFree' free' with ⟨-, -, detached⟩
    rcases detached pendingFree' with ⟨-, after, culled'⟩
    have stays : ScopesStay s settled := IsTrans.trans _ _ _
      (reached ScopesStay (steps_bind (ScopesStay.blind.runBlind.updateRuns _ _) fun _ =>
        steps_pure _) (steps_bind (ScopesStay.blind.runBlind.updateRuns _ _) fun _ => steps_pure _))
      (Steps.run (ScopesStay.applyTerminalComplete plain unobliged.starts unobliged.ends) completed)
    rw [post, afterCommit_root unobliged (culled.trans culled') stays] at settles
    subst settles
    refine ⟨(culled.trans culled').trimmed, (stays.noneBelow unobliged.childless).children, ?_⟩
    intro id other
    refine (IsTrans.trans _ _ _ (reached (StaysRunning id) ?_ ?_) (Steps.run
      (StaysRunning.applyTerminalComplete plain unobliged.starts unobliged.ends other.symm)
        completed) :
      StaysRunning id s settled)
    · exact steps_bind (StaysIn.updateRuns (fun _ _ => rfl) fun _ _ _ _ state => state)
        fun _ => steps_pure _
    · exact steps_bind (StaysIn.updateRuns (fun _ _ => rfl) fun _ _ _ _ _ => rfl)
        fun _ => steps_pure _

end Alike

namespace Passive

def args : RunArgs := saverArgs

def input : AcquireInput := { producers := { openClaim := fun _ _ => .broken "no claim" } }

def schedule (s : Store) : Store := processPureCascade args.scheduler (knot args.scheduler 4) s

def succeed (run : NodeRun) (s : Store) : Option Store :=
  settleBySupervisor args 4 input run [] none { kind := .complete } s

def runOf (id nodeId runScopeId : Id) (state : NodeState) : NodeRun where
  id := id
  nodeId := nodeId
  enqueuedAt := 0
  state := state
  creationReason := .cascade
  sequence := 1
  frameId := 1
  runScopeId := runScopeId

def relaying : Store where
  instances := [{ id := 1, template := { nodes := [{ type := "relay" }] } }]
  nodes := [{ id := 1, instanceId := 1, nodeType := "relay" }]
  runScopes := [{ id := 1, graphName := "main", instanceId := 1 }]
  runs := [runOf 1 1 1 .stale]
  nextId := 10

def runStates (s : Store) : List (Id × NodeState) := s.runs.map fun r => (r.id, r.state)

def relay : Node := { id := 1, instanceId := 1, nodeType := "relay" }

def scheduleRelay : Store :=
  processPureCascadeRow args.scheduler (knot args.scheduler 4) relaying (relay, runOf 1 1 1 .stale)

def sharing : Store where
  instances := [{
    id := 1
    template := {
      nodes := [
        { type := "writer", executor := "worker"
          claimProducers := [{ name := "vault", «alias» := "ledger" }] },
        { type := "reader", holds := [("ledger", { «from» := "writer" })]
          subscribes := [{ node := "writer", type := "terminal/success" }] }] } }]
  nodes := [{ id := 1, instanceId := 1, nodeType := "writer", executor := "worker" },
    { id := 2, instanceId := 1, nodeType := "reader" }]
  runScopes := [{ id := 1, graphName := "main", instanceId := 1 }]
  runs := [runOf 1 1 1 .held, runOf 2 2 1 .stale]
  claimHandles := [{ keptHandle with
    isHeld := true, producerName := some "vault", frameId := some 1, nodeRunId := some 1 }]
  claimHolders := [{ id := 8, claimHandleId := 7, holderRunId := 1, state := .completed }]
  nextId := 10

/--
The template of a caller, with its own claim, and a graph of which only the exit has no executor.
-/
def calling (caller : TemplateNodeDef) : TemplateSpec :=
  let caller :=
    { caller with type := "caller", delegate := "work", isSubgraphEntryAbsorbed := true }
  let exit : TemplateNodeDef := { type := "exit", isSubgraphExit := true }
  { nodes := [caller, exit]
    graphs := [{ name := "work", entry := "caller", exit := "exit", nodes := [caller, exit] }] }

def starting : Store where
  instances := [{ id := 1, template := calling { type := "" } }]
  nodes := [{ id := 1, instanceId := 1, nodeType := "caller" },
    { id := 2, instanceId := 1, nodeType := "exit" }]
  runScopes := [{ id := 1, graphName := "main", instanceId := 1 }]
  runs := [runOf 1 1 1 .stale]
  nextId := 10

/-- The exit of a graph, whose caller has a claim, is to be settled. -/
def ending : Store where
  instances := [{
    id := 1
    template :=
      calling { type := "", executor := "worker", claimProducers := [{ name := "vault" }] } }]
  nodes := [{ id := 1, instanceId := 1, nodeType := "caller", executor := "worker" },
    { id := 2, instanceId := 1, nodeType := "exit" }]
  runScopes := [{ id := 1, graphName := "main", instanceId := 1 },
    { id := 2, graphName := "work", instanceId := 1, parentNodeRunId := some 1
      parentRunScopeId := some 1 }]
  runs := [runOf 1 1 1 .running, runOf 2 2 2 .stale]
  claimHandles := [{ keptHandle with
    producerName := some "vault", frameId := some 1, nodeRunId := some 1 }]
  nextId := 10

def handleStates (s : Store) : List (Id × ClaimHandleState) := s.claimHandles.map fun h =>
    (h.id, h.state)

end Passive

end Rimsky
