import Rimsky.Lib.Keyed
import Rimsky.Runtime.Walking

/-!
# Gates leave claims alone

No claim is bound to a pending run. A gate whose sources cannot be resolved settles a run that
was pending, so there is nothing to release; all that signals and gates do to claims is what
the deletion of runs does to them by foreign keys.
-/

namespace Rimsky

open Transaction List Store ClaimHandle

variable {s s' : Store} {runId : Id} {state : NodeState} {args : RunArgs} {rec : Rec}
  (h : ClaimHandle)

def ClaimHandle.unbound (gone : Id → Bool) : ClaimHandle :=
  if h.nodeRunId.any gone then { h with nodeRunId := none } else h

/-- Claims changed only by the deletion of runs. -/
def Trimmed (s s' : Store) : Prop :=
  ∃ gone : Id → Bool, s'.outbox = s.outbox ∧ s'.claimHandles = s.claimHandles.map (·.unbound gone) ∧
    s'.claimHolders = s.claimHolders.filter fun h => !gone h.holderRunId

@[simp]
theorem ClaimHandle.unbound_id (gone : Id → Bool) : (h.unbound gone).id = h.id := by
  unfold unbound
  split <;> rfl

@[simp]
theorem ClaimHandle.unbound_state (gone : Id → Bool) :
    (h.unbound gone).state = h.state := by
  unfold unbound
  split <;> rfl

@[simp]
theorem ClaimHandle.unbound_holder (gone : Id → Bool) :
    (h.unbound gone).holderSupervisorId = h.holderSupervisorId := by
  unfold unbound
  split <;> rfl

@[simp]
theorem ClaimHandle.unbound_parent (gone : Id → Bool) :
    (h.unbound gone).parentClaimHandleId = h.parentClaimHandleId := by
  unfold unbound
  split <;> rfl

theorem ClaimHandle.bound_of_unbound {gone : Id → Bool}
    (bound : (h.unbound gone).nodeRunId = some runId) :
    h.nodeRunId = some runId := by
  unfold unbound at bound
  split at bound
  · cases bound
  · exact bound

theorem ClaimHandle.unbound_none : h.unbound (fun _ => false) = h := by
  simp [unbound]

theorem ClaimHandle.unbound_unbound (gone gone' : Id → Bool) :
    (h.unbound gone).unbound gone' = h.unbound fun id => gone id || gone' id := by
  cases bound : h.nodeRunId with
  | none => simp [unbound, bound]
  | some id =>
    cases first : gone id with
    | true => simp [unbound, bound, first]
    | false => simp [unbound, bound, first]

theorem map_unbound_map (rows : List ClaimHandle) (gone gone' : Id → Bool) :
    (rows.map (·.unbound gone)).map (·.unbound gone') =
      rows.map (·.unbound fun id => gone id || gone' id) := by
  simp [unbound_unbound]

theorem filter_kept_filter (rows : List ClaimHolder) (gone gone' : Id → Bool) :
    (rows.filter fun h => !gone h.holderRunId).filter (fun h => !gone' h.holderRunId) =
      rows.filter fun h => !(gone h.holderRunId || gone' h.holderRunId) := by
  simp [filter_filter, Bool.and_comm]

theorem Trimmed.of_same (outbox : s'.outbox = s.outbox) (handles : s'.claimHandles = s.claimHandles)
    (holders : s'.claimHolders = s.claimHolders) : Trimmed s s' := by
  refine ⟨fun _ => false, outbox, ?_, ?_⟩
  · simp [handles, unbound_none]
  · simp [holders]

instance : IsPreorder Store Trimmed where
  refl s := .of_same rfl rfl rfl
  trans a b c := by
    rintro ⟨gone, outbox, handles, holders⟩ ⟨gone', outbox', handles', holders'⟩
    refine ⟨fun id => gone id || gone' id, outbox'.trans outbox, ?_, ?_⟩
    · rw [handles', handles, map_unbound_map]
    · rw [holders', holders, filter_kept_filter]

/-- Where a run belongs: its node and its scope. -/
def NodeRun.place (r : NodeRun) : Id × Id := (r.nodeId, r.runScopeId)

/-- The runs that are gone take their claims along; the others are where they were. -/
structure Culled (gone : Id → Bool) (s s' : Store) : Prop where
  outbox : s'.outbox = s.outbox
  handles : s'.claimHandles = s.claimHandles.map (·.unbound gone)
  holders : s'.claimHolders = s.claimHolders.filter fun h => !gone h.holderRunId
  nodes : s'.nodes = s.nodes
  instances : s'.instances = s.instances
  later : s.nextId ≤ s'.nextId
  runs : ∀ id < s.nextId,
    (s'.run? id).map (·.place) = if gone id then none else (s.run? id).map (·.place)

namespace Culled

variable {gone gone' : Id → Bool} {s mid s' : Store}

theorem trimmed (culled : Culled gone s s') : Trimmed s s' :=
  ⟨gone, culled.outbox, culled.handles, culled.holders⟩

theorem of_same (outbox : s'.outbox = s.outbox) (handles : s'.claimHandles = s.claimHandles)
    (holders : s'.claimHolders = s.claimHolders) (nodes : s'.nodes = s.nodes)
    (instances : s'.instances = s.instances) (later : s.nextId ≤ s'.nextId)
    (runs : ∀ id < s.nextId, (s'.run? id).map (·.place) = (s.run? id).map (·.place)) :
    Culled (fun _ => false) s s' := by
  refine ⟨outbox, ?_, ?_, nodes, instances, later, fun id known => runs id known⟩
  · simp [handles, unbound_none]
  · simp [holders]

theorem trans (first : Culled gone s mid) (second : Culled gone' mid s') :
    Culled (fun id => gone id || gone' id) s s' := by
  refine ⟨second.outbox.trans first.outbox, ?_, ?_, second.nodes.trans first.nodes,
    second.instances.trans first.instances, Nat.le_trans first.later second.later, ?_⟩
  · rw [second.handles, first.handles, map_unbound_map]
  · rw [second.holders, first.holders, filter_kept_filter]
  · intro id known
    rw [second.runs id (Nat.lt_of_lt_of_le known first.later), first.runs id known]
    cases gone id <;> simp

theorem nodeOf (culled : Culled gone s s') {id : Id} (known : id < s.nextId)
    (kept : gone id = false) :
    (s'.run? id).map (·.nodeId) = (s.run? id).map (·.nodeId) := by
  have same := culled.runs id known
  rw [kept] at same
  simpa [Function.comp_def, NodeRun.place] using congrArg (Option.map Prod.fst) same

end Culled

/-- Whether a run is one that claims may be bound to: it is known and not pending. -/
def Store.MayHold (s : Store) (runId : Id) : Prop :=
  runId < s.nextId ∧ ∀ r ∈ s.runs, r.id = runId → r.state ≠ .pending

structure Store.PendingFree (s : Store) : Prop where
  handles : ∀ h ∈ s.claimHandles, ∀ runId, h.nodeRunId = some runId → s.MayHold runId
  holders : ∀ h ∈ s.claimHolders, s.MayHold h.holderRunId

theorem Store.PendingFree.of_mayHold (free : s.PendingFree)
    (mayHold : ∀ runId, s.MayHold runId → s'.MayHold runId)
    (handles : s'.claimHandles = s.claimHandles) (holders : s'.claimHolders = s.claimHolders) :
    s'.PendingFree := by
  refine ⟨?_, ?_⟩
  · rw [handles]
    exact fun h mem runId bound => mayHold _ (free.handles h mem runId bound)
  · rw [holders]
    exact fun h mem => mayHold _ (free.holders h mem)

structure Store.Free (s : Store) (runId : Id) : Prop where
  handles : ∀ h ∈ s.claimHandles, h.nodeRunId ≠ some runId
  holders : ∀ h ∈ s.claimHolders, h.holderRunId ≠ runId

def Apart (s s' : Store) : Prop := s.PendingFree → s'.PendingFree ∧ Trimmed s s'

instance : IsPreorder Store Apart where
  refl s free := ⟨free, refl s⟩
  trans a b c first second free := by
    rcases first free with ⟨free, trimmed⟩
    rcases second free with ⟨free, trimmed'⟩
    exact ⟨free, IsTrans.trans _ _ _ trimmed trimmed'⟩

/-- As long as no claim is bound to a pending run, claims go only with the runs that go. -/
def Detached (s s' : Store) : Prop := s.PendingFree → s'.PendingFree ∧ ∃ gone, Culled gone s s'

instance : IsPreorder Store Detached where
  refl s free := ⟨free, _, .of_same rfl rfl rfl rfl rfl (Nat.le_refl _) fun _ _ => rfl⟩
  trans a b c first second free := by
    rcases first free with ⟨free, gone, culled⟩
    rcases second free with ⟨free, gone', culled'⟩
    exact ⟨free, _, culled.trans culled'⟩

theorem Detached.apart (detached : Detached s s') : Apart s s' := by
  intro free
  rcases detached free with ⟨free', gone, culled⟩
  exact ⟨free', culled.trimmed⟩

theorem Store.PendingFree.trimmed (free : s.PendingFree) (trimmed : Trimmed s s')
    (mayHold : ∀ runId, s.MayHold runId → s'.MayHold runId) : s'.PendingFree := by
  rcases trimmed with ⟨gone, -, handles, holders⟩
  refine ⟨?_, ?_⟩
  · intro h' mem runId bound
    rw [handles] at mem
    rcases mem_map.mp mem with ⟨h, old, rfl⟩
    exact mayHold _ (free.handles h old runId (h.bound_of_unbound bound))
  · intro h mem
    rw [holders] at mem
    exact mayHold _ (free.holders h (mem_filter.mp mem).1)

theorem Store.Free.trimmed (free : s.Free runId) (trimmed : Trimmed s s') : s'.Free runId := by
  rcases trimmed with ⟨gone, -, handles, holders⟩
  refine ⟨?_, ?_⟩
  · intro h' mem bound
    rw [handles] at mem
    rcases mem_map.mp mem with ⟨h, old, rfl⟩
    exact free.handles h old (h.bound_of_unbound bound)
  · intro h mem
    rw [holders] at mem
    exact free.holders h (mem_filter.mp mem).1

theorem Store.PendingFree.free (free : s.PendingFree) {row : NodeRun}
    (known : s.run? row.id = some row) (pending : row.state = .pending) : s.Free row.id := by
  have mem : row ∈ s.runs := mem_of_find?_eq_some known
  refine ⟨?_, ?_⟩
  · intro h hMem bound
    exact (free.handles h hMem row.id bound).2 row mem rfl pending
  · intro h hMem same
    exact (free.holders h hMem).2 row mem same.symm pending

theorem Store.pendingFree_of_bounded
    (handles : ∀ h ∈ s.claimHandles, ∀ runId ∈ h.nodeRunId, runId < s.nextId)
    (holders : ∀ h ∈ s.claimHolders, h.holderRunId < s.nextId)
    (runs : ∀ r ∈ s.runs, r.state ≠ .pending) : s.PendingFree := by
  refine ⟨?_, ?_⟩
  · intro h mem runId bound
    exact ⟨handles h mem runId bound, fun r known _ => runs r known⟩
  · intro h mem
    exact ⟨holders h mem, fun r known _ => runs r known⟩

theorem mem_deleteRuns {ids : List Id} {r' : NodeRun} (mem : r' ∈ (s.deleteRuns ids).runs) :
    ∃ r ∈ s.runs, r'.core = r.core ∧
      (s.deletionClosure ids s.runs.length).contains r.id = false := by
  rcases mem_map.mp mem with ⟨r, kept, rfl⟩
  rcases mem_filter.mp kept with ⟨old, stays⟩
  refine ⟨r, old, ?_, by simpa using stays⟩
  split <;> rfl

theorem mayHold_deleteRuns (ids : List Id) (may : s.MayHold runId) :
    (s.deleteRuns ids).MayHold runId := by
  refine ⟨may.1, fun r' mem same pending => ?_⟩
  rcases mem_deleteRuns mem with ⟨r, old, core, -⟩
  have id : r'.id = r.id := congrArg (·.id) core
  have state : r'.state = r.state := congrArg (·.state) core
  exact may.2 r old (id ▸ same) (state ▸ pending)

namespace Detached

theorem of_culled {gone : Id → Bool} (culled : Culled gone s s')
    (mayHold : ∀ runId, s.MayHold runId → s'.MayHold runId) : Detached s s' :=
  fun free => ⟨free.trimmed culled.trimmed mayHold, gone, culled⟩

theorem of_runs {change : NodeRun → NodeRun} (sameId : ∀ r, (change r).id = r.id)
    (samePlace : ∀ r, (change r).place = r.place)
    (stays : ∀ r, (change r).state = .pending → r.state = .pending) :
    Detached s { s with runs := s.runs.map change } := by
  refine of_culled (.of_same rfl rfl rfl rfl rfl (Nat.le_refl _) fun id _ => ?_) fun runId may =>
    ⟨may.1, ?_⟩
  · simp only [run?, find?_key_map sameId id, Option.map_map, Function.comp_def, samePlace]
  · intro r' mem same pending
    rcases mem_map.mp mem with ⟨r, old, rfl⟩
    rw [sameId] at same
    exact may.2 r old same (stays r pending)

theorem updateRuns {guard : Store → NodeRun → Bool} {change : Nat → NodeRun → NodeRun}
    (sameId : ∀ now r, (change now r).id = r.id)
    (samePlace : ∀ now r, (change now r).place = r.place)
    (stays : ∀ now r, (change now r).state = .pending → r.state = .pending) :
    Steps Detached (updateRuns guard change) := by
  refine steps_updateRuns fun s => ?_
  refine of_runs (fun r => ?_) (fun r => ?_) fun r pending => ?_
  · split
    · exact sameId _ r
    · rfl
  · split
    · exact samePlace _ r
    · rfl
  · split at pending
    · exact stays _ r pending
    · exact pending

theorem updateState (id : Id) (reason : TransitionReason) (sig : Option String)
    (moves : state ≠ .pending) : Steps Detached (Nodes.updateState id state reason sig) := by
  refine steps_reads fun _ => steps_bind (steps_need _ _) fun _ => ?_
  refine steps_ite (fun _ => steps_bind (updateRuns (fun _ _ => rfl) (fun _ _ => rfl) ?_) fun _ =>
    steps_pure _) fun _ => steps_fail _
  intro now r pending
  exact absurd pending moves

theorem recordRunTreeChanged (id : Id) (sig : String) (changed : Bool) (moves : state ≠ .pending) :
    Steps Detached (recordRunTreeChanged id state sig changed) := by
  refine steps_bind (updateRuns (fun _ _ => rfl) (fun _ _ => rfl) ?_) fun _ =>
    steps_check fun _ => steps_pure _
  intro now r pending
  exact absurd pending moves

theorem logDelivery (d : Delivery) : Steps Detached (logDelivery d) :=
  steps_write fun _ =>
    of_culled (.of_same rfl rfl rfl rfl rfl (Nat.le_refl _) fun _ _ => rfl) fun _ may => may

theorem run?_deleteRuns (s : Store) (ids : List Id) (id : Id) :
    ((s.deleteRuns ids).run? id).map (·.place) =
      if (s.deletionClosure ids s.runs.length).contains id then none
      else (s.run? id).map (·.place) := by
  simp only [run?, deleteRuns]
  rw [find?_key_map (fun r => by split <;> rfl), Option.map_map]
  split
  · next deleted =>
    rw [find?_eq_none.mpr]
    · rfl
    · intro r kept
      have stays := (mem_filter.mp kept).2
      simp only [decide_eq_true_eq]
      rintro rfl
      rw [deleted] at stays
      cases stays
  · next kept =>
    have sameRow : (s.runs.filter fun r =>
        !(s.deletionClosure ids s.runs.length).contains r.id).find?
        (·.id = id) = s.runs.find? (·.id = id) :=
      find?_filter_key (fun id => !(s.deletionClosure ids s.runs.length).contains id)
        (by simpa using kept)
    refine (congrArg _ sameRow).trans ?_
    congr 1
    funext r
    simp only [Function.comp]
    split <;> rfl

theorem deleteRuns (s : Store) (ids : List Id) : Detached s (s.deleteRuns ids) := by
  let gone : Id → Bool := fun id => (s.deletionClosure ids s.runs.length).contains id
  have culled : Culled gone s (s.deleteRuns ids) :=
    ⟨rfl, rfl, rfl, rfl, rfl, Nat.le_refl _, fun id _ => run?_deleteRuns s ids id⟩
  exact of_culled culled fun _ may => mayHold_deleteRuns ids may

theorem createCascadePending (nodeId runScopeId frameId : Id) :
    Steps Detached (Nodes.createCascadePending nodeId runScopeId frameId) := by
  intro s
  rcases Nodes.createCascadePending_store nodeId runScopeId frameId s with
    used | ⟨row, rowId, -, -, -, -, -, -, inserted⟩
  · rw [used]
    refine of_culled (.of_same rfl rfl rfl rfl rfl (Nat.le_succ _) fun _ _ => rfl) fun _ may => ?_
    exact ⟨Nat.lt_succ_of_lt may.1, may.2⟩
  · rw [inserted]
    refine of_culled (.of_same rfl rfl rfl rfl rfl (Nat.le_succ _) fun id known => ?_)
      fun runId may => ⟨Nat.lt_succ_of_lt may.1, ?_⟩
    · have fresh : [row].find? (·.id = id) = none := by
        simpa [rowId] using (Nat.ne_of_lt known).symm
      simp only [run?, find?_append, fresh, Option.or_none]
    · intro r mem same
      rcases mem_append.mp mem with old | new
      · exact may.2 r old same
      · rw [mem_singleton.mp new, rowId] at same
        rw [← same] at may
        exact absurd may.1 (Nat.lt_irrefl _)

theorem walking : Walking Detached where
  aside s w a n le := of_culled (.of_same rfl rfl rfl rfl rfl le fun _ _ => rfl) fun _ may =>
    ⟨Nat.lt_of_lt_of_le may.1 le, may.2⟩
  touch s f keeps := by
    refine of_runs (fun r => ?_) (fun r => ?_) fun r pending => ?_
    · exact congrArg (·.id) (keeps r)
    · exact congrArg (·.place) (keeps r)
    · have same : (f r).state = r.state := congrArg (·.state) (keeps r)
      rwa [same] at pending
  close _ _ _ _ :=
    of_culled (.of_same rfl rfl rfl rfl rfl (Nat.le_refl _) fun _ _ => rfl) fun _ may => may
  wake id reason := by
    refine steps_bind (steps_bind (updateRuns (fun _ _ => rfl) (fun _ _ => rfl) fun _ _ pending =>
      pending) fun _ => steps_pure _) fun _ => ?_
    exact steps_ite (fun _ => steps_bind (updateState _ _ _ (by simp)) fun _ => steps_pure _)
      fun _ => steps_pure _
  pend := createCascadePending
  clear id t := by
    refine steps_bind (updateRuns (fun _ _ => rfl) (fun _ _ => rfl) ?_) fun _ =>
      steps_check fun _ => steps_pure _
    rintro _ _ ⟨⟩
  drop id := steps_reads fun _ =>
    steps_ite (fun _ => steps_write fun s => deleteRuns s _) fun _ => steps_fail _
  prior s row _ _ _ := deleteRuns s _

theorem ne_pending_of_settled (settled : state = .held ∨ state.isTerminal) : state ≠ .pending := by
  rintro rfl
  simp [NodeState.isTerminal] at settled

theorem acting (supervisorId : String) (nodeRunId nodeId runScopeId : Id) :
    Acting Detached supervisorId nodeRunId nodeId runScopeId where
  settle _ _ _ settled := updateState _ _ _ (ne_pending_of_settled settled)
  record _ _ _ terminal := recordRunTreeChanged _ _ _ (ne_pending_of_settled (.inr terminal))
  signal _ _ := logDelivery _
  release := steps_bind (updateRuns (fun _ _ => rfl) (fun _ _ => rfl) fun _ _ pending =>
    pending) fun _ => steps_pure _

theorem holders (gate : ∀ id, Steps Detached (rec.evaluateOneGate id)) :
    HolderSteps Detached args rec := by
  intro s holder _ _ _
  have moves := ne_pending_of_settled (.inr (isTerminal_holderVerdict s holder.id))
  exact walking.settleHolder gate (updateState _ _ _ moves) (recordRunTreeChanged _ _ _ moves)
    (fun _ _ => logDelivery _) s

section From

variable {R : Store → Store → Prop}

/-- As long as the run has no claim, the relation holds, and it still has none. -/
def From (R : Store → Store → Prop) (runId : Id) (s s' : Store) : Prop :=
  s.PendingFree → s.Free runId → s'.PendingFree ∧ s'.Free runId ∧ R s s'

instance [IsPreorder Store R] (runId : Id) : IsPreorder Store (From R runId) where
  refl s free nothing := ⟨free, nothing, refl s⟩
  trans a b c first second free nothing := by
    rcases first free nothing with ⟨free, nothing, related⟩
    rcases second free nothing with ⟨free, nothing, related'⟩
    exact ⟨free, nothing, IsTrans.trans _ _ _ related related'⟩

theorem From.of (runId : Id) (apart : R s s' → Detached s s') (related : R s s') :
    From R runId s s' := by
  intro free nothing
  rcases apart related free with ⟨free, gone, culled⟩
  exact ⟨free, nothing.trimmed culled.trimmed, related⟩

theorem isFrom (runId : Id) (detached : Detached s s') : From Detached runId s s' :=
  .of runId id detached

end From

theorem noHandles (nothing : s.Free runId) :
    s.handlesByClaimedAt (fun h => h.nodeRunId = some runId) = [] := by
  have none : s.claimHandles.filter (fun h => h.nodeRunId = some runId) = [] := by
    rw [filter_eq_nil_iff]
    intro h mem
    simpa using nothing.handles h mem
  simp [handlesByClaimedAt, none]

theorem releaseLocks_free {acq : Acquisition} (noLocks : acq.locks = []) (success : Bool)
    (nothing : s.Free acq.nodeRunId) : releaseLocks args rec acq success s = (.ok [], s) := by
  have noHolders : s.claimHolders.filter (·.holderRunId = acq.nodeRunId) = [] := by
    rw [filter_eq_nil_iff]
    intro h mem
    simpa using nothing.holders h mem
  have own : collectPost (releaseAcquiredLock args rec acq success) acq.locks s = (.ok [], s) := by
    rw [noLocks]
    rfl
  have linked : resolveLinkedSubClaims args rec acq success s = (.ok [], s) := by
    simp only [resolveLinkedSubClaims, ClaimHandles.listByNodeRun, read_bind, noHandles nothing]
    rfl
  have inherited : releaseInheritedClaims args rec acq success s = (.ok [], s) := by
    simp only [releaseInheritedClaims, read_bind, inheritedAliases, noHolders]
    rfl
  simp only [releaseLocks, bind_of_ok own, bind_of_ok linked, bind_of_ok inherited]
  rfl

theorem releaseLocks_of_free {acq : Acquisition} (noLocks : acq.locks = []) (success : Bool)
    (nothing : s.Free acq.nodeRunId) : (releaseLocks args rec acq success s).2 = s := by
  rw [releaseLocks_free noLocks success nothing]

theorem deleteAbandonedClaimHandles_free (nothing : s.Free runId) :
    deleteAbandonedClaimHandles runId s = (.ok (), s) := by
  simp only [deleteAbandonedClaimHandles, ClaimHandles.listByNodeRun, read_bind, noHandles nothing]
  rfl

/-- A run whose gate fails was pending, so it has no claims to release. -/
theorem failing {R : Store → Store → Prop} [IsPreorder Store R] (walk : Walking R)
    (apart : ∀ s s', R s s' → Detached s s') (gate : ∀ id, Steps R (rec.evaluateOneGate id))
    {row : NodeRun} (known : s.run? row.id = some row) (pending : row.state = .pending)
    (holder : Steps R (transitionHolderIfFullyResolved args rec row.id))
    (acting : Acting R args.supervisorId row.id row.nodeId row.runScopeId)
    (error : SubstitutionError) (free : s.PendingFree) :
    R s (routeSubstitutionFailureAtGate args rec row error s).2 := by
  have weaker : ∀ s s', R s s' → From R row.id s s' := fun _ _ => .of row.id (apart _ _)
  have stays : Steps (From R row.id) (routeSubstitutionFailureAtGate args rec row error) := by
    refine (walk.mono weaker).routeSubstitutionFailureAtGate (fun id => steps_mono (gate id) weaker)
      (steps_mono holder weaker) (acting.mono weaker) ?_ ?_ error
    · rintro acq success sameRun noLocks s free nothing
      rw [releaseLocks_of_free noLocks success (sameRun ▸ nothing)]
      exact refl (r := From R row.id) s free nothing
    · intro s free nothing
      rw [deleteAbandonedClaimHandles_free nothing]
      exact refl (r := From R row.id) s free nothing
  exact (stays s free (free.free known pending)).2.2

theorem failures (gate : ∀ id, Steps Detached (rec.evaluateOneGate id)) :
    GateFailureSteps Detached args rec := fun _ _ error known pending _ free =>
  failing walking (fun _ _ detached => detached) gate known pending
    (Walking.transitionHolderIfFullyResolved (holders gate) _) (acting _ _ _ _) error free free

theorem gate (args : RunArgs) (fuel : Nat) (id : Id) :
    Steps Detached ((knot args fuel).evaluateOneGate id) := by
  induction fuel generalizing id with
  | zero => exact steps_fail _
  | succ fuel ih => exact walking.evaluateOneGateBody (failures ih) id

end Detached

namespace Apart

theorem walking : Walking Apart := Detached.walking.mono fun _ _ => Detached.apart

theorem holders (gate : ∀ id, Steps Apart (rec.evaluateOneGate id)) :
    HolderSteps Apart args rec := by
  intro s holder _ _ _
  have moves := Detached.ne_pending_of_settled (.inr (isTerminal_holderVerdict s holder.id))
  have weaker : ∀ s s', Detached s s' → Apart s s' := fun _ _ => Detached.apart
  exact walking.settleHolder gate (steps_mono (Detached.updateState _ _ _ moves) weaker)
    (steps_mono (Detached.recordRunTreeChanged _ _ _ moves) weaker)
    (fun _ _ => steps_mono (Detached.logDelivery _) weaker) s

theorem gate (args : RunArgs) (fuel : Nat) (id : Id) :
    Steps Apart ((knot args fuel).evaluateOneGate id) :=
  steps_mono (Detached.gate args fuel id) fun _ _ => Detached.apart

end Apart

end Rimsky
