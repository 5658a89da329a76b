import Rimsky.Runtime.Acquire
import Rimsky.Runtime.LegalMoves
import Rimsky.Runtime.Settlements

/-!
# Attempts after a requeue

An error whose policy is to release and requeue abandons the claims of the attempt and deletes
their rows, so that the next attempt of the run starts with none. Rows of held claims and of
claims held along with another run stay behind.
-/

namespace Rimsky

open Transaction List Store

variable {s s' : Store} {runId : Id} {u : Unit}

structure Binds (s s' : Store) : Prop where
  handles : ∀ h' ∈ s'.claimHandles, ∃ h ∈ s.claimHandles, h.isHeld = h'.isHeld ∧
    ∀ runId, h'.nodeRunId = some runId → h.nodeRunId = some runId
  holders : ∀ x' ∈ s'.claimHolders, ∃ x ∈ s.claimHolders, x.holderRunId = x'.holderRunId
  ids : (s'.claimHandles.map (·.id)).Sublist (s.claimHandles.map (·.id))

namespace Binds

theorem of_same (handles : s'.claimHandles = s.claimHandles)
    (holders : s'.claimHolders = s.claimHolders) : Binds s s' := by
  refine ⟨fun h mem => ⟨h, handles ▸ mem, rfl, fun _ bound => bound⟩,
    fun x mem => ⟨x, holders ▸ mem, rfl⟩, ?_⟩
  rw [handles]

instance : IsPreorder Store Binds where
  refl s := of_same rfl rfl
  trans a b c first second := by
    refine ⟨fun h'' mem => ?_, fun x'' mem => ?_, second.ids.trans first.ids⟩
    · rcases second.handles h'' mem with ⟨h', mem, held, bound⟩
      rcases first.handles h' mem with ⟨h, mem, held', bound'⟩
      exact ⟨h, mem, held'.trans held, fun runId same => bound' runId (bound runId same)⟩
    · rcases second.holders x'' mem with ⟨x', mem, same⟩
      rcases first.holders x' mem with ⟨x, mem, same'⟩
      exact ⟨x, mem, same'.trans same⟩

theorem of_rows (kept : ClaimHandle → Bool) (change : ClaimHandle → ClaimHandle)
    (sameId : ∀ h, (change h).id = h.id) (sameHeld : ∀ h, (change h).isHeld = h.isHeld)
    (bound : ∀ h runId, (change h).nodeRunId = some runId → h.nodeRunId = some runId)
    (handles : s'.claimHandles = (s.claimHandles.filter kept).map change)
    (holders : ∀ x ∈ s'.claimHolders, x ∈ s.claimHolders) : Binds s s' := by
  rcases s' with ⟨⟩
  subst handles
  refine ⟨fun h' mem => ?_, fun x mem => ⟨x, holders x mem, rfl⟩, ?_⟩
  · rcases mem_map.mp mem with ⟨h, old, rfl⟩
    exact ⟨h, (mem_filter.mp old).1, (sameHeld h).symm, bound h⟩
  · simp only [map_map, Function.comp_def, sameId]
    exact filter_sublist.map _

theorem deleteRuns (s : Store) (ids : List Id) : Binds s (s.deleteRuns ids) := by
  refine of_rows (fun _ => true) (fun h =>
    if h.nodeRunId.any (s.deletionClosure ids s.runs.length).contains then
      { h with nodeRunId := none }
    else h) (fun h => ?_) (fun h => ?_) (fun h runId => ?_) ?_ fun x mem => (mem_filter.mp mem).1
  · split <;> rfl
  · split <;> rfl
  · split <;> simp
  · rw [filter_true]
    rfl

theorem blind : RunBlind Binds where
  tables _ _ _ _ _ _ := of_same rfl rfl
  close _ _ _ _ := of_same rfl rfl
  delete := deleteRuns
  signal _ _ := of_same rfl rfl

theorem footprint : Footprint Binds where
  toWalking := blind.walking
  queue _ _ _ _ := of_same rfl rfl
  handles _ kept change _ sameId sameHeld sameRun old :=
    of_rows kept change sameId sameHeld (fun h _ bound => (sameRun h).symm.trans bound) rfl old
  holders s change same := by
    refine ⟨fun h mem => ⟨h, mem, rfl, fun _ bound => bound⟩, fun x' mem => ?_, List.Sublist.refl _⟩
    rcases mem_map.mp mem with ⟨x, old, rfl⟩
    exact ⟨x, old, (same x).symm⟩

theorem knot (args : RunArgs) (fuel : Nat) : RecSteps Binds (knot args fuel) :=
  footprint.knot_of_blind blind fuel

end Binds

def Store.discarded (s : Store) (runId : Id) : List ClaimHandle :=
  (s.handlesByClaimedAt fun h => h.nodeRunId = some runId).filter fun row =>
    row.state = .abandoned && !row.isHeld

theorem Store.mem_discarded {h : ClaimHandle} :
    h ∈ s.discarded runId ↔
      h ∈ s.claimHandles ∧ h.nodeRunId = some runId ∧ h.state = .abandoned ∧ h.isHeld = false := by
  simp [discarded, handlesByClaimedAt, and_assoc]

def Remains (s s' : Store) : Prop :=
  ∀ h' ∈ s'.claimHandles, ∃ h ∈ s.claimHandles,
    h' = { h with parentClaimHandleId := h'.parentClaimHandleId }

section

variable (distinct : (s.claimHandles.map (·.id)).Nodup)

include distinct

theorem deleteResolved_ok {id : Id} (run : ClaimHandles.deleteResolved id s = (.ok u, s')) :
    Remains s s' ∧ (s'.claimHandles.map (·.id)).Nodup ∧ ∀ h ∈ s'.claimHandles, h.id ≠ id := by
  unfold ClaimHandles.deleteResolved at run
  rw [read_bind] at run
  split at run
  case isFalse => cases run
  case isTrue found =>
    cases run
    refine ⟨?_, distinct.sublist (Binds.footprint.deleteHandles _).ids, ?_⟩
    · intro h' mem
      rcases mem_map.mp mem with ⟨h, old, rfl⟩
      refine ⟨h, (mem_filter.mp old).1, ?_⟩
      split <;> rfl
    · intro h' mem same
      rcases mem_map.mp mem with ⟨h, old, rfl⟩
      have old := mem_filter.mp old
      have same : h.id = id := by
        split at same <;> exact same
      rcases any_eq_true.mp found with ⟨g, known, gone⟩
      have gId : g.id = id := by
        simp only [Bool.and_eq_true, decide_eq_true_eq] at gone
        exact gone.1.1
      have one : h = g := inj_on_of_nodup_map distinct old.1 known (same.trans gId.symm)
      have kept := old.2
      rw [one] at kept
      simp only [gone, Bool.not_true, Bool.false_eq_true] at kept

theorem deleteResolved_forM {rows : List ClaimHandle}
    (run : (rows.forM fun row => ClaimHandles.deleteResolved row.id) s = (.ok u, s')) :
    Remains s s' ∧ ∀ h ∈ s'.claimHandles, ∀ row ∈ rows, h.id ≠ row.id := by
  induction rows generalizing s with
  | nil =>
    cases run
    exact ⟨fun h mem => ⟨h, mem, rfl⟩, by simp⟩
  | cons row rows ih =>
    rcases bind_eq_ok.mp run with ⟨_, mid, first, rest⟩
    rcases deleteResolved_ok distinct first with ⟨remains, distinct', gone⟩
    rcases ih distinct' rest with ⟨remains', others⟩
    refine ⟨?_, ?_⟩
    · intro h'' mem
      rcases remains' h'' mem with ⟨h', mem, same'⟩
      rcases remains h' mem with ⟨h, mem, same⟩
      exact ⟨h, mem, same'.trans (by rw [same])⟩
    · intro h mem row' among
      rcases mem_cons.mp among with rfl | later
      · rcases remains' h mem with ⟨h', mem, same⟩
        have notGone := gone h' mem
        rwa [same]
      · exact others h mem row' later

theorem deleteAbandonedClaimHandles_ok (run : deleteAbandonedClaimHandles runId s = (.ok u, s')) :
    ∀ h ∈ s'.claimHandles, h.nodeRunId = some runId → h.state = .abandoned → h.isHeld := by
  have deleted : ((s.discarded runId).forM fun row => ClaimHandles.deleteResolved row.id) s =
      (.ok u, s') := run
  rcases deleteResolved_forM distinct deleted with ⟨remains, gone⟩
  intro h' mem bound abandoned
  by_contra unheld
  rcases remains h' mem with ⟨h, known, same⟩
  rw [same] at bound abandoned unheld
  refine gone h' mem h (mem_discarded.mpr ⟨known, bound, abandoned, by simpa using unheld⟩) ?_
  rw [same]

end

/-- The claims of the run are its own: none is held for others or held along with another run. -/
structure Store.HoldsAlone (s : Store) (runId : Id) : Prop where
  handles : ∀ h ∈ s.claimHandles, h.nodeRunId = some runId → h.isHeld = false
  holders : ∀ x ∈ s.claimHolders, x.holderRunId ≠ runId

theorem Store.HoldsAlone.binds (alone : s.HoldsAlone runId) (binds : Binds s s') :
    s'.HoldsAlone runId := by
  refine ⟨fun h' mem bound => ?_, fun x' mem same => ?_⟩
  · rcases binds.handles h' mem with ⟨h, known, held, from'⟩
    exact held.symm.trans (alone.handles h known (from' runId bound))
  · rcases binds.holders x' mem with ⟨x, known, same'⟩
    exact alone.holders x known (same'.trans same)

/-- The handle is abandoned in the portfolio of the run, or the run has failed as its holder. -/
def Store.LeftBehind (s : Store) (runId id : Id) : Prop :=
  (∃ h ∈ s.portfolio runId, h.id = id ∧ h.state = .abandoned) ∨
    ∃ x ∈ s.claimHolders, x.holderRunId = runId ∧ x.claimHandleId = id ∧ x.state = .failed

/-- An attempt of the run fails with an error whose policy is to release and requeue. -/
def Requeues (runId : Id) (s s' : Store) : Prop :=
  ∃ args fuel acq error onSettle settlement, acq.nodeRunId = runId ∧
    s.policyAction acq error = .releaseAndRequeue ∧
    applyErrorPolicyWithSettleHook args (knot args fuel) acq error onSettle s = (.ok settlement, s')

theorem applyErrorPolicyWithSettleHook_requeues {args : RunArgs} {rec : Rec} {acq : Acquisition}
    {error : PolicyError} {onSettle : Tx Unit} {settlement : Settlement}
    (action : s.policyAction acq error = .releaseAndRequeue)
    (run : applyErrorPolicyWithSettleHook args rec acq error onSettle s = (.ok settlement, s')) :
    ∃ decision mid, Binds s mid ∧
      policyReleaseAndRequeue args rec acq decision mid = (.ok settlement, s') := by
  rcases bind_eq_ok.mp run with ⟨_, s1, scratched, run⟩
  have binds : Binds s s1 := (Binds.footprint.applyTerminalScratch _).run scratched
  have retries : s1.retries acq.nodeRunId = s.retries acq.nodeRunId :=
    (applyTerminalScratch_retries acq error.scratch acq.nodeRunId).run scratched
  have counted : Nodes.getRunEvaluatorState acq.nodeRunId s1 =
      (.ok (s1.retries acq.nodeRunId), s1) :=
    rfl
  rw [bind_of_ok counted, retries] at run
  unfold policyAction at action
  generalize evaluatePolicy (lookupPolicyForNode acq.nodeDef error.errorClass error.fallbackClass)
    (s.retries acq.nodeRunId) acq.maxRetries = decided at action run
  rcases decided with ⟨kind, counter⟩
  subst action
  rcases bind_eq_ok.mp run with ⟨_, s2, stored, run⟩
  have binds' : Binds s1 s2 := (Binds.footprint.updateRunEvaluatorState _ _).run stored
  exact ⟨_, s2, IsTrans.trans _ _ _ binds binds', run⟩

theorem Requeues.leaves_nothing (requeued : Requeues runId s s')
    (distinct : (s.claimHandles.map (·.id)).Nodup) (alone : s.HoldsAlone runId) (id : Id) :
    ¬ s'.LeftBehind runId id := by
  rcases requeued with ⟨args, fuel, acq, error, onSettle, settlement, rfl, action, run⟩
  rcases applyErrorPolicyWithSettleHook_requeues action run with ⟨decision, s1, binds1, run⟩
  rcases bind_eq_ok.mp run with ⟨_, s2, told, run⟩
  rcases bind_eq_ok.mp run with ⟨_, s3, released, run⟩
  rcases bind_eq_ok.mp run with ⟨_, s4, deleted, run⟩
  cases run
  have nested := Binds.knot args fuel
  have binds2 : Binds s1 s2 := (Binds.footprint.emitSignalOnce nested.gate
    (fun _ _ => Binds.blind.logDelivery _) _).run told
  have binds3 : Binds s2 s3 :=
    (Binds.footprint.releaseLocks nested (Binds.blind.holders nested) _ _).run released
  have binds4 : Binds s3 s' := (Binds.footprint.deleteAbandonedClaimHandles _).run deleted
  have upTo : Binds s s3 :=
    IsTrans.trans _ _ _ binds1 (IsTrans.trans _ _ _ binds2 binds3)
  have alone' := alone.binds (IsTrans.trans _ _ _ upTo binds4)
  have cleared := deleteAbandonedClaimHandles_ok (distinct.sublist upTo.ids) deleted
  have coHeld : ∀ fits, s'.coHeld acq.nodeRunId fits = [] := by
    intro fits
    have none : (s'.claimHolders.filter fun x => x.holderRunId = acq.nodeRunId && fits x) = [] := by
      refine filter_eq_nil_iff.mpr fun x mem => ?_
      simp [alone'.holders x mem]
    rw [coHeld, none, filterMap_nil]
  rintro (⟨h, mem, -, abandoned⟩ | ⟨x, mem, same, -⟩)
  · rw [portfolio, coHeld, append_nil] at mem
    rcases mem_filter.mp mem with ⟨known, bound⟩
    have bound : h.nodeRunId = some acq.nodeRunId := by simpa using bound
    have held := cleared h known bound abandoned
    rw [alone'.handles h known bound] at held
    cases held
  · exact alone'.holders x mem same

/--
The attempts of a run so far, with the handles that the failed ones have left behind. Between
two attempts the store may change in any way: other runs go on, and this one is dispatched again.
-/
inductive Attempts (condition : Store → Prop) (runId : Id) : Set Id → Store → Prop where
  | first (s : Store) : Attempts condition runId ∅ s
  | goesOn {left : Set Id} {s : Store} (before : Attempts condition runId left s) (s' : Store) :
      Attempts condition runId left s'
  | fails {left : Set Id} {s s' : Store} (before : Attempts condition runId left s)
      (distinct : (s.claimHandles.map (·.id)).Nodup) (meets : condition s)
      (requeued : Requeues runId s s') :
      Attempts condition runId (left ∪ {id | s'.LeftBehind runId id}) s'

theorem Attempts.left_empty {left : Set Id}
    (attempts : Attempts (·.HoldsAlone runId) runId left s) : left = ∅ := by
  induction attempts with
  | first s => rfl
  | goesOn _ _ ih => exact ih
  | fails _ distinct alone requeued ih =>
    rw [ih, Set.empty_union]
    exact Set.eq_empty_of_forall_notMem (requeued.leaves_nothing distinct alone)

/-! ## How the last attempt ends -/

section Settle

variable {args : RunArgs} {rec : Rec} {fuel : Nat} {acq : Acquisition} {t : TerminalEvent}

theorem Store.AllCommitted.trimmed (committed : s.AllCommitted runId) (trimmed : Trimmed s s') :
    s'.AllCommitted runId := by
  rcases trimmed with ⟨gone, -, handles, holders⟩
  intro h' mem
  rcases mem_append.mp mem with own | along
  · rcases mem_filter.mp own with ⟨known, bound⟩
    rw [handles] at known
    rcases mem_map.mp known with ⟨h, old, rfl⟩
    rw [ClaimHandle.unbound_state]
    refine committed h (mem_append_left _ (mem_filter.mpr ⟨old, ?_⟩))
    simpa using h.bound_of_unbound (by simpa using bound)
  · rcases mem_filterMap.mp along with ⟨x, mem, found⟩
    rw [holders, filter_filter] at mem
    rcases mem_filter.mp mem with ⟨old, fits⟩
    rw [claimHandle?, handles, find?_key_map (fun h => h.unbound_id gone)] at found
    rcases Option.map_eq_some_iff.mp found with ⟨h, known, rfl⟩
    rw [ClaimHandle.unbound_state]
    refine committed h (mem_append_right _ (mem_filterMap.mpr ⟨x, mem_filter.mpr ⟨old, ?_⟩, known⟩))
    simpa using (by simpa using fits : _ ∧ _).1

theorem firm_fresh : Firm (· = .fresh) := by
  rintro _ rfl
  exact ⟨nofun, nofun, nofun⟩

/-- As long as no claim is bound to a pending run, a held run stays held. -/
structure StaysHeld (runId : Id) (s s' : Store) : Prop where
  claims : Detached s s'
  held : s.PendingFree → s.isIn (· = .held) runId → s'.isIn (· = .held) runId

namespace StaysHeld

instance : IsPreorder Store (StaysHeld runId) where
  refl s := ⟨refl s, fun _ held => held⟩
  trans a b c first second := by
    refine ⟨IsTrans.trans _ _ _ first.claims second.claims, fun free held => ?_⟩
    exact second.held (first.claims free).1 (first.held free held)

theorem both (s s' : Store) (claims : Detached s s') (stays : StaysIn (· = .held) runId s s') :
    StaysHeld runId s s' := ⟨claims, fun _ => stays⟩

theorem walking : Walking (StaysHeld runId) := by
  have stays : Footprint (StaysIn (· = .held) runId) :=
    (Stays.footprint (by rintro _ rfl; exact ⟨nofun, nofun⟩)).mono fun _ _ => StaysIn.of_stays
  exact Detached.walking.meet stays.toWalking both

theorem acting (supervisorId : String) {nodeRunId : Id} (nodeId runScopeId : Id)
    (other : nodeRunId ≠ runId) :
    Acting (StaysHeld runId) supervisorId nodeRunId nodeId runScopeId := by
  have claims := Detached.acting supervisorId nodeRunId nodeId runScopeId
  have stays : Acting (StaysIn (· = .held) runId) supervisorId nodeRunId nodeId runScopeId :=
    StaysIn.acting _ _ _ other
  exact {
    settle := fun state reason sig settled s =>
      both _ _ (claims.settle state reason sig settled s) (stays.settle state reason sig settled s)
    record := fun state sig changed terminal s =>
      both _ _ (claims.record state sig changed terminal s)
        (stays.record state sig changed terminal s)
    signal := fun sig receiverId s =>
      both _ _ (claims.signal sig receiverId s) (stays.signal sig receiverId s)
    release := fun s => both _ _ (claims.release s) (stays.release s) }

theorem failures (gate : ∀ id, Steps (StaysHeld runId) (rec.evaluateOneGate id)) :
    GateFailureSteps (StaysHeld runId) args rec := by
  intro s row error known pending _
  refine ⟨Detached.failures (fun id => steps_mono (gate id) fun _ _ stays =>
    stays.claims) s row error known pending ‹_›, fun free held => ?_⟩
  have other : row.id ≠ runId := by
    intro same
    have state := held.2 row (mem_of_run? known).1 same
    rw [pending] at state
    cases state
  have holder : Steps (StaysHeld runId) (transitionHolderIfFullyResolved args rec row.id) := by
    refine Walking.transitionHolder_steps _ fun s holder found _ _ => ?_
    have same := (mem_of_run? found).2
    have act := acting "" holder.nodeId holder.runScopeId (same ▸ other)
    have terminal := isTerminal_holderVerdict s row.id
    exact walking.settleHolder gate (act.settle _ _ _ (.inr terminal)) (act.record _ _ _ terminal)
      act.signal s
  exact (Detached.failing walking (fun _ _ stays => stays.claims) gate known pending holder
    (acting _ _ _ other) error free).held free held

theorem gate (args : RunArgs) (fuel : Nat) (id : Id) :
    Steps (StaysHeld runId) ((knot args fuel).evaluateOneGate id) := by
  induction fuel generalizing id with
  | zero => exact steps_fail _
  | succ fuel ih => exact walking.evaluateOneGateBody (failures ih) id

end StaysHeld

theorem announceHeld_cases {u : Unit} (run : announceHeld args rec acq t s = (.ok u, s')) :
    ∃ moved, Nodes.updateState acq.nodeRunId .held .handlerHeld (some "terminal/success") s =
        (.ok (), moved) ∧
      ∀ (R : Store → Store → Prop) [IsPreorder Store R], Walking R →
        (∀ id, Steps R (rec.evaluateOneGate id)) → (∀ d, Steps R (logDelivery d)) →
        Steps R (Queue.removeForNode acq.nodeId acq.runScopeId args.supervisorId) → R moved s' := by
  rcases bind_eq_ok.mp run with ⟨_, moved, move, run⟩
  refine ⟨moved, move, fun R _ walk gate signal release => ?_⟩
  refine Steps.run (steps_bind release fun _ => ?_) run
  have emits : Emits (fun {_} m => Steps R m) args rec acq.sender :=
    walk.emits gate fun _ _ => signal _
  exact emits.announces (steps_composes R StoreError.Plain) _ _
    (walk.drainWaitSetOnSettled gate _ _)

/-- A held run whose claims are all committed is moved to fresh. -/
theorem Store.AllCommitted.transition_fresh (committed : s.AllCommitted runId) (isRun : runId ≠ 0)
    (leaf : s.NoneBelow runId) (held : s.isIn (· = .held) runId) {post : List PostCommit}
    (run : transitionHolderIfFullyResolved args (knot args fuel) runId s = (.ok post, s')) :
    s'.isIn (· = .fresh) runId := by
  cases found : s.run? runId with
  | none =>
    simp only [transitionHolderIfFullyResolved, read_bind, id_eq, found] at run
    cases run
    exact ⟨held.1, fun row mem same => absurd same (by simpa using find?_eq_none.mp found row mem)⟩
  | some holder =>
    rcases mem_of_run? found with ⟨mem, same⟩
    have state := held.2 holder mem same
    rw [committed.transition isRun found state leaf.children] at run
    subst same
    rcases settleHolder_eq_ok found state run with ⟨moved, updated, announced⟩
    exact (StaysIn.announceHolder firm_fresh (StaysIn.knot firm_fresh args fuel).gate rfl _).run
      announced (isIn_updateState held.1 rfl updated)

end Settle

/-- Wherever its success is settled, the run ends fresh: at once, held first, or held already. -/
structure Store.SettlesFresh (s : Store) (runId : Id) : Prop where
  completes : ∀ args fuel acq t heldBefore before settlement s', acq.nodeRunId = runId →
    completeSettle args (knot args fuel) acq t heldBefore before s = (.ok settlement, s') →
      s'.isIn (· = .fresh) runId
  resolves : ∀ args fuel post s', s.isIn (· = .held) runId →
    transitionHolderIfFullyResolved args (knot args fuel) runId s = (.ok post, s') →
      s'.isIn (· = .fresh) runId

theorem Store.AllCommitted.settlesFresh (committed : s.AllCommitted runId) (isRun : runId ≠ 0)
    (known : runId < s.nextId) (leaf : s.NoneBelow runId) (free : s.PendingFree) :
    s.SettlesFresh runId := by
  refine ⟨?_, fun args fuel post s' held run => committed.transition_fresh isRun leaf held run⟩
  rintro args fuel acq t heldBefore before settlement s' rfl run
  cases heldBefore with
  | true =>
    rcases bind_eq_ok.mp run with ⟨_, told, announce, run⟩
    rcases bind_eq_ok.mp run with ⟨_, last, transition, run⟩
    cases run
    rcases announceHeld_cases announce with ⟨moved, move, tells⟩
    have blind := ScopesStay.blind.runBlind
    have scopes : ScopesStay s told := IsTrans.trans _ _ _ ((blind.updateState _ _ _ _).run move)
      (tells ScopesStay blind.walking (ScopesStay.blind.knot args fuel).gate blind.logDelivery
        (blind.removeForNode _ _ _))
    have moves := (Detached.updateState _ _ _ (by simp)).run move
    have stays : StaysHeld acq.nodeRunId moved told := by
      refine tells _ StaysHeld.walking (StaysHeld.gate args fuel) (fun _ s => ?_) fun s => ?_
      · exact StaysHeld.both _ _ (Detached.logDelivery _ s) (StaysIn.logDelivery _ s)
      · exact StaysHeld.both _ _ ((Detached.acting _ acq.nodeRunId _ _).release s)
          (StaysIn.removeForNode _ _ _ s)
    rcases (IsTrans.trans _ _ _ moves stays.claims : Detached s told) free with ⟨-, gone, culled⟩
    exact (committed.trimmed culled.trimmed).transition_fresh isRun (scopes.noneBelow leaf)
      (stays.held (moves free).1 (isIn_updateState known rfl move)) transition
  | false =>
    unfold completeSettle at run
    rw [if_neg Bool.false_ne_true, read_bind, committed.poisoned] at run
    rcases bind_eq_ok.mp run with ⟨visited, told, tell, run⟩
    rcases bind_eq_ok.mp tell with ⟨_, moved, move, tell⟩
    have fp : Footprint (StaysIn (· = .fresh) acq.nodeRunId) := StaysIn.footprint firm_fresh
    have gate := (StaysIn.knot firm_fresh args fuel : RecSteps (StaysIn _ acq.nodeRunId) _).gate
    have tells : StaysIn (· = .fresh) acq.nodeRunId moved told := by
      refine Steps.run (steps_bind ?_ fun _ => steps_bind (StaysIn.removeForNode _ _ _) fun _ =>
        fp.emitSignalWithFilter gate (fun _ _ => StaysIn.logDelivery _) _ _ _) tell
      exact @StaysIn.recordRunTreeChanged _ (· = .fresh) _ _ rfl _ _
    have rest : StaysIn (· = .fresh) acq.nodeRunId told s' :=
      Steps.run (steps_bind (fp.emitAttributeChangesForRun gate
        (fun _ _ => StaysIn.logDelivery _) _ _) fun _ =>
          steps_bind (fp.drainWaitSetOnSettled gate _ _) fun _ => steps_pure _) run
    exact rest (tells (isIn_updateState known rfl move))

namespace Ledger

def writer : TemplateNodeDef where
  type := "writer"
  executor := "worker"
  claimProducers := [{ name := "vault", «alias» := "ledger" }]
  errorTypes := [("conflict", { action := .releaseAndRequeue })]

def reader : TemplateNodeDef where
  type := "reader"
  executor := "worker"
  holds := [("ledger", { «from» := "writer" })]
  subscribes := [{ node := "writer", type := "terminal/success" }]

def spec : TemplateSpec where
  nodes := [writer, reader]

def args : RunArgs := RunArgs.plain "sup"

def handle (id : Id) (isHeld : Bool) : ClaimHandle :=
  { vaultHandle "sup" with id, isHeld, nodeRunId := some 1 }

def acquisition (handleId : Id) (spec : TemplateSpec) : Acquisition :=
  { vaultAcquisition with
    nodeDef := some writer, heldSubgraphs := holdingSubgraphsForTemplate spec
    locks :=
      [{ claimHandleId := handleId, spec := .claim "vault" "ledger", producer := some "vault" }] }

def runOf (id nodeId : Id) : NodeRun where
  id := id
  nodeId := nodeId
  enqueuedAt := 0
  state := .running
  creationReason := .cascade
  sequence := 1
  frameId := 1
  runScopeId := 1

def store (spec : TemplateSpec) (claimHandles : List ClaimHandle)
    (claimHolders : List ClaimHolder) :
    Store where
  instances := [{ id := 1, template := spec }]
  nodes := [{ id := 1, instanceId := 1, nodeType := "writer" },
    { id := 2, instanceId := 1, nodeType := "reader" }]
  runScopes := [{ id := 1, graphName := "main", instanceId := 1 }]
  runs := [runOf 1 1]
  claimHandles := claimHandles
  claimHolders := claimHolders
  nextId := 20

def requeue (s : Store) (spec : TemplateSpec) : Store :=
  (applyErrorPolicy args (knot args 4) (acquisition 7 spec) { errorClass := "conflict" } s).2

theorem requeues_of_isOk {spec : TemplateSpec}
    (action : s.policyAction (acquisition 7 spec) { errorClass := "conflict" } = .releaseAndRequeue)
    (ok : (applyErrorPolicy args (knot args 4) (acquisition 7 spec)
      { errorClass := "conflict" } s).1.isOk) :
    Requeues 1 s (requeue s spec) := by
  rcases exists_ok_of_isOk ok with ⟨settlement, run⟩
  exact ⟨args, 4, _, _, _, settlement, rfl, action, run⟩

def again (s : Store) : Store :=
  { s with
    runs := s.runs ++ [runOf 5 2], claimHandles := s.claimHandles ++ [handle 12 true]
    claimHolders := s.claimHolders ++ [
      { id := 13, claimHandleId := 12, holderRunId := 1 },
        { id := 14, claimHandleId := 12, holderRunId := 5 }] }

def succeed (s : Store) : Store :=
  let held := (applyTerminalComplete args (knot args 4) (acquisition 12 spec)
    [] none { kind := .complete } s).2
  (releaseInherited args (knot args 4) 12 5 true held).2

def stale : NodeRun := { runOf 1 1 with state := .stale }

/-- The next attempt: the writer is dispatched again, opens a ledger of its own and commits it. -/
def retry : Tx Acquisition := do
  let opens : AcquireInput := {
    producers := { openClaim := fun _ _ => .available {} "" }
    specs := .ok [.claim { producerName := "vault", claimAlias := "ledger" }] }
  match ← tryAcquire args opens stale with
  | .error refused => return refused.acq
  | .ok acq =>
    Nodes.updateState 1 .running .dispatchClaimed none
    let _ ← releaseLocks args (knot args 4) acq true
    return acq

end Ledger

end Rimsky
