import Rimsky.Runtime.RunChanges

/-!
# Gates change runs in few ways

A gate that is evaluated leaves the store alone, lets its run pass, prunes runs by the rule of
the cascade mode, or routes a missing source through the error policy. The policy settles the
run in one go, since a run that was pending has nothing to release, or keeps it. Whatever nests
below a gate or a settlement changes runs in the listed ways only.
-/

namespace Rimsky

open Transaction List NodeRun Nodes Walking NodeState Store

variable {row : NodeRun} {s s' : Store} {runId : Id} {acq : Acquisition} {args : RunArgs}
  {turn : Turn}

theorem setDispatchInputBag_isSome (runId nodeId : Id) (bag : Bag) (s : Store) :
    ((NodeAttributes.setDispatchInputBag runId nodeId bag s).2.dispatchInputBag? runId).isSome := by
  simp only [NodeAttributes.setDispatchInputBag, write_apply]
  rw [dispatchInputBag?_upsertAttributes]
  · simp only [if_true]
    split <;> rfl
  · intro a
    rfl

theorem transitionPendingToStale_store (runId : Id) (enqueuedAt : Nat) (s : Store) :
    (Nodes.transitionPendingToStale runId enqueuedAt s).2 = s ∨
      (Nodes.transitionPendingToStale runId enqueuedAt s).2 =
        { s with runs := s.runs.map (NodeRun.passed runId enqueuedAt) } := by
  have ends : ∀ n, Steps Eq (if n = 0 then
      (fail (.other "TransitionPendingToStale: run not in pending state") : Tx Unit) else
        pure ()) :=
    fun _ => steps_check fun _ => steps_pure _
  have moved := updateRuns_store (fun _ r => r.id = runId && r.state = .pending)
    (fun _ r => { r with state := .stale, enqueuedAt }) s
  unfold transitionPendingToStale
  rw [bind_apply]
  split
  case h_1 n s' run =>
    rw [← ends n s']
    rwa [run] at moved
  case h_2 e s' run => rwa [run] at moved

namespace Tidy

variable {args : RunArgs}

/-- A gate is cleared where no sibling is past its own, and after the bag is stored. -/
theorem clearGate {t : Store} (known : row.id < t.nextId)
    (alone : ∀ r ∈ t.runs, r.sameNodeAndScope row → r.id ≠ row.id → r.state.isAdvanced = false)
    (self : ∀ r ∈ t.runs, r.id = row.id → r.nodeId = row.nodeId ∧ r.runScopeId = row.runScopeId)
    (inTurn : ∀ r ∈ t.runs, r.id = row.id → turn.holds t r) (resolved : Bag) :
    Tidy turn args t (clearGate row resolved t).2 := by
  intro sound
  rcases t.upsertAttributes_eq
    { nodeRunId := row.id, nodeId := row.nodeId, data := resolved, updatedAt := t.clock }
    (fun a => { a with data := resolved, updatedAt := t.clock }) with ⟨bags, stored⟩
  rcases upsertAttributes_eq { t with attributes := bags }
    { nodeRunId := row.id, nodeId := row.nodeId, dispatchInputBag := some resolved
      updatedAt := t.clock }
    (fun a => { a with dispatchInputBag := some resolved, updatedAt := t.clock })
    with ⟨bags', stored'⟩
  have calm : Calm t { t with attributes := bags' } := by
    have first := upsert row.nodeId resolved known
    have second := setDispatchInputBag (s := { t with attributes := bags }) row.nodeId
      resolved known
    simp only [NodeAttributes.upsert, write_apply, stored] at first
    simp only [NodeAttributes.setDispatchInputBag, write_apply, stored'] at second
    exact first.trans second
  have bag : (({ t with attributes := bags' } : Store).dispatchInputBag? row.id).isSome := by
    have set := setDispatchInputBag_isSome row.id row.nodeId resolved { t with attributes := bags }
    simp only [NodeAttributes.setDispatchInputBag, write_apply, stored'] at set
    exact set
  have runs : Rimsky.clearGate row resolved t =
      transitionPendingToStale row.id t.clock { t with attributes := bags' } := by
    simp only [Rimsky.clearGate, NodeAttributes.upsert, NodeAttributes.setDispatchInputBag,
      write_bind, stored, stored', read_bind]
  rw [runs]
  rcases transitionPendingToStale_store row.id t.clock { t with attributes := bags' } with
    same | passed
  · rw [same]
    exact .single (.calm calm)
  · rw [passed]
    by_cases waits : ∃ r ∈ t.runs, r.id = row.id ∧ r.state = .pending
    · rcases waits with ⟨r, mem, same, pending⟩
      refine .single (.clears r ?_ (inTurn r mem same))
      refine ⟨⟨⟨rfl, rfl, calm.bags, calm.attributes, rfl, rfl, rfl⟩, sound.run?_of_mem mem,
        pending, rfl, t.clock, by rw [same]⟩, ?_, same ▸ bag⟩
      intro q here sameScope other
      refine alone q here ?_ (same ▸ other)
      rw [NodeRun.sameNodeAndScope_iff] at sameScope ⊢
      rwa [(self r mem same).1, (self r mem same).2] at sameScope
    · have unmoved : t.runs.map (NodeRun.passed row.id t.clock) = t.runs := by
        refine (map_congr_left fun r mem => ?_).trans (map_id _)
        refine if_neg fun both => waits ⟨r, mem, ?_⟩
        simpa using both
      rw [unmoved]
      exact .single (.calm calm)

end Tidy

theorem dropPendingRun_of_pending (known : s.run? row.id = some row)
    (pending : row.state = .pending) :
    Nodes.dropPendingRun row.id s = (.ok (), s.deleteRuns [row.id]) := by
  simp [dropPendingRun, known, pending]

theorem passUnlessAdvanced_cases (row : NodeRun) (resolved : Bag) (t : Store) :
    ((Nodes.hasAdvancedSiblingInScope row.nodeId row.runScopeId row.id >>= fun advanced =>
        if advanced then pure () else clearGate row resolved) t).2 = t ∨
      (∀ r ∈ t.runs, r.sameNodeAndScope row → r.id ≠ row.id → r.state.isAdvanced = false) ∧
        ((Nodes.hasAdvancedSiblingInScope row.nodeId row.runScopeId row.id >>= fun advanced =>
          if advanced then pure () else clearGate row resolved) t).2 =
            (clearGate row resolved t).2 := by
  rw [hasAdvancedSiblingInScope, read_bind]
  split
  case isTrue => exact .inl rfl
  case isFalse alone =>
    refine .inr ⟨fun r mem same other => ?_, rfl⟩
    by_contra advanced
    rw [sameNodeAndScope_iff] at same
    have advanced := (isAdvanced_iff r.state).mp (by simpa using advanced)
    refine alone (any_eq_true.mpr ⟨r, mem, ?_⟩)
    simp only [same.1, same.2, other, advanced, ne_eq, decide_true, not_false_iff, Bool.and_true]

/-- The mode's rule drops the run, prunes earlier ones, or leaves all as they are. -/
theorem applyCascadeModeRule_cases (args : RunArgs) (known : s.run? row.id = some row)
    (pending : row.state = .pending) (resolved : Bag) :
    (∃ e, applyCascadeModeRule args row resolved (s.cascadeModeOf row) s = (.error e, s)) ∨
      applyCascadeModeRule args row resolved (s.cascadeModeOf row) s = (.ok true, s) ∧
        Prunes s (s.deleteRuns [row.id]) ∨
      ∃ mid, applyCascadeModeRule args row resolved (s.cascadeModeOf row) s = (.ok false, mid) ∧
        (mid = s ∨ Prunes s mid) := by
  have compared : ∀ includeSettled, ∃ result,
      modeDropIfPriorEqual args row resolved includeSettled s = (result, s) :=
    fun includeSettled => ⟨_, Prod.ext rfl
      (readOnly_modeDropIfPriorEqual args row resolved includeSettled s).symm⟩
  cases mode : s.cascadeModeOf row with
  | sequenced => exact .inr (.inr ⟨s, rfl, .inl rfl⟩)
  | idempotentQueue =>
    rcases compared false with ⟨e | ⟨_ | _⟩, compared⟩
    · exact .inl ⟨e, compared⟩
    · exact .inr (.inr ⟨s, compared, .inl rfl⟩)
    · exact .inr (.inl ⟨compared, .duplicate row known pending (.inl mode)⟩)
  | idempotentSettled =>
    rcases compared true with ⟨e | ⟨_ | _⟩, compared⟩
    · exact .inl ⟨e, compared⟩
    · exact .inr (.inr ⟨s, compared, .inl rfl⟩)
    · exact .inr (.inl ⟨compared, .duplicate row known pending (.inr mode)⟩)
  | mostRecent =>
    right
    simp only [applyCascadeModeRule, hasLaterCascadePending, read_bind]
    split
    case isTrue later =>
      rcases any_eq_true.mp later with ⟨q, here, fits⟩
      simp only [Bool.and_eq_true, Bool.or_eq_true, decide_eq_true_eq,
        Option.isNone_iff_eq_none] at fits
      rcases fits with ⟨⟨⟨⟨⟨node, scope⟩, after⟩, state⟩, cascade⟩, unclaimed⟩
      exact .inl ⟨rfl, .superseded row q known pending mode
        ⟨here, node, scope, after, state, cascade, unclaimed⟩⟩
    case isFalse => exact .inr ⟨_, rfl, .inr (.prior row known pending mode)⟩

/--
The rule of the cascade mode may prune runs; then the gate clears if no other run is past its own.
-/
theorem passGate_cases (args : RunArgs) (known : s.run? row.id = some row)
    (pending : row.state = .pending) (resolved : Bag) :
    ∃ mid, (mid = s ∨ Prunes s mid) ∧ ((passGate args row resolved s).2 = mid ∨
      (∀ r ∈ mid.runs, r.sameNodeAndScope row → r.id ≠ row.id → r.state.isAdvanced = false) ∧
        (passGate args row resolved s).2 = (clearGate row resolved mid).2) := by
  unfold passGate
  rw [read_bind]
  have rule := applyCascadeModeRule_cases args known pending resolved
  unfold cascadeModeOf at rule
  rcases rule with ⟨e, failed⟩ | ⟨drops, prunes⟩ | ⟨mid, goesOn, pruned⟩
  · rw [bind_of_error failed]
    exact ⟨s, .inl rfl, .inl rfl⟩
  · rw [bind_of_ok drops, if_pos rfl, dropPendingRun_of_pending known pending]
    exact ⟨_, .inr prunes, .inl rfl⟩
  · rw [bind_of_ok goesOn, if_neg (by simp)]
    exact ⟨mid, pruned, passUnlessAdvanced_cases row resolved mid⟩

theorem Prunes.back (prunes : Prunes s s') :
    s'.nextId = s.nextId ∧ ∀ r' ∈ s'.runs, ∃ r ∈ s.runs, r'.core = r.core := by
  have back : ∀ ids, ∀ r' ∈ (s.deleteRuns ids).runs, ∃ r ∈ s.runs, r'.core = r.core := by
    intro ids r' mem
    rcases mem_deleteRuns mem with ⟨r, old, core, -⟩
    exact ⟨r, old, core⟩
  cases prunes <;> exact ⟨rfl, back _⟩

namespace Tidy

variable {args : RunArgs}

theorem passGate (known : s.run? row.id = some row) (pending : row.state = .pending)
    (inTurn : turn.holds s row) (resolved : Bag) :
    Tidy turn args s (passGate args row resolved s).2 := by
  intro sound
  have mem : row ∈ s.runs := mem_of_find?_eq_some known
  have self : ∀ r ∈ s.runs, r.id = row.id → r.nodeId = row.nodeId ∧
      r.runScopeId = row.runScopeId := by
    intro r here same
    rw [sound.eq_of_id here known same]
    exact ⟨rfl, rfl⟩
  rcases passGate_cases args known pending resolved with ⟨mid, rfl | prunes, ends⟩
  · rcases ends with stays | ⟨alone, clears⟩
    · rw [stays]
      exact .refl
    · rw [clears]
      refine clearGate (sound.known row mem) alone self (fun r here same => ?_) resolved sound
      exact sound.eq_of_id here known same ▸ inTurn
  · have pruned : RunChange turn args s mid := .prunes prunes
    rcases prunes.back with ⟨nextId, back⟩
    rcases ends with stays | ⟨alone, clears⟩
    · rw [stays]
      exact .single pruned
    · rw [clears]
      have isRow : ∀ r' ∈ mid.runs, r'.id = row.id → r'.core = row.core := by
        intro r' left same
        rcases back r' left with ⟨r, old, core⟩
        have id : r'.id = r.id := congrArg (·.id) core
        exact sound.eq_of_id old known (id.symm.trans same) ▸ core
      refine .head pruned (clearGate (nextId ▸ sound.known row mem) alone (fun r' left same => ?_)
        (fun r' left same => ?_) resolved (pruned.sound sound))
      · have core := isRow r' left same
        exact ⟨congrArg (·.nodeId) core, congrArg (·.runScopeId) core⟩
      · exact turn.pruned inTurn prunes r' left (isRow r' left same)

end Tidy

def NodeRun.setOn (runId : Id) (change : NodeRun → NodeRun) (r : NodeRun) : NodeRun :=
  if r.id = runId then change r else r

theorem NodeRun.setOn_id (change : NodeRun → NodeRun) (same : ∀ r, (change r).id = r.id)
    (runId : Id) (r : NodeRun) : (r.setOn runId change).id = r.id := by
  unfold setOn
  split
  · exact same r
  · rfl

theorem NodeRun.setOn_setOn (change : NodeRun → NodeRun) (same : ∀ r, (change r).id = r.id)
    (change' : NodeRun → NodeRun) (runId : Id) (r : NodeRun) :
    (r.setOn runId change).setOn runId change' = r.setOn runId fun r => change' (change r) := by
  unfold setOn
  by_cases here : r.id = runId
  · simp [here, same]
  · simp [here]

theorem uniqueRuns_map {runs : List NodeRun} {f : NodeRun → NodeRun}
    (origin : ∀ r ∈ runs, (f r).origin = r.origin)
    (ack : ∀ r ∈ runs, (f r).asyncAckId = r.asyncAckId)
    (gate : ∀ r ∈ runs, (f r).inSerializationGate = r.inSerializationGate) :
    uniqueRuns (runs.map f) = uniqueRuns runs := by
  have same : ∀ r ∈ runs, ∀ r' ∈ runs, (f r).conflicts (f r') = r.conflicts r' := by
    intro r mem r' mem'
    have id : (f r).id = r.id := congrArg (·.id) (origin r mem)
    have id' : (f r').id = r'.id := congrArg (·.id) (origin r' mem')
    have node : (f r).nodeId = r.nodeId := congrArg (·.nodeId) (origin r mem)
    have node' : (f r').nodeId = r'.nodeId := congrArg (·.nodeId) (origin r' mem')
    have scope : (f r).runScopeId = r.runScopeId := congrArg (·.runScopeId) (origin r mem)
    have scope' : (f r').runScopeId = r'.runScopeId := congrArg (·.runScopeId) (origin r' mem')
    simp only [conflicts, sameNodeAndScope, id, id', node, node', scope, scope',
      ack r mem, ack r' mem', gate r mem, gate r' mem']
  rw [Bool.eq_iff_iff]
  simp only [uniqueRuns, all_eq_true, mem_map, forall_exists_index, and_imp,
    forall_apply_eq_imp_iff₂]
  constructor
  · intro unique r mem r' mem'
    rw [← same r mem r' mem']
    exact unique r mem r' mem'
  · intro unique r mem r' mem'
    rw [same r mem r' mem']
    exact unique r mem r' mem'

theorem uniqueRuns_setOn {runs : List NodeRun} (change : NodeRun → NodeRun)
    (origin : ∀ r, (change r).origin = r.origin) (ack : ∀ r, (change r).asyncAckId = r.asyncAckId)
    (gate : ∀ r ∈ runs, r.id = runId → (change r).inSerializationGate = r.inSerializationGate) :
    uniqueRuns (runs.map (NodeRun.setOn runId change)) = uniqueRuns runs := by
  refine uniqueRuns_map ?_ ?_ ?_
  all_goals
    intro r mem
    unfold setOn
    split
  · exact origin r
  · rfl
  · exact ack r
  · rfl
  · rename_i same
    exact gate r mem same
  · rfl

theorem updateRow_ok {change : NodeRun → NodeRun} (mem : row ∈ s.runs) (same : row.id = runId)
    (unique : uniqueRuns (s.runs.map (NodeRun.setOn runId change))) :
    ∃ n, n ≠ 0 ∧ updateRuns (fun _ r => r.id = runId) (fun _ => change) s =
      (.ok n, { s with runs := s.runs.map (NodeRun.setOn runId change) }) := by
  have runs : s.updatedRuns (fun _ r => r.id = runId) (fun _ => change) =
      s.runs.map (setOn runId change) := by
    simp only [updatedRuns, decide_eq_true_eq]
    rfl
  refine ⟨_, ?_, by rw [updateRuns_eq, runs, if_pos unique]⟩
  intro none
  have absent := filter_eq_nil_iff.mp (eq_nil_of_length_eq_zero none) row mem
  simp [same] at absent

theorem updateRunEvaluatorState_ok (counter : Nat) (mem : row ∈ s.runs) (same : row.id = runId)
    (unique : uniqueRuns s.runs) :
    Nodes.updateRunEvaluatorState runId counter s =
      (.ok (), { s with
        runs := s.runs.map (NodeRun.setOn runId fun r =>
          { r with retryCounter := counter }) }) := by
  have unique : uniqueRuns
      (s.runs.map (setOn runId fun r => { r with retryCounter := counter })) := by
    exact (uniqueRuns_setOn (fun r => { r with retryCounter := counter }) (fun _ => rfl)
      (fun _ => rfl) fun _ _ _ => rfl).trans unique
  rcases updateRow_ok mem same unique with ⟨n, some, updated⟩
  unfold Nodes.updateRunEvaluatorState
  rw [bind_of_ok updated, if_neg some]
  rfl

def NodeRun.movedTo (state : NodeState) (sig : Option String) (r : NodeRun) : NodeRun :=
  { r with state, settlingSignalType := sig.or r.settlingSignalType }

def NodeRun.recordedAs (state : NodeState) (sig : Option String) (changed : Bool) (r : NodeRun) :
    NodeRun :=
  { r with state, changed, settlingSignalType := sig.or r.settlingSignalType }

theorem inSerializationGate_of_states {r r' : NodeRun} (claimedBy : r'.claimedBy = r.claimedBy)
    (before : r.state = .stale ∨ r.state.isTerminal) (after : r'.state.isTerminal) :
    r'.inSerializationGate = r.inSerializationGate := by
  have outside : ∀ state : NodeState, state = .stale ∨ state.isTerminal →
      state ≠ .held ∧ state ≠ .parked := by
    intro state either
    cases state <;> simp [isTerminal] at either ⊢
  have here := outside _ before
  have there := outside _ (.inr after)
  simp only [inSerializationGate, claimedBy, here.1, here.2, there.1, there.2, decide_false]

section Stale

variable {s : Store} {runId : Id} {row : NodeRun} (mem : row ∈ s.runs) (same : row.id = runId)
  (unique : uniqueRuns s.runs)

include mem same unique

theorem updateState_ok (state : NodeState) (reason : TransitionReason)
    (found : s.run? runId = some row) (stale : ∀ r ∈ s.runs, r.id = runId → r.state = .stale)
    (allowed : nextState .stale reason = some state) (terminal : state.isTerminal)
    (sig : Option String) :
    Nodes.updateState runId state reason sig s =
      (.ok (), { s with
        runs := s.runs.map (NodeRun.setOn runId (NodeRun.movedTo state sig)) }) := by
  have unique : uniqueRuns (s.runs.map (setOn runId (movedTo state sig))) := by
    refine (uniqueRuns_setOn (movedTo state sig) (fun _ => rfl) (fun _ => rfl)
      fun r here sameId => ?_).trans unique
    exact inSerializationGate_of_states rfl (.inl (stale r here sameId)) terminal
  rcases updateRow_ok mem same unique with ⟨n, -, updated⟩
  have allowed : nextState row.state reason = some state := by
    rw [stale row mem same]
    exact allowed
  unfold updateState
  rw [read_bind, found, need_some, Transaction.pure_bind, if_pos allowed]
  exact bind_of_ok updated

theorem recordRunTreeChanged_ok (state : NodeState)
    (settled : ∀ r ∈ s.runs, r.id = runId → r.state.isTerminal) (terminal : state.isTerminal)
    (sig : String) (changed : Bool) :
    recordRunTreeChanged runId state sig changed s =
      (.ok (), { s with
        runs := s.runs.map (NodeRun.setOn runId (NodeRun.recordedAs state (some sig) changed))
          }) := by
  have unique : uniqueRuns
      (s.runs.map (setOn runId (recordedAs state (some sig) changed))) := by
    refine (uniqueRuns_setOn (recordedAs state (some sig) changed) (fun _ => rfl)
      (fun _ => rfl) fun r here sameId => ?_).trans unique
    exact inSerializationGate_of_states rfl (.inr (settled r here sameId)) terminal
  rcases updateRow_ok mem same unique with ⟨n, some, updated⟩
  refine (bind_of_ok updated).trans ?_
  rw [if_neg some]
  rfl

end Stale

/-- The error policy settles a run that was let through its gate for it. -/
theorem policyTransition_of_stale (distinct : (s.runs.map (·.id)).Nodup)
    (found : s.run? acq.nodeRunId = some row) (isStale : row.state = .stale)
    (unique : uniqueRuns s.runs) (kind : ActionKind) (sig : String) :
    ∃ change : NodeRun → NodeRun, policyTransition acq kind sig s =
        (.ok true, { s with runs := s.runs.map (NodeRun.setOn acq.nodeRunId change) }) ∧
      ∀ r, (change r).origin = r.origin ∧ (change r).claimedBy = r.claimedBy ∧
        (change r).state.isTerminal := by
  have mem : row ∈ s.runs := mem_of_find?_eq_some found
  have same : row.id = acq.nodeRunId := by simpa using find?_some found
  have stale : ∀ r ∈ s.runs, r.id = acq.nodeRunId → r.state = .stale := by
    intro r here sameId
    have found' : s.run? r.id = some r := find?_key distinct here
    rw [sameId] at found'
    rw [Option.some.inj (found'.symm.trans found)]
    exact isStale
  unfold policyTransition
  simp only [read_bind, found, Option.map_some, isStale]
  split
  case isTrue =>
    have moved := updateState_ok mem same unique .fresh .acquirePass found stale rfl rfl (some sig)
    have stays : uniqueRuns (s.runs.map (setOn acq.nodeRunId (movedTo .fresh (some sig)))) := by
      refine (uniqueRuns_setOn (movedTo .fresh (some sig)) (fun _ => rfl) (fun _ => rfl)
        fun r here sameId => ?_).trans unique
      exact inSerializationGate_of_states rfl (.inl (stale r here sameId)) rfl
    have settled : ∀ r ∈ s.runs.map (setOn acq.nodeRunId (movedTo .fresh (some sig))),
        r.id = acq.nodeRunId → r.state.isTerminal := by
      intro r here sameId
      rcases mem_map.mp here with ⟨q, -, rfl⟩
      rw [setOn_id (movedTo .fresh (some sig)) fun _ => rfl] at sameId
      rw [setOn, if_pos sameId]
      rfl
    have recorded := recordRunTreeChanged_ok
      (s := { s with runs := s.runs.map (setOn acq.nodeRunId (movedTo .fresh (some sig))) })
      (mem_map_of_mem mem) ((setOn_id (movedTo .fresh (some sig)) (fun _ => rfl) _ _).trans same)
        stays .fresh
      settled rfl sig false
    refine ⟨fun r => (r.movedTo .fresh (some sig)).recordedAs .fresh (some sig) false, ?_,
      fun r => ⟨rfl, rfl, rfl⟩⟩
    rw [bind_of_ok moved, bind_of_ok recorded]
    simp only [map_map, Function.comp_def,
      setOn_setOn (movedTo .fresh (some sig)) fun _ => rfl]
    rfl
  case isFalse =>
    have moved := updateState_ok mem same unique .failed .policyGiveUp found stale rfl
      rfl (some sig)
    refine ⟨movedTo .failed (some sig), ?_, fun r => ⟨rfl, rfl, rfl⟩⟩
    rw [if_pos (by simp), bind_of_ok moved]
    rfl

theorem transitionPendingToStale_of_pending (mem : row ∈ s.runs) (pending : row.state = .pending)
    (enqueuedAt : Nat) :
    (∃ e, Nodes.transitionPendingToStale row.id enqueuedAt s = (.error e, s)) ∨
      uniqueRuns (s.runs.map (NodeRun.passed row.id enqueuedAt)) ∧
        Nodes.transitionPendingToStale row.id enqueuedAt s =
          (.ok (), { s with runs := s.runs.map (NodeRun.passed row.id enqueuedAt) }) := by
  have updated := updateRuns_eq (fun _ r => r.id = row.id && r.state = .pending)
    (fun _ r => { r with state := .stale, enqueuedAt }) s
  have count : (s.runs.filter fun r => r.id = row.id && r.state = .pending).length ≠ 0 := by
    intro none
    have absent := filter_eq_nil_iff.mp (eq_nil_of_length_eq_zero none) row mem
    simp [pending] at absent
  unfold transitionPendingToStale
  by_cases unique : uniqueRuns (s.runs.map (passed row.id enqueuedAt))
  · refine .inr ⟨unique, ?_⟩
    rw [bind_of_ok (updated.trans (if_pos unique)), if_neg count]
    rfl
  · exact .inl ⟨_, bind_of_error (updated.trans (if_neg unique))⟩

theorem evaluatePolicy_keeps {policy : Option ErrorTypePolicy} {counter maxRetries : Nat}
    (keeps : (evaluatePolicy policy counter maxRetries).1 = .retry ∨
      (evaluatePolicy policy counter maxRetries).1 = .releaseAndRequeue) :
    ∃ p, policy = some p ∧ (p.action = .retry ∨ p.action = .releaseAndRequeue) := by
  cases policy with
  | none => simp [evaluatePolicy] at keeps
  | some p =>
    refine ⟨p, rfl, ?_⟩
    cases action : p.action <;> simp [evaluatePolicy, action] at keeps ⊢

theorem Calm.free (calm : Calm s s') (free : s.Free runId) : s'.Free runId := by
  refine ⟨fun h' mem bound => ?_, fun h' mem same => ?_⟩
  · rcases calm.handles h' mem runId bound with ⟨h, old, bound⟩
    exact free.handles h old bound
  · rcases calm.holders h' mem with ⟨h, old, same'⟩
    exact free.holders h old (same'.trans same)

theorem RunChange.free (change : RunChange turn args s s') (sound : s.RunsSound)
    (free : s.Free runId) :
    s'.Free runId := by
  have same : s'.claimHandles = s.claimHandles → s'.claimHolders = s.claimHolders →
      s'.Free runId := by
    intro handles holders
    refine ⟨?_, ?_⟩
    · rw [handles]
      exact free.handles
    · rw [holders]
      exact free.holders
  cases change with
  | calm calm => exact calm.free free
  | clears row clears => exact same clears.handles clears.holders
  | keeps row opens _ => exact same opens.handles opens.holders
  | prunes prunes =>
    have left : ∀ ids, (s.deleteRuns ids).Free runId := by
      intro ids
      rcases Detached.deleteRuns s ids sound.free with ⟨-, gone, culled⟩
      exact free.trimmed culled.trimmed
    cases prunes <;> exact left _
  | spawns row spawns => exact same spawns.handles spawns.holders
  | scopes parentId opens => exact same opens.handles opens.holders

theorem RunChanges.free (changes : RunChanges turn args s s') (sound : s.RunsSound)
    (free : s.Free runId) : s'.Free runId := by
  induction changes with
  | refl => exact free
  | tail before change ih => exact change.free (RunChanges.sound before sound) ih

def TidyFrom (turn : Turn) (args : RunArgs) (runId : Id) (s s' : Store) : Prop :=
  s.RunsSound → s.Free runId → RunChanges turn args s s'

instance (turn : Turn) (args : RunArgs) (runId : Id) :
    IsPreorder Store (TidyFrom turn args runId) where
  refl _ _ _ := .refl
  trans _ _ _ first second sound free :=
    (first sound free).trans
      (second ((first sound free).sound sound) ((first sound free).free sound free))

namespace Tidy

variable {args : RunArgs} {rec : Rec} (gate : ∀ id, Steps (Tidy turn args) (rec.evaluateOneGate id))

theorem isFrom (runId : Id) (tidy : Tidy turn args s s') : TidyFrom turn args runId s s' :=
  fun sound _ => tidy sound

include gate

theorem signalling (runScopeId : Id) :
    Signalling (fun {_} m => Steps (Tidy turn args) m) rec runScopeId :=
  .of_steps (fun id => wake id (by simp) (by simp) (by simp))
    (fun _ _ => pend _ _ _) waitInsert gate

theorem emits (sender : Sender) : Emits (fun {_} m => Steps (Tidy turn args) m) args rec sender :=
  .of_receiver (steps_composes (Tidy turn args) _) fun _ _ _ _ _ _ _ =>
    (signalling gate _).walkReceiver (steps_composes (Tidy turn args) _) (logDelivery _)
      (fun _ _ _ => waitInsert _) _ _ _ _

theorem announceSettled (acq : Acquisition) (sig : Signal) :
    Steps (Tidy turn args) (announceSettled args rec acq sig) := by
  have c := steps_composes (Tidy turn args) StoreError.Plain
  refine steps_bind ((emits gate _).emitSignalOnce c _) fun _ => ?_
  refine steps_bind ((emits gate _).emitAttributeChangesForRun c _ _) fun _ => ?_
  exact steps_bind (drainWaitSetOnSettled_composes c gate (markDrained _ _)) fun _ =>
    removeForNode _ _ _

theorem policyRetry (acq : Acquisition) (decision : PolicyDecision) :
    Steps (Tidy turn args) (policyRetry args rec acq decision) := by
  refine steps_bind ((emits gate _).emitSignalOnce (steps_composes (Tidy turn args) _) _) fun _ =>
    ?_
  refine steps_bind (steps_bind (updateRuns fun _ _ => .of_state rfl (.inl rfl) rfl) fun _ => ?_)
    fun _ => steps_pure _
  exact steps_check fun _ => steps_pure _

theorem policyReleaseAndRequeue (noLocks : acq.locks = []) (decision : PolicyDecision) :
    Steps (TidyFrom turn args acq.nodeRunId) (policyReleaseAndRequeue args rec acq decision) := by
  have weaker : ∀ s s', Tidy turn args s s' → TidyFrom turn args acq.nodeRunId s s' :=
    fun _ _ => isFrom _
  refine steps_bind (steps_mono
    ((emits gate _).emitSignalOnce (steps_composes (Tidy turn args) _) _) weaker) fun _ => ?_
  have released : Steps (TidyFrom turn args acq.nodeRunId) (releaseLocks args rec acq false) := by
    intro s sound free
    rw [Detached.releaseLocks_of_free noLocks false free]
    exact .refl
  have purged : Steps (TidyFrom turn args acq.nodeRunId)
      (deleteAbandonedClaimHandles acq.nodeRunId) := by
    intro s sound free
    rw [Detached.deleteAbandonedClaimHandles_free free]
    exact .refl
  exact steps_bind released fun _ => steps_bind purged fun _ => steps_pure _

end Tidy

theorem hasActiveHeldClaims_of_free (free : s.Free runId) :
    s.hasActiveHeldClaims runId = false := by
  have own : s.claimHandles.any (fun h => h.nodeRunId = some runId && h.state = .active) =
      false := by
    rw [any_eq_false]
    intro h mem
    simp [free.handles h mem]
  have along : s.claimHolders.filter (fun h => h.holderRunId = runId &&
      h.state = .active) = [] := by
    rw [filter_eq_nil_iff]
    intro h mem
    simp [free.holders h mem]
  simp [hasActiveHeldClaims, coHeld, own, along]

/-- A run without claims has nothing to release, and its settlement is a move and a signal. -/
theorem policySettle_of_free {rec : Rec} (decision : PolicyDecision) (noLocks : acq.locks = [])
    (free : s.Free acq.nodeRunId) :
    policySettle args rec acq decision s = ((do
      let transitioned ← policyTransition acq decision.kind decision.signal.type
      announceSettled args rec acq decision.signal
      return { retryDecision := some decision
               post := if transitioned then [.propagate acq.nodeRunId] else [] } :
                 Tx Settlement) s) := by
  have nothingHeld := hasActiveHeldClaims_of_free free
  unfold policySettle
  rw [read_bind, bind_of_ok (Detached.releaseLocks_free noLocks _ free), read_bind, nothingHeld]
  simp only [Bool.and_false, Bool.false_eq_true, if_false, nil_append]

namespace Tidy

variable {args : RunArgs} {rec : Rec}

theorem calm_of_settled (s : Store) (row : NodeRun) (t : Nat) {change : NodeRun → NodeRun}
    (settles : ∀ r, (change r).origin = r.origin ∧ (change r).claimedBy = r.claimedBy ∧
      (change r).state.isTerminal) :
    Calm s { s with
      runs := (s.runs.map (NodeRun.passed row.id t)).map (NodeRun.setOn row.id change) } := by
  rw [map_map]
  refine Calm.of_map fun r mem => ?_
  simp only [Function.comp, setOn, passed_id]
  split
  case isTrue same =>
    have passed : (r.passed row.id t).origin = r.origin ∧
        (r.passed row.id t).claimedBy = r.claimedBy := by
      unfold passed
      split <;> exact ⟨rfl, rfl⟩
    rcases settles (r.passed row.id t) with ⟨origin, claimedBy, terminal⟩
    exact ⟨origin.trans passed.1, .inl (claimedBy.trans passed.2),
      drifts_of_isTerminal _ terminal⟩
  case isFalse other =>
    have unmoved : r.passed row.id t = r := by
      unfold passed
      simp [other]
    rw [unmoved]
    exact .refl r

/-- The policy keeps the run that was let through, which is a change of its own, or settles it. -/
theorem applyErrorPolicy_at_gate (gate : ∀ id, Steps (Tidy turn args) (rec.evaluateOneGate id))
    (sound : s.RunsSound) (known : s.run? row.id = some row) (pending : row.state = .pending)
    (inTurn : turn.holds s row) {t : Nat}
    (unique : uniqueRuns (s.runs.map (NodeRun.passed row.id t)))
    (same : acq.nodeRunId = row.id) (noLocks : acq.locks = []) {error : PolicyError}
    (noScratch : error.scratch = none)
    (kept : ∀ p, lookupPolicyForNode acq.nodeDef error.errorClass error.fallbackClass = some p →
      p.action = .retry ∨ p.action = .releaseAndRequeue → s.KeptAtGate args row) :
    RunChanges turn args s (applyErrorPolicy args rec acq error
      { s with runs := s.runs.map (NodeRun.passed row.id t) }).2 := by
  have mem : row ∈ s.runs := mem_of_find?_eq_some known
  let opened : Store := { s with runs := s.runs.map (passed row.id t) }
  have opens : Opens row s opened :=
    ⟨⟨rfl, rfl, fun _ has => has, .of_same rfl, rfl, rfl, rfl⟩, known, pending, rfl, t, rfl⟩
  have free : opened.Free acq.nodeRunId := by
    rw [same]
    exact ⟨(sound.free.free known pending).handles, (sound.free.free known pending).holders⟩
  have scratch : applyTerminalScratch acq error.scratch opened = (.ok (), opened) := by
    rw [noScratch]
    rfl
  have counted : getRunEvaluatorState acq.nodeRunId opened =
      (.ok (((opened.run? acq.nodeRunId).map (·.retryCounter)).getD 0), opened) := rfl
  unfold applyErrorPolicy applyErrorPolicyWithSettleHook
  rw [bind_of_ok scratch, bind_of_ok counted]
  generalize ((opened.run? acq.nodeRunId).map (·.retryCounter)).getD 0 = counter
  have keeps := @evaluatePolicy_keeps
    (lookupPolicyForNode acq.nodeDef error.errorClass error.fallbackClass) counter acq.maxRetries
  generalize evaluatePolicy (lookupPolicyForNode acq.nodeDef error.errorClass error.fallbackClass)
    counter acq.maxRetries = decided at keeps ⊢
  rcases decided with ⟨kind, counter⟩
  dsimp only at keeps ⊢
  have here : row.passed row.id t ∈ opened.runs := mem_map_of_mem mem
  have hereId : (row.passed row.id t).id = acq.nodeRunId := by rw [passed_id, same]
  rw [bind_of_ok (updateRunEvaluatorState_ok counter here hereId unique)]
  let bump : NodeRun → NodeRun := fun r => { r with retryCounter := counter }
  let queued : Store := { opened with runs := opened.runs.map (setOn acq.nodeRunId bump) }
  have bumped : Calm opened queued := by
    refine Calm.of_map fun r _ => ?_
    unfold setOn
    split
    · exact .of_state rfl (.inl rfl) rfl
    · exact .refl r
  have whenKept : kind = .retry ∨ kind = .releaseAndRequeue → RunChanges turn args s queued := by
    intro keepsKind
    rcases keeps keepsKind with ⟨p, found, action⟩
    exact .tail (.single (.keeps row opens (kept p found action) inTurn)) (.calm bumped)
  split
  case isTrue retry =>
    have before := whenKept (.inl retry)
    exact before.trans (policyRetry gate acq _ queued (before.sound sound))
  case isFalse notRetry =>
  split
  case isTrue requeue =>
    have before := whenKept (.inr requeue)
    exact before.trans
      (policyReleaseAndRequeue gate noLocks _ queued (before.sound sound) (bumped.free free))
  case isFalse =>
    rw [Transaction.pure_bind, policySettle_of_free _ noLocks (bumped.free free)]
    have distinct : (queued.runs.map (·.id)).Nodup := by
      rw [map_key_of_map (setOn_id bump (fun _ => rfl) _), map_key_of_map (passed_id _ _)]
      exact sound.distinct
    have stale : ((row.passed row.id t).setOn acq.nodeRunId bump).state = .stale := by
      simp [passed, setOn, bump, same, pending]
    have found : queued.run? acq.nodeRunId =
        some ((row.passed row.id t).setOn acq.nodeRunId bump) := by
      have found := find?_key distinct (mem_map_of_mem here)
      rw [setOn_id bump fun _ => rfl, hereId] at found
      exact found
    have stays : uniqueRuns queued.runs := by
      refine (uniqueRuns_setOn bump (fun _ => rfl) (fun _ => rfl) fun _ _ _ => rfl).trans unique
    rcases policyTransition_of_stale distinct found stale stays kind _ with ⟨change, moved, settles⟩
    rw [bind_of_ok moved]
    have calm : Calm s { queued with runs := queued.runs.map (setOn acq.nodeRunId change) } := by
      have settled := calm_of_settled s row t fun r => settles (bump r)
      have runs : queued.runs.map (setOn acq.nodeRunId change) =
          (s.runs.map (passed row.id t)).map (setOn row.id fun r => change (bump r)) := by
        rw [map_map, same]
        exact map_congr_left fun r _ => setOn_setOn bump (fun _ => rfl) change row.id r
      rw [runs]
      exact settled
    have before : RunChanges turn args s _ := .single (.calm calm)
    refine before.trans (steps_bind (announceSettled gate acq _) (fun _ => steps_pure _) _
      (before.sound sound))

theorem routeSubstitutionFailureAtGate (gate : ∀ id, Steps (Tidy turn args)
    (rec.evaluateOneGate id))
    {error : SubstitutionError} (known : s.run? row.id = some row) (pending : row.state = .pending)
    (inTurn : turn.holds s row)
    (missing : ∃ carry, buildResolvedBagAtGateEval args row carry s = (.ok (.error error), s) ∧
      error.isMissingSource) :
    Tidy turn args s (routeSubstitutionFailureAtGate args rec row error s).2 := by
  intro sound
  have mem : row ∈ s.runs := mem_of_find?_eq_some known
  unfold Rimsky.routeSubstitutionFailureAtGate
  rw [read_bind]
  cases node : s.node? row.nodeId with
  | none => exact .refl
  | some node' =>
  dsimp only
  cases template : s.template? node'.instanceId with
  | none =>
    have none : loadTemplateSpec node'.instanceId s =
        (.error (.other "loadTemplateSpec: instance not found"), s) := by
      simp only [loadTemplateSpec, read_bind, template]
      rfl
    rw [bind_of_error none]
    exact .refl
  | some spec =>
  rw [bind_of_ok (loadTemplateSpec_of_found template), read_bind]
  rcases transitionPendingToStale_of_pending mem pending s.clock with ⟨e, failed⟩ | ⟨unique, passed⟩
  · rw [bind_of_error failed]
    exact .refl
  rw [bind_of_ok passed]
  rw [bind_pure_store]
  refine applyErrorPolicy_at_gate gate sound known pending inTurn unique rfl rfl rfl
    fun p found keeps => ?_
  rcases missing with ⟨carry, built, missing⟩
  exact ⟨⟨carry, error, built, missing⟩, node', spec, p, node, template, found, keeps⟩

end Tidy

namespace Tidy

variable {args : RunArgs} {rec : Rec}

/-- A gate evaluation is tidy if it comes in turn. -/
theorem evaluateOneGateBody_at (gate : ∀ id, Steps (Tidy turn args) (rec.evaluateOneGate id))
    {runId : Id}
    (inTurn : ∀ row, s.run? runId = some row → row.state = .pending → turn.holds s row) :
    Tidy turn args s (evaluateOneGateBody args rec runId s).2 := by
  rcases evaluateOneGateBody_cases args rec runId s with
    same | ⟨row, carry, atGate, isRow, ⟨resolved, passes⟩ | ⟨error, built, missing, routes⟩⟩
  · rw [same]
    exact refl s
  · rw [passes]
    exact passGate atGate.known atGate.pending (inTurn row (isRow ▸ atGate.known) atGate.pending)
      resolved
  · rw [routes]
    exact routeSubstitutionFailureAtGate gate atGate.known atGate.pending
      (inTurn row (isRow ▸ atGate.known) atGate.pending) ⟨carry, built, missing⟩

theorem evaluateOneGateBody (gate : ∀ id, Steps (Tidy anytime args) (rec.evaluateOneGate id))
    (runId : Id) : Steps (Tidy anytime args) (evaluateOneGateBody args rec runId) :=
  fun _ => evaluateOneGateBody_at gate fun _ _ _ => trivial

theorem settle (runId : Id) {state : NodeState} (reason : TransitionReason) (sig : Option String)
    (settled : state = .held ∨ state.isTerminal) :
    Steps (Tidy turn args) (Nodes.updateState runId state reason sig) := by
  by_cases calm : reason ≠ .gateCleared ∧ reason ≠ .dispatchClaimed ∧ reason ≠ .handlerPark
  · exact updateState _ _ _ calm.1 calm.2.1 calm.2.2
  · intro s
    rcases updateState_cases runId state reason sig s with
      ⟨e, failed⟩ | ⟨⟨row, -, allowed⟩, -⟩
    · rw [failed]
      exact refl s
    · cases before : row.state <;> cases reason <;> simp [nextState, before] at allowed calm <;>
        subst allowed <;> simp [isTerminal] at settled

theorem holders (gate : ∀ id, Steps (Tidy turn args) (rec.evaluateOneGate id)) :
    HolderSteps (Tidy turn args) args rec := by
  intro s holder _ _ _
  have terminal := isTerminal_holderVerdict s holder.id
  exact settleHolder_steps gate (settle _ _ _ (.inr terminal)) (recordRunTreeChanged _ _ _ terminal)
    (fun _ => emits gate _) (markDrained _ _) s

theorem metadata : KeepsMetadata fun {_} m => Steps (Tidy turn args) m := by
  intro parentId childId outcome text rest ends
  refine steps_read_bind fun s => ?_
  cases found : s.claimHandle? parentId with
  | none => exact refl s
  | some parent =>
    have mem : parent ∈ s.claimHandles := mem_of_find?_eq_some found
    refine steps_bind_from ?_ fun _ => ends parent
    unfold recordChildCommitMetadata
    cases text with
    | none => exact refl s
    | some text =>
    cases bound : parent.nodeRunId with
    | none => exact refl s
    | some runId =>
      dsimp only
      split
      case isTrue => exact refl s
      case isFalse =>
        intro sound
        exact .single (.calm (upsert _ _ (sound.free.handles parent mem runId bound).1))

theorem closePartitionScopes (children : List ClaimHandle) :
    Steps (Tidy turn args) (closePartitionScopes children) := by
  refine steps_forM fun c _ => steps_reads fun s => ?_
  split
  · exact steps_pure _
  · exact steps_unless fun _ => close _

section Nested

variable (nested : RecSteps (Tidy turn args) rec)

include nested

theorem resolving : Resolving (fun {_} m => Steps (Tidy turn args) m) args rec :=
  claiming.resolving nested.resolve (holders nested.gate) metadata closePartitionScopes

omit nested in
theorem bookkeeping {change : Nat → NodeRun → NodeRun} {e : StoreError}
    (keeps : ∀ now (r : NodeRun), r.Evolves (change now r)) : Steps (Tidy turn args) (do
      let n ← Rimsky.updateRuns (fun _ r => r.id = runId) change
      if n = 0 then fail e : Tx Unit) :=
  steps_mono (Calm.bookkeeping keeps) fun _ _ => of_calm

theorem settling (acq : Acquisition) :
    Settling (fun {_} m => Steps (Tidy turn args) m) args rec acq where
  emits := emits nested.gate _
  gate := nested.gate
  drain := markDrained _ _
  unclaim := removeForNode _ _ _
  scratch _ := steps_mono (Calm.applyTerminalScratch acq _) fun _ _ => of_calm
  counter _ := bookkeeping fun _ _ => .of_state rfl (.inl rfl) rfl
  stamp := bookkeeping fun _ _ => .of_state rfl (.inl rfl) rfl
  release := claiming.releaseLocks (resolving nested) acq
  purge := claiming.deleteAbandonedClaimHandles _
  holder := Walking.transitionHolderIfFullyResolved (holders nested.gate) _
  settle _ _ _ settled := settle _ _ _ settled
  record _ _ _ terminal := recordRunTreeChanged _ _ _ terminal

end Nested

/-- Everything nested in a transaction about runs is tidy, by induction on the fuel. -/
theorem knot (args : RunArgs) (fuel : Nat) : RecSteps (Tidy anytime args) (knot args fuel) := by
  induction fuel with
  | zero => exact ⟨fun _ => steps_fail _, fun _ => steps_fail _⟩
  | succ fuel ih =>
    refine ⟨evaluateOneGateBody ih.gate, fun td => ?_⟩
    exact (resolving ih).resolveClaimHandleTerminalBody (steps_composes (Tidy anytime args) _) td

end Tidy

end Rimsky
