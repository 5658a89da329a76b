import Rimsky.Runtime.ClaimsApart
import Rimsky.Runtime.Footprint

/-!
# What transactions do to runs

All that signals, gates and settlements do to the table of runs is a sequence of changes of a
few kinds. A calm change moves runs between the states past the gate or settles them, and adds
pending runs. Everything else is done by gates: a gate clears its run, prunes runs by the rule
of the cascade mode or, where a source is missing and the error policy does not settle the run,
keeps it without its bag.
-/

namespace Rimsky

open Transaction List Store NodeRun NodeState

variable {a b : NodeState} {reason : TransitionReason} {r row : NodeRun} {s s' : Store} {runId : Id}
  {args : RunArgs}

def NodeState.isAdvanced : NodeState → Bool
  | .stale | .running | .held | .parked => true
  | _ => false

theorem NodeState.isAdvanced_iff (state : NodeState) :
    state.isAdvanced ↔ [NodeState.stale, .running, .held, .parked].contains state := by
  cases state <;> decide

/-- How a run moves when it is not claimed, parked or let through a gate. -/
def NodeState.drifts (state state' : NodeState) : Bool :=
  state' = state || state'.isTerminal || (state = .running && state' = .held) ||
    (state = .parked && state' = .stale)

namespace NodeState

theorem drifts_self (state : NodeState) : state.drifts state := by cases state <;> rfl

theorem drifts_of_isTerminal (state : NodeState) {state' : NodeState}
    (terminal : state'.isTerminal) :
    state.drifts state' := by
  simp [drifts, terminal]

theorem drifts_trans {c : NodeState} (first : a.drifts b) (second : b.drifts c) : a.drifts c := by
  cases a <;> cases b <;> cases first <;> cases c <;> first | rfl | cases second

theorem drifts_isAdvanced (drifts : a.drifts b) (advanced : b.isAdvanced) : a.isAdvanced := by
  cases a <;> cases b <;> cases drifts <;> first | rfl | cases advanced

theorem eq_pending_of_drifts (drifts : a.drifts .pending) : a = .pending := by
  cases a <;> first | rfl | cases drifts

theorem drifts_unstarted (drifts : a.drifts b) (unstarted : a = .pending ∨ a.isTerminal) :
    b = .pending ∨ b.isTerminal := by
  cases a <;> cases b <;> simp [isTerminal] at unstarted ⊢ <;> cases drifts

theorem drifts_of_nextState {state state' : NodeState}
    (moved : nextState state reason = some state') (gate : reason ≠ .gateCleared)
    (claim : reason ≠ .dispatchClaimed) (park : reason ≠ .handlerPark) : state.drifts state' := by
  cases state <;> cases reason <;> simp [nextState] at moved gate claim park <;> subst moved <;> rfl

end NodeState

theorem NodeRun.sameNodeAndScope_iff (r r' : NodeRun) :
    r.sameNodeAndScope r' ↔ r.nodeId = r'.nodeId ∧ r.runScopeId = r'.runScopeId := by
  simp [sameNodeAndScope]

def NodeRun.origin (r : NodeRun) : NodeRun :=
  { id := r.id, nodeId := r.nodeId, enqueuedAt := 0, state := .pending
    creationReason := r.creationReason, sequence := r.sequence, frameId := r.frameId
    runScopeId := r.runScopeId }

structure NodeRun.Evolves (r r' : NodeRun) : Prop where
  origin : r'.origin = r.origin
  claimedBy : r'.claimedBy = r.claimedBy ∨ r'.claimedBy = none
  state : r.state.drifts r'.state

namespace NodeRun.Evolves

variable {r r' r'' : NodeRun}

protected theorem refl (r : NodeRun) : r.Evolves r := ⟨rfl, .inl rfl, r.state.drifts_self⟩

protected theorem trans (first : r.Evolves r') (second : r'.Evolves r'') : r.Evolves r'' := by
  refine ⟨second.origin.trans first.origin, ?_, NodeState.drifts_trans first.state second.state⟩
  rcases second.claimedBy with same | none
  · rw [same]
    exact first.claimedBy
  · exact .inr none

theorem of_state (origin : r'.origin = r.origin) (claimedBy : r'.claimedBy = r.claimedBy ∨
    r'.claimedBy = none) (state : r'.state = r.state) : r.Evolves r' :=
  ⟨origin, claimedBy, state ▸ r.state.drifts_self⟩

section

variable (evolves : r.Evolves r')

include evolves

theorem id : r'.id = r.id := congrArg (·.id) evolves.origin

theorem nodeId : r'.nodeId = r.nodeId := congrArg (·.nodeId) evolves.origin

theorem runScopeId : r'.runScopeId = r.runScopeId :=
  congrArg (·.runScopeId) evolves.origin

theorem sequence : r'.sequence = r.sequence :=
  congrArg (·.sequence) evolves.origin

theorem creationReason : r'.creationReason = r.creationReason :=
  congrArg (·.creationReason) evolves.origin

theorem advanced (advanced : r'.state.isAdvanced) : r.state.isAdvanced :=
  drifts_isAdvanced evolves.state advanced

theorem pending (pending : r'.state = .pending) : r.state = .pending :=
  eq_pending_of_drifts (pending ▸ evolves.state)

theorem unclaimed (free : r.claimedBy = none) : r'.claimedBy = none := by
  rcases evolves.claimedBy with same | none
  · rw [same, free]
  · exact none

end

end NodeRun.Evolves

structure Store.Begins (s s' : Store) (r' : NodeRun) : Prop where
  fresh : s.nextId ≤ r'.id
  known : r'.id < s'.nextId
  state : r'.state = .pending ∨ r'.state.isTerminal
  creationReason : r'.creationReason = .cascade
  claimedBy : r'.claimedBy = none
  last : ∀ r ∈ s.runs, r.sameNodeAndScope r' → r.sequence < r'.sequence

/-- Run ids are distinct and used up, and pending runs are waiting for a gate only. -/
structure Store.RunsSound (s : Store) : Prop where
  distinct : (s.runs.map (·.id)).Nodup
  known : ∀ r ∈ s.runs, r.id < s.nextId
  queued : ∀ r ∈ s.runs, r.state = .pending → r.creationReason = .cascade ∧ r.claimedBy = none
  bags : ∀ a ∈ s.attributes, a.dispatchInputBag = none → a.nodeRunId < s.nextId
  free : s.PendingFree

namespace Store.RunsSound

variable {s : Store}

theorem run?_of_mem (sound : s.RunsSound) (mem : r ∈ s.runs) :
    s.run? r.id = some r := find?_key sound.distinct mem

theorem eq_of_id (sound : s.RunsSound) (mem : r ∈ s.runs) (found : s.run? row.id = some row)
    (same : r.id = row.id) : r = row := by
  have here := sound.run?_of_mem mem
  rw [same] at here
  exact Option.some.inj (here.symm.trans found)

end Store.RunsSound

theorem Store.RunsSound.of_map (sound : s.RunsSound) {f : NodeRun → NodeRun}
    (runs : s'.runs = s.runs.map f) (nextId : s'.nextId = s.nextId)
    (bags : ∀ a ∈ s'.attributes, a.dispatchInputBag = none → a.nodeRunId < s'.nextId)
    (handles : s'.claimHandles = s.claimHandles) (holders : s'.claimHolders = s.claimHolders)
    (origin : ∀ r ∈ s.runs, (f r).origin = r.origin)
    (pending : ∀ r ∈ s.runs, (f r).state = .pending →
      r.state = .pending ∧ (f r).claimedBy = none) : s'.RunsSound := by
  have id : ∀ r ∈ s.runs, (f r).id = r.id := fun r mem => congrArg (·.id) (origin r mem)
  have row : ∀ r' ∈ s'.runs, ∃ r ∈ s.runs, f r = r' := by
    rw [runs]
    exact fun r' mem => mem_map.mp mem
  refine ⟨?_, ?_, ?_, bags, sound.free.of_mayHold (fun runId may => ?_) handles holders⟩
  · have same : (s.runs.map f).map (·.id) = s.runs.map (·.id) := by
      rw [map_map]
      exact map_congr_left id
    rw [runs, same]
    exact sound.distinct
  · intro r' mem
    rcases row r' mem with ⟨r, old, rfl⟩
    rw [id r old, nextId]
    exact sound.known r old
  · intro r' mem waits
    rcases row r' mem with ⟨r, old, rfl⟩
    have before := pending r old waits
    have cascade := (sound.queued r old before.1).1
    exact ⟨(congrArg (·.creationReason) (origin r old)).trans cascade, before.2⟩
  · refine ⟨nextId ▸ may.1, fun r' mem same waits => ?_⟩
    rcases row r' mem with ⟨r, old, rfl⟩
    exact may.2 r old (id r old ▸ same) (pending r old waits).1

theorem Store.RunsSound.map (sound : s.RunsSound) {f : NodeRun → NodeRun}
    (origin : ∀ r ∈ s.runs, (f r).origin = r.origin)
    (pending : ∀ r ∈ s.runs, (f r).state = .pending → r.state = .pending ∧ (f r).claimedBy = none) :
    ({ s with runs := s.runs.map f } : Store).RunsSound :=
  sound.of_map rfl rfl sound.bags rfl rfl origin pending

/-- A row of attributes lacks a dispatch bag as it did before, or is that of a known run. -/
def BagsOfKnown (s s' : Store) : Prop :=
  ∀ a' ∈ s'.attributes, a'.dispatchInputBag = none →
    (∃ a ∈ s.attributes, a.dispatchInputBag = none ∧ a.nodeRunId = a'.nodeRunId) ∨
      a'.nodeRunId < s'.nextId

theorem BagsOfKnown.of_same (same : s'.attributes = s.attributes) : BagsOfKnown s s' :=
  fun a mem lacks => .inl ⟨a, same ▸ mem, lacks, rfl⟩

theorem BagsOfKnown.sound (known : BagsOfKnown s s') (later : s.nextId ≤ s'.nextId)
    (sound : s.RunsSound) :
    ∀ a ∈ s'.attributes, a.dispatchInputBag = none → a.nodeRunId < s'.nextId := by
  intro a' mem lacks
  rcases known a' mem lacks with ⟨a, old, lacks, same⟩ | known
  · rw [← same]
    exact Nat.lt_of_lt_of_le (sound.bags a old lacks) later
  · exact known

/-- Runs stay, and none gets past its gate. -/
structure Calm (s s' : Store) : Prop where
  nodes : s'.nodes = s.nodes
  instances : s'.instances = s.instances
  later : s.nextId ≤ s'.nextId
  forth : ∀ r ∈ s.runs, ∃ r' ∈ s'.runs, r.Evolves r'
  back : ∀ r' ∈ s'.runs, (∃ r ∈ s.runs, r.Evolves r') ∨ s.Begins s' r'
  distinct : (s.runs.map (·.id)).Nodup → (∀ r ∈ s.runs, r.id < s.nextId) →
    (s'.runs.map (·.id)).Nodup
  bags : ∀ id, (s.dispatchInputBag? id).isSome → (s'.dispatchInputBag? id).isSome
  attributes : BagsOfKnown s s'
  scopes : ∀ scope' ∈ s'.runScopes, ∃ scope ∈ s.runScopes,
    scope'.id = scope.id ∧ scope'.parentNodeRunId = scope.parentNodeRunId
  handles : ∀ h' ∈ s'.claimHandles, ∀ runId, h'.nodeRunId = some runId →
    ∃ h ∈ s.claimHandles, h.nodeRunId = some runId
  holders : ∀ h' ∈ s'.claimHolders, ∃ h ∈ s.claimHolders, h.holderRunId = h'.holderRunId

namespace Calm

variable {s mid s' : Store}

theorem sameNodeAndScope {r' q : NodeRun} (evolves : r.Evolves r') :
    r'.sameNodeAndScope q = r.sameNodeAndScope q := by
  simp [NodeRun.sameNodeAndScope, evolves.nodeId, evolves.runScopeId]

protected theorem refl (s : Store) : Calm s s where
  nodes := rfl
  instances := rfl
  later := Nat.le_refl _
  forth r mem := ⟨r, mem, .refl r⟩
  back r mem := .inl ⟨r, mem, .refl r⟩
  distinct apart _ := apart
  bags _ has := has
  attributes := .of_same rfl
  scopes scope mem := ⟨scope, mem, rfl, rfl⟩
  handles h mem _ bound := ⟨h, mem, bound⟩
  holders h mem := ⟨h, mem, rfl⟩

theorem known (calm : Calm s s') (known : ∀ r ∈ s.runs, r.id < s.nextId) :
    ∀ r ∈ s'.runs, r.id < s'.nextId := by
  intro r' mem
  rcases calm.back r' mem with ⟨r, old, evolves⟩ | begins
  · rw [evolves.id]
    exact Nat.lt_of_lt_of_le (known r old) calm.later
  · exact begins.known

protected theorem trans (first : Calm s mid) (second : Calm mid s') : Calm s s' where
  nodes := second.nodes.trans first.nodes
  instances := second.instances.trans first.instances
  later := Nat.le_trans first.later second.later
  forth r mem := by
    rcases first.forth r mem with ⟨r1, mem1, evolves⟩
    rcases second.forth r1 mem1 with ⟨r2, mem2, evolves'⟩
    exact ⟨r2, mem2, evolves.trans evolves'⟩
  back r' mem := by
    rcases second.back r' mem with ⟨r1, mem1, evolves⟩ | begins
    · rcases first.back r1 mem1 with ⟨r, known, evolves'⟩ | begins
      · exact .inl ⟨r, known, evolves'.trans evolves⟩
      · refine .inr ⟨?_, ?_, ?_, ?_, evolves.unclaimed begins.claimedBy, ?_⟩
        · rw [evolves.id]
          exact begins.fresh
        · rw [evolves.id]
          exact Nat.lt_of_lt_of_le begins.known second.later
        · exact NodeState.drifts_unstarted evolves.state begins.state
        · rw [evolves.creationReason]
          exact begins.creationReason
        · intro r known same
          rw [evolves.sequence]
          refine begins.last r known ?_
          simpa [NodeRun.sameNodeAndScope, evolves.nodeId, evolves.runScopeId] using same
    · refine .inr ⟨Nat.le_trans first.later begins.fresh, begins.known, begins.state,
        begins.creationReason, begins.claimedBy, ?_⟩
      intro r known same
      rcases first.forth r known with ⟨r1, mem1, evolves⟩
      rw [← evolves.sequence]
      exact begins.last r1 mem1 (by rw [sameNodeAndScope evolves]; exact same)
  distinct apart known := second.distinct (first.distinct apart known) (first.known known)
  bags id has := second.bags id (first.bags id has)
  attributes a' mem lacks := by
    rcases second.attributes a' mem lacks with ⟨a1, mem1, lacks, same⟩ | known
    · rcases first.attributes a1 mem1 lacks with ⟨a, old, lacks, same'⟩ | known
      · exact .inl ⟨a, old, lacks, same'.trans same⟩
      · exact .inr (same ▸ Nat.lt_of_lt_of_le known second.later)
    · exact .inr known
  scopes scope' mem := by
    rcases second.scopes scope' mem with ⟨scope1, mem1, id1, parent1⟩
    rcases first.scopes scope1 mem1 with ⟨scope, known, id, parent⟩
    exact ⟨scope, known, id1.trans id, parent1.trans parent⟩
  handles h' mem runId bound := by
    rcases second.handles h' mem runId bound with ⟨h1, mem1, bound1⟩
    exact first.handles h1 mem1 runId bound1
  holders h' mem := by
    rcases second.holders h' mem with ⟨h1, mem1, same1⟩
    rcases first.holders h1 mem1 with ⟨h, known, same⟩
    exact ⟨h, known, same.trans same1⟩

instance : IsPreorder Store Calm where
  refl := Calm.refl
  trans _ _ _ := Calm.trans

theorem mayHold (calm : Calm s s') (may : s.MayHold runId) : s'.MayHold runId := by
  rcases may with ⟨known, started⟩
  refine ⟨Nat.lt_of_lt_of_le known calm.later, ?_⟩
  intro r' mem same pending
  rcases calm.back r' mem with ⟨r, old, evolves⟩ | begins
  · exact started r old (evolves.id ▸ same) (evolves.pending pending)
  · rw [← same] at known
    exact absurd known (Nat.not_lt.mpr begins.fresh)

theorem pendingFree (calm : Calm s s') (free : s.PendingFree) : s'.PendingFree := by
  refine ⟨?_, ?_⟩
  · intro h' mem runId bound
    rcases calm.handles h' mem runId bound with ⟨h, old, bound⟩
    exact calm.mayHold (free.handles h old runId bound)
  · intro h' mem
    rcases calm.holders h' mem with ⟨h, old, same⟩
    exact same ▸ calm.mayHold (free.holders h old)

theorem sound (calm : Calm s s') (sound : s.RunsSound) : s'.RunsSound := by
  refine ⟨calm.distinct sound.distinct sound.known, calm.known sound.known, ?_,
    calm.attributes.sound calm.later sound, calm.pendingFree sound.free⟩
  intro r' mem pending
  rcases calm.back r' mem with ⟨r, old, evolves⟩ | begins
  · rcases sound.queued r old (evolves.pending pending) with ⟨cascade, unclaimed⟩
    exact ⟨evolves.creationReason.trans cascade, evolves.unclaimed unclaimed⟩
  · exact ⟨begins.creationReason, begins.claimedBy⟩

end Calm

theorem Calm.of_map {f : NodeRun → NodeRun} (evolves : ∀ r ∈ s.runs, r.Evolves (f r)) :
    Calm s { s with runs := s.runs.map f } := by
  refine { Calm.refl s with
    forth := fun r mem => ⟨f r, mem_map_of_mem mem, evolves r mem⟩
    back := fun r' mem => ?_, distinct := fun apart _ => ?_ }
  · rcases mem_map.mp mem with ⟨r, old, rfl⟩
    exact .inl ⟨r, old, evolves r old⟩
  · have same : (s.runs.map f).map (·.id) = s.runs.map (·.id) := by
      rw [map_map]
      exact map_congr_left fun r mem => (evolves r mem).id
    rw [same]
    exact apart

variable {change : Nat → NodeRun → NodeRun}

theorem Calm.updateRuns {guard : Store → NodeRun → Bool}
    (evolves : ∀ now (r : NodeRun), r.Evolves (change now r)) :
    Steps Calm (updateRuns guard change) := by
  refine steps_updateRuns fun s => ?_
  refine Calm.of_map fun r _ => ?_
  split
  · exact evolves _ r
  · exact .refl r

theorem Calm.bookkeeping {e : StoreError} (keeps : ∀ now (r : NodeRun), r.Evolves (change now r)) :
    Steps Calm (do
      let n ← Rimsky.updateRuns (fun _ r => r.id = runId) change
      if n = 0 then fail e : Tx Unit) :=
  steps_bind (updateRuns keeps) fun _ => steps_check fun _ => steps_pure _

theorem Calm.applyTerminalScratch (acq : Acquisition) (scratch : Option String) :
    Steps Calm (applyTerminalScratch acq scratch) := by
  cases scratch with
  | none => exact steps_pure _
  | some text =>
    refine steps_unless fun _ => ?_
    refine steps_bind (bookkeeping fun _ _ => .of_state rfl (.inl rfl) rfl) fun _ => ?_
    exact steps_bind (updateRuns fun _ _ => .of_state rfl (.inl rfl) rfl) fun _ => steps_pure _

theorem Calm.aside (runs : s'.runs = s.runs) (nodes : s'.nodes = s.nodes)
    (instances : s'.instances = s.instances) (later : s.nextId ≤ s'.nextId)
    (attributes : s'.attributes = s.attributes)
    (scopes : ∀ scope' ∈ s'.runScopes, ∃ scope ∈ s.runScopes,
      scope'.id = scope.id ∧ scope'.parentNodeRunId = scope.parentNodeRunId)
    (handles : ∀ h' ∈ s'.claimHandles, ∀ runId, h'.nodeRunId = some runId →
      ∃ h ∈ s.claimHandles, h.nodeRunId = some runId)
    (holders : ∀ h' ∈ s'.claimHolders, ∃ h ∈ s.claimHolders, h.holderRunId = h'.holderRunId) :
    Calm s s' where
  nodes := nodes
  instances := instances
  later := later
  forth r mem := ⟨r, runs ▸ mem, .refl r⟩
  back r mem := .inl ⟨r, runs ▸ mem, .refl r⟩
  distinct apart _ := runs ▸ apart
  bags id has := by
    unfold dispatchInputBag? attributes? at has ⊢
    rwa [attributes]
  attributes := .of_same attributes
  scopes := scopes
  handles := handles
  holders := holders

theorem Calm.of_same (runs : s'.runs = s.runs) (nodes : s'.nodes = s.nodes)
    (instances : s'.instances = s.instances) (later : s.nextId ≤ s'.nextId)
    (attributes : s'.attributes = s.attributes) (scopes : s'.runScopes = s.runScopes)
    (handles : s'.claimHandles = s.claimHandles) (holders : s'.claimHolders = s.claimHolders) :
    Calm s s' :=
  .aside runs nodes instances later attributes (fun scope mem => ⟨scope, scopes ▸ mem, rfl, rfl⟩)
    (fun h mem _ bound => ⟨h, handles ▸ mem, bound⟩) fun h mem => ⟨h, holders ▸ mem, rfl⟩

theorem Calm.claiming : Claiming Calm where
  queue _ _ _ le := .of_same rfl rfl rfl le rfl rfl rfl rfl
  handles s kept change holders _ _ sameRun old := by
    refine .aside rfl rfl rfl (Nat.le_refl _) rfl (fun scope mem => ⟨scope, mem, rfl, rfl⟩) ?_
      fun x mem => ⟨x, old x mem, rfl⟩
    intro h' mem runId bound
    rcases mem_map.mp mem with ⟨h, kept, rfl⟩
    exact ⟨h, (mem_filter.mp kept).1, (sameRun h).symm.trans bound⟩
  holders s change same := by
    refine .aside rfl rfl rfl (Nat.le_refl _) rfl (fun scope mem => ⟨scope, mem, rfl, rfl⟩)
      (fun h mem _ bound => ⟨h, mem, bound⟩) fun x' mem => ?_
    rcases mem_map.mp mem with ⟨x, old, rfl⟩
    exact ⟨x, old, (same x).symm⟩

theorem mem_upsertAttributes {fresh a' : NodeAttributes} {change : NodeAttributes → NodeAttributes}
    (mem : a' ∈ (s.upsertAttributes fresh change).attributes) :
    a' = fresh ∨ (∃ a ∈ s.attributes, a.nodeRunId = fresh.nodeRunId ∧ a' = change a) ∨
      a' ∈ s.attributes ∧ a'.nodeRunId ≠ fresh.nodeRunId ∨
      a' ∈ s.attributes ∧ ∀ a ∈ s.attributes, a.nodeRunId ≠ fresh.nodeRunId := by
  unfold upsertAttributes at mem
  split at mem
  · rcases mem_map.mp mem with ⟨a, old, rfl⟩
    split
    case isTrue same => exact .inr (.inl ⟨a, old, same, rfl⟩)
    case isFalse other => exact .inr (.inr (.inl ⟨old, other⟩))
  · rename_i absent
    rcases mem_append.mp mem with old | new
    · refine .inr (.inr (.inr ⟨old, fun a here same => absent ?_⟩))
      exact any_eq_true.mpr ⟨a, here, by simpa using same⟩
    · exact .inl (mem_singleton.mp new)

theorem dispatchInputBag?_upsertAttributes (s : Store) (fresh : NodeAttributes)
    {change : NodeAttributes → NodeAttributes} (same : ∀ a, (change a).nodeRunId = a.nodeRunId)
    (id : Id) :
    (s.upsertAttributes fresh change).dispatchInputBag? id =
      if id = fresh.nodeRunId then
        match s.attributes? id with
        | some a => (change a).dispatchInputBag
        | none => fresh.dispatchInputBag
      else s.dispatchInputBag? id := by
  unfold upsertAttributes
  split
  case isTrue has =>
    have sameKey : ∀ a : NodeAttributes,
        (if a.nodeRunId = fresh.nodeRunId then change a else a).nodeRunId = a.nodeRunId := by
      intro a
      split
      · exact same a
      · rfl
    simp only [dispatchInputBag?, attributes?, find?_key_map sameKey id]
    cases found : s.attributes.find? (·.nodeRunId = id) with
    | none =>
      rcases any_eq_true.mp has with ⟨a, mem, here⟩
      have absent := find?_eq_none.mp found a mem
      split
      case isTrue sameId =>
        rw [sameId] at absent
        exact absurd here absent
      case isFalse => rfl
    | some a =>
      have here : a.nodeRunId = id := by simpa using find?_some found
      simp only [Option.map_some, Option.bind_some, here]
      split <;> rfl
  case isFalse hasNone =>
    simp only [dispatchInputBag?, attributes?, find?_append]
    cases found : s.attributes.find? (·.nodeRunId = id) with
    | some a =>
      have here : a.nodeRunId = id := by simpa using find?_some found
      have other : id ≠ fresh.nodeRunId := by
        intro sameId
        refine hasNone (any_eq_true.mpr ⟨a, mem_of_find?_eq_some found, ?_⟩)
        simpa [here] using sameId
      simp [other]
    | none =>
      by_cases sameId : id = fresh.nodeRunId
      · simp [sameId]
      · have other : ¬fresh.nodeRunId = id := fun here => sameId here.symm
        simp [sameId, other]

theorem Calm.of_attributes {attributes : List NodeAttributes}
    (bags : ∀ id, (s.dispatchInputBag? id).isSome →
      (({ s with attributes } : Store).dispatchInputBag? id).isSome)
    (known : BagsOfKnown s { s with attributes }) : Calm s { s with attributes } :=
  { Calm.refl s with
    back := fun r mem => .inl ⟨r, mem, .refl r⟩, bags, attributes := known }

theorem Store.upsertAttributes_eq (s : Store) (fresh : NodeAttributes)
    (change : NodeAttributes → NodeAttributes) :
    ∃ attributes, s.upsertAttributes fresh change = { s with attributes } := by
  unfold upsertAttributes
  split <;> exact ⟨_, rfl⟩

theorem Calm.upsertAttributes {fresh : NodeAttributes} {change : NodeAttributes → NodeAttributes}
    (known : fresh.nodeRunId < s.nextId) (same : ∀ a, (change a).nodeRunId = a.nodeRunId)
    (keeps : ∀ a, a.dispatchInputBag.isSome → (change a).dispatchInputBag.isSome) :
    Calm s (s.upsertAttributes fresh change) := by
  have bags : ∀ id, (s.dispatchInputBag? id).isSome →
      ((s.upsertAttributes fresh change).dispatchInputBag? id).isSome := by
    intro id has
    rw [dispatchInputBag?_upsertAttributes s fresh same]
    split
    case isTrue =>
      unfold dispatchInputBag? at has
      cases found : s.attributes? id with
      | none =>
        rw [found] at has
        cases has
      | some a =>
        rw [found] at has
        exact keeps a has
    case isFalse => exact has
  have lacking : BagsOfKnown s (s.upsertAttributes fresh change) := by
    intro a' mem lacks
    have nextId : (s.upsertAttributes fresh change).nextId = s.nextId := by
      rcases s.upsertAttributes_eq fresh change with ⟨attributes, stored⟩
      rw [stored]
    rw [nextId]
    rcases mem_upsertAttributes mem with rfl | ⟨a, -, here, rfl⟩ | ⟨old, -⟩ | ⟨old, -⟩
    · exact .inr known
    · rw [same, here]
      exact .inr known
    · exact .inl ⟨a', old, lacks, rfl⟩
    · exact .inl ⟨a', old, lacks, rfl⟩
  rcases s.upsertAttributes_eq fresh change with ⟨attributes, stored⟩
  rw [stored] at bags lacking ⊢
  exact Calm.of_attributes bags lacking

namespace Store

def LaterQueued (s : Store) (row q : NodeRun) : Prop :=
  q ∈ s.runs ∧ q.nodeId = row.nodeId ∧ q.runScopeId = row.runScopeId ∧ row.sequence < q.sequence ∧
    (q.state = .pending ∨ q.state = .stale) ∧ q.creationReason = .cascade ∧ q.claimedBy = none

def priorCascadeStales (s : Store) (row : NodeRun) : List Id :=
  (s.runs.filter fun r =>
    r.nodeId = row.nodeId && r.runScopeId = row.runScopeId && r.sequence < row.sequence &&
      r.state = .stale && r.creationReason = .cascade && r.claimedBy.isNone).map (·.id)

/-- A source of the run is missing, and its node's policy for that does not settle the run. -/
def KeptAtGate (s : Store) (args : RunArgs) (row : NodeRun) : Prop :=
  (∃ carry error, buildResolvedBagAtGateEval args row carry s = (.ok (.error error), s) ∧
    error.isMissingSource) ∧
  ∃ node spec policy, s.node? row.nodeId = some node ∧ s.template? node.instanceId = some spec ∧
    lookupPolicyForNode (spec.lookupNodeDef node.nodeType) "template_resolution_failed" "" =
      some policy ∧
    (policy.action = .retry ∨ policy.action = .releaseAndRequeue)

end Store

def NodeRun.passed (runId : Id) (enqueuedAt : Nat) (r : NodeRun) : NodeRun :=
  if r.id = runId && r.state = .pending then { r with state := .stale, enqueuedAt } else r

/-- A change of the runs and their bags, of which none is lost. -/
structure MovesRuns (s s' : Store) : Prop where
  nodes : s'.nodes = s.nodes
  instances : s'.instances = s.instances
  bags : ∀ id, (s.dispatchInputBag? id).isSome → (s'.dispatchInputBag? id).isSome
  attributes : BagsOfKnown s s'
  scopes : s'.runScopes = s.runScopes
  handles : s'.claimHandles = s.claimHandles
  holders : s'.claimHolders = s.claimHolders

/-- A pending run is let through its gate. -/
structure Opens (row : NodeRun) (s s' : Store) : Prop extends MovesRuns s s' where
  known : s.run? row.id = some row
  pending : row.state = .pending
  nextId : s'.nextId = s.nextId
  runs : ∃ enqueuedAt, s'.runs = s.runs.map (NodeRun.passed row.id enqueuedAt)

/-- The gate of the run clears: it is the only one past its gate, and its bag is stored. -/
structure PassesGate (row : NodeRun) (s s' : Store) : Prop extends Opens row s s' where
  alone : ∀ r ∈ s.runs, r.sameNodeAndScope row → r.id ≠ row.id → r.state.isAdvanced = false
  bag : (s'.dispatchInputBag? row.id).isSome

inductive Prunes : Store → Store → Prop where
  | superseded {s : Store} (row q : NodeRun) (known : s.run? row.id = some row)
      (pending : row.state = .pending) (mode : s.cascadeModeOf row = .mostRecent)
      (later : s.LaterQueued row q) : Prunes s (s.deleteRuns [row.id])
  | duplicate {s : Store} (row : NodeRun) (known : s.run? row.id = some row)
      (pending : row.state = .pending)
      (mode : s.cascadeModeOf row = .idempotentQueue ∨ s.cascadeModeOf row = .idempotentSettled) :
      Prunes s (s.deleteRuns [row.id])
  | prior {s : Store} (row : NodeRun) (known : s.run? row.id = some row)
      (pending : row.state = .pending) (mode : s.cascadeModeOf row = .mostRecent) :
      Prunes s (s.deleteRuns (s.priorCascadeStales row))

/-- A run is added behind its gate, with its bag. -/
structure Adds (row : NodeRun) (s s' : Store) : Prop extends MovesRuns s s' where
  fresh : s.nextId ≤ row.id
  known : row.id < s'.nextId
  stale : row.state = .stale
  runs : s'.runs = s.runs ++ [row]
  bag : (s'.dispatchInputBag? row.id).isSome

/-- A child run is started, where its node has no other run in flight in the scope. -/
structure Spawns (row : NodeRun) (s s' : Store) : Prop extends Adds row s s' where
  alone : ∀ r ∈ s.runs, r.sameNodeAndScope row → r.state.isInFlight = false

def Store.Underway (s : Store) (runId : Id) : Prop :=
  ∀ r ∈ s.runs, r.id = runId → r.state = .running ∨ r.state = .held ∨ r.state.isTerminal

structure OpensScope (parentId : Id) (s s' : Store) : Prop where
  parent : parentId < s.nextId ∧ s.Underway parentId
  runs : s'.runs = s.runs
  nodes : s'.nodes = s.nodes
  instances : s'.instances = s.instances
  nextId : s'.nextId = s.nextId
  attributes : s'.attributes = s.attributes
  scopes : ∃ scope : RunScope, scope.parentNodeRunId = some parentId ∧
    s'.runScopes = s.runScopes ++ [scope]
  handles : s'.claimHandles = s.claimHandles
  holders : s'.claimHolders = s.claimHolders

/--
When a gate may be tried; the rule of the cascade mode, which prunes other runs, may not end it.
-/
structure Turn where
  holds : Store → NodeRun → Prop
  pruned : ∀ {s s' row}, holds s row → Prunes s s' → ∀ r ∈ s'.runs, r.core = row.core → holds s' r

def anytime : Turn := ⟨fun _ _ => True, fun _ _ _ _ _ => trivial⟩

inductive RunChange (turn : Turn) (args : RunArgs) (s s' : Store) : Prop where
  | calm (calm : Calm s s')
  | clears (row : NodeRun) (clears : PassesGate row s s') (inTurn : turn.holds s row)
  | keeps (row : NodeRun) (opens : Opens row s s') (kept : s.KeptAtGate args row)
      (inTurn : turn.holds s row)
  | prunes (prunes : Prunes s s')
  | spawns (row : NodeRun) (spawns : Spawns row s s')
  | scopes (parentId : Id) (opens : OpensScope parentId s s')

variable {turn : Turn}

theorem NodeRun.passed_id (runId : Id) (t : Nat) (r : NodeRun) : (r.passed runId t).id = r.id := by
  unfold passed
  split <;> rfl

theorem NodeRun.passed_of_ne {t : Nat} (started : r.state ≠ .pending) : r.passed runId t = r := by
  unfold passed
  simp [started]

theorem NodeRun.passed_of_pending {t : Nat} (pending : (r.passed runId t).state = .pending) :
    r.passed runId t = r := by
  unfold passed at pending ⊢
  split at pending
  · cases pending
  · rename_i other
    exact if_neg other

theorem Opens.sound (opens : Opens row s s') (sound : s.RunsSound) : s'.RunsSound := by
  rcases opens.runs with ⟨t, runs⟩
  refine sound.of_map runs opens.nextId
    (opens.attributes.sound (Nat.le_of_eq opens.nextId.symm) sound) opens.handles opens.holders
    (fun r _ => ?_) fun r mem pending => ?_
  · unfold passed
    split <;> rfl
  · have same := passed_of_pending pending
    rw [same] at pending ⊢
    exact ⟨pending, (sound.queued r mem pending).2⟩

theorem sound_deleteRuns (sound : s.RunsSound) (ids : List Id) : (s.deleteRuns ids).RunsSound := by
  refine ⟨?_, ?_, ?_, fun a mem => sound.bags a (mem_filter.mp mem).1,
    (Detached.deleteRuns s ids sound.free).1⟩
  · refine List.Nodup.sublist ?_ sound.distinct
    simp only [deleteRuns]
    rw [map_key_of_map (fun r => by split <;> rfl)]
    exact List.Sublist.map _ filter_sublist
  · intro r' mem
    rcases mem_deleteRuns mem with ⟨r, old, same, -⟩
    have id : r'.id = r.id := congrArg (·.id) same
    rw [id]
    exact sound.known r old
  · intro r' mem pending
    rcases mem_deleteRuns mem with ⟨r, old, same, -⟩
    have reason : r'.creationReason = r.creationReason := congrArg (·.creationReason) same
    have claimedBy : r'.claimedBy = r.claimedBy := congrArg (·.claimedBy) same
    have state : r'.state = r.state := congrArg (·.state) same
    rw [reason, claimedBy]
    exact sound.queued r old (state.symm.trans pending)

theorem Adds.mem_runs (adds : Adds row s s') (mem : r ∈ s'.runs) : r ∈ s.runs ∨ r = row := by
  rw [adds.runs] at mem
  simpa using mem

theorem Adds.mayHold (adds : Adds row s s') (may : s.MayHold runId) : s'.MayHold runId := by
  refine ⟨Nat.lt_trans (Nat.lt_of_lt_of_le may.1 adds.fresh) adds.known, ?_⟩
  intro r mem same pending
  rcases adds.mem_runs mem with old | rfl
  · exact may.2 r old same pending
  · rw [adds.stale] at pending
    cases pending

theorem Adds.sound (adds : Adds row s s') (sound : s.RunsSound) : s'.RunsSound := by
  have later : s.nextId ≤ s'.nextId := Nat.le_of_lt (Nat.lt_of_le_of_lt adds.fresh adds.known)
  refine ⟨?_, ?_, ?_, adds.attributes.sound later sound,
    sound.free.of_mayHold (fun _ => adds.mayHold) adds.handles adds.holders⟩
  · rw [adds.runs]
    exact nodup_key_concat sound.distinct fun r mem =>
      Nat.ne_of_lt (Nat.lt_of_lt_of_le (sound.known r mem) adds.fresh)
  · intro r mem
    rcases adds.mem_runs mem with old | rfl
    · exact Nat.lt_of_lt_of_le (sound.known r old) later
    · exact adds.known
  · intro r mem pending
    rcases adds.mem_runs mem with old | rfl
    · exact sound.queued r old pending
    · rw [adds.stale] at pending
      cases pending

theorem OpensScope.sound {parentId : Id} (opens : OpensScope parentId s s') (sound : s.RunsSound) :
    s'.RunsSound := by
  refine sound.of_map (f := id) (opens.runs.trans (map_id _).symm) opens.nextId ?_ opens.handles
    opens.holders (fun _ _ => rfl) fun r mem pending => ⟨pending, (sound.queued r mem pending).2⟩
  rw [opens.attributes, opens.nextId]
  exact sound.bags

theorem RunChange.sound (change : RunChange turn args s s') (sound : s.RunsSound) :
    s'.RunsSound := by
  cases change with
  | calm calm => exact calm.sound sound
  | clears row clears => exact clears.toOpens.sound sound
  | keeps row opens _ => exact opens.sound sound
  | prunes prunes => cases prunes <;> exact sound_deleteRuns sound _
  | spawns row spawns => exact spawns.toAdds.sound sound
  | scopes parentId opens => exact opens.sound sound

theorem RunChange.static (change : RunChange turn args s s') :
    s'.nodes = s.nodes ∧ s'.instances = s.instances := by
  cases change with
  | calm calm => exact ⟨calm.nodes, calm.instances⟩
  | clears row clears => exact ⟨clears.nodes, clears.instances⟩
  | keeps row opens _ => exact ⟨opens.nodes, opens.instances⟩
  | prunes prunes => cases prunes <;> exact ⟨rfl, rfl⟩
  | spawns row spawns => exact ⟨spawns.nodes, spawns.instances⟩
  | scopes parentId opens => exact ⟨opens.nodes, opens.instances⟩

def RunChanges (turn : Turn) (args : RunArgs) : Store → Store → Prop :=
  Relation.ReflTransGen (RunChange turn args)

theorem RunChanges.sound (changes : RunChanges turn args s s') (sound : s.RunsSound) :
    s'.RunsSound := by
  induction changes with
  | refl => exact sound
  | tail _ change ih => exact change.sound ih

/-- Where the table is sound, runs change only in the listed ways. -/
def Tidy (turn : Turn) (args : RunArgs) (s s' : Store) : Prop := s.RunsSound →
    RunChanges turn args s s'

instance (turn : Turn) (args : RunArgs) : IsPreorder Store (Tidy turn args) where
  refl _ _ := .refl
  trans _ _ _ first second sound :=
    (first sound).trans (second ((first sound).sound sound))

namespace Tidy

variable {args : RunArgs} {s s' : Store}

theorem of_change (change : s.RunsSound → RunChange turn args s s') : Tidy turn args s s' :=
  fun sound => .single (change sound)

theorem of_calm (calm : Calm s s') : Tidy turn args s s' := of_change fun _ => .calm calm

theorem updateRuns {guard : Store → NodeRun → Bool}
    (evolves : ∀ now (r : NodeRun), r.Evolves (change now r)) :
    Steps (Tidy turn args) (updateRuns guard change) :=
  steps_mono (Calm.updateRuns evolves) fun _ _ => of_calm

theorem updateState (id : Id) (state : NodeState) (sig : Option String)
    (gate : reason ≠ .gateCleared) (claim : reason ≠ .dispatchClaimed)
    (park : reason ≠ .handlerPark) : Steps (Tidy turn args)
    (Nodes.updateState id state reason sig) := by
  intro s
  rcases Nodes.updateState_cases id state reason sig s with
    ⟨e, failed⟩ | ⟨⟨row, found, allowed⟩, moved⟩
  · rw [failed]
    exact refl s
  · rw [moved]
    refine of_change fun sound => .calm (Calm.of_map fun r mem => ?_)
    split
    case isTrue same =>
      -- the ids are distinct, so the row that moves is the one that was found
      have this : r = row := by
        have here := sound.run?_of_mem mem
        rw [same] at here
        exact Option.some.inj (here.symm.trans found)
      subst this
      exact ⟨rfl, .inl rfl, drifts_of_nextState allowed gate claim park⟩
    case isFalse => exact .refl r

theorem recordRunTreeChanged (id : Id) {state : NodeState} (sig : String) (changed : Bool)
    (terminal : state.isTerminal) : Steps (Tidy turn args)
    (recordRunTreeChanged id state sig changed) :=
  steps_bind (updateRuns fun _ _ => ⟨rfl, .inl rfl, drifts_of_isTerminal _ terminal⟩) fun _ =>
    steps_check fun _ => steps_pure _

theorem removeForNode (nodeId runScopeId : Id) (supervisorId : String) :
    Steps (Tidy turn args) (Queue.removeForNode nodeId runScopeId supervisorId) :=
  steps_bind (updateRuns fun _ _ => .of_state rfl (.inr rfl) rfl) fun _ => steps_pure _

theorem wake (id : Id) (gate : reason ≠ .gateCleared) (claim : reason ≠ .dispatchClaimed)
    (park : reason ≠ .handlerPark) : Steps (Tidy turn args) (resumeParkedRunInTx id reason) := by
  have resumed : Steps (Tidy turn args) (Queue.resumeParked id) :=
    steps_bind (updateRuns fun _ _ => .of_state rfl (.inr rfl) rfl) fun _ => steps_pure _
  refine steps_bind resumed fun _ => ?_
  exact steps_ite (fun _ => steps_bind (updateState _ _ _ gate claim park) fun _ =>
    steps_pure _) fun _ => steps_pure _

theorem pend (nodeId runScopeId frameId : Id) :
    Steps (Tidy turn args) (Nodes.createCascadePending nodeId runScopeId frameId) := by
  intro s
  rcases Nodes.createCascadePending_row nodeId runScopeId frameId s with used | ⟨executor, inserted⟩
  · rw [used]
    exact of_calm (.of_same rfl rfl rfl (Nat.le_succ _) rfl rfl rfl rfl)
  · rw [inserted]
    refine of_calm { Calm.refl s with
      later := Nat.le_succ _, forth := fun r mem => ?_, back := fun r mem => ?_
      distinct := fun apart known => ?_, attributes := .of_same rfl }
    · exact ⟨r, mem_append_left _ mem, .refl r⟩
    · rcases mem_append.mp mem with old | new
      · exact .inl ⟨r, old, .refl r⟩
      · rw [mem_singleton.mp new]
        refine .inr ⟨Nat.le_refl _, Nat.lt_succ_self _, .inl rfl, rfl, rfl, ?_⟩
        intro q old same
        have here : q.nodeId = nodeId ∧ q.runScopeId = runScopeId :=
          (sameNodeAndScope_iff _ _).mp same
        have before := lt_nextSequence old
        rwa [here.1, here.2] at before
    · exact nodup_key_concat apart fun r mem => Nat.ne_of_lt (known r mem)

theorem upsert (nodeId : Id) (data : Bag) (known : runId < s.nextId) :
    Calm s (NodeAttributes.upsert runId nodeId data s).2 :=
  Calm.upsertAttributes known (fun _ => rfl) fun _ has => has

theorem setDispatchInputBag (nodeId : Id) (bag : Bag) (known : runId < s.nextId) :
    Calm s (NodeAttributes.setDispatchInputBag runId nodeId bag s).2 :=
  Calm.upsertAttributes known (fun _ => rfl) fun _ _ => rfl

theorem waitInsert (row : WaitRow) : Steps (Tidy turn args) (WaitSet.insert row) := by
  refine steps_write fun s => ?_
  split
  · exact refl s
  · exact of_calm (.of_same rfl rfl rfl (Nat.le_refl _) rfl rfl rfl rfl)

theorem markDrained (frameId runId : Id) :
    Steps (Tidy turn args) (WaitSet.markDrainedBySender frameId runId) :=
  steps_write fun _ => of_calm (.of_same rfl rfl rfl (Nat.le_refl _) rfl rfl rfl rfl)

theorem logDelivery (d : Delivery) : Steps (Tidy turn args) (logDelivery d) :=
  steps_write fun _ => of_calm (.of_same rfl rfl rfl (Nat.le_refl _) rfl rfl rfl rfl)

theorem close (id : Id) : Steps (Tidy turn args) (RunScopes.close id) := by
  refine steps_write fun s => of_calm (.aside rfl rfl rfl (Nat.le_refl _) rfl ?_
    (fun h mem _ bound => ⟨h, mem, bound⟩) fun h mem => ⟨h, mem, rfl⟩)
  intro scope' mem
  rcases mem_map.mp mem with ⟨scope, old, rfl⟩
  refine ⟨scope, old, ?_⟩
  split <;> exact ⟨rfl, rfl⟩

theorem claiming : Claiming (Tidy turn args) := Calm.claiming.mono fun _ _ => of_calm

end Tidy

end Rimsky
