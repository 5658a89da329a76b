import Rimsky.Runtime.SettleCalls

/-!
# Walks

A signal is told, a gate evaluated or a claim resolved, with all that follows from it to any depth.
The state machine refuses none of the moves this asks for; signals and gates release no claim; and
nothing more is said for a run that has settled, however many walks others make.
-/

namespace Rimsky

open Transaction

variable {s₀ s : Store}

namespace RunAction

variable (sound : s₀.RunsSound) (reached : Reaches next (fun s a => a.Enabled s) s₀ s)

include sound reached

theorem sound_of_reaches : s.RunsSound :=
  reached.invariant (fun _ _ _ before enabled taken =>
    (next_effect before enabled taken).sound before) sound

/-- A run that waits for its gate is nobody's yet: no supervisor has it, and no claim is for it. -/
theorem pending_unowned {r : NodeRun} (mem : r ∈ s.runs) (pending : r.state = .pending) :
    r.claimedBy = none ∧ (∀ h ∈ s.claimHandles, h.nodeRunId ≠ some r.id) ∧
      ∀ h ∈ s.claimHolders, h.holderRunId ≠ r.id := by
  have sound := sound_of_reaches sound reached
  refine ⟨(sound.queued r mem pending).2, fun h handle bound => ?_, fun h holder bound => ?_⟩
  · exact (sound.free.handles h handle r.id bound).2 r mem rfl pending
  · exact (sound.free.holders h holder).2 r mem bound.symm pending

end RunAction

inductive Walk where
  | signal (sender : Sender) (sig : Signal) (visited : List Id) (filter : String → Bool)
  | gate (runId : Id)
  | resolve (td : TerminalDecision)

namespace Walk

variable {args : RunArgs} {fuel : Nat}

def perform (args : RunArgs) (rec : Rec) : Walk → Tx Unit
  | .signal sender sig visited filter => do
    let _ ← emitSignalWithFilter args rec sender sig visited filter
  | .gate runId => rec.evaluateOneGate runId
  | .resolve td => do
    let _ ← rec.resolveClaimHandleTerminal td

def sender? : Walk → Option Id
  | .signal sender _ _ _ => some sender.nodeRunId
  | .gate _ | .resolve _ => none

def resolves : Walk → Bool
  | .resolve _ => true
  | .signal _ _ _ _ | .gate _ => false

/-- One walk after the other, each in a transaction of its own. -/
def next (args : RunArgs) (fuel : Nat) (s : Store) (walk : Walk) : Option Store :=
  some (commit (walk.perform args (knot args fuel)) s).2

theorem run_steps {R : Store → Store → Prop} [IsPreorder Store R] {allowed : Walk → Prop}
    (each : ∀ walk, allowed walk → Steps R (walk.perform args (knot args fuel)))
    (run : Reaches (next args fuel) (fun _ => allowed) s₀ s) : R s₀ s := by
  refine run.invariant (I := R s₀) (fun s walk s' before may taken => ?_) (refl s₀)
  injection taken with taken
  rcases commit_store (walk.perform args (knot args fuel)) s with failed | done
  · rwa [← taken, failed]
  · rw [← taken, done]
    exact trans_of R before (each walk may s)

/-- Wherever the transactions about runs have led, the state machine aborts no walk. -/
theorem not_refused (sound : s₀.RunsSound)
    (reached : Reaches RunAction.next (fun s a => a.Enabled s) s₀ s) (args : RunArgs) (fuel : Nat)
    (walk : Walk) : (walk.perform args (knot args fuel) s).1 ≠ .error .illegalTransition := by
  have c := Legal.composes args
  have nested := RecLegal.knot args fuel
  have legal : Legal args (walk.perform args (knot args fuel)) := by
    cases walk with
    | signal sender sig visited filter =>
      exact c.chain ((Legal.emits nested.gate sender).emitSignalWithFilter c sig visited filter)
        fun _ => c.value _
    | gate runId => exact nested.gate runId
    | resolve td => exact c.chain (nested.resolve td) fun _ => c.value _
  exact legal.allowed s (RunAction.sound_of_reaches sound reached)

/-- Signals and gates queue no verb, and claims only lose the runs they were for. -/
theorem claims_spared (free : s₀.PendingFree)
    (run : Reaches (next args fuel) (fun _ walk => walk.resolves = false) s₀ s) :
    s.outbox = s₀.outbox ∧ s.claimHolders.Sublist s₀.claimHolders ∧
      s.claimHandles.map (·.unbound fun _ => true) =
        s₀.claimHandles.map (·.unbound fun _ => true) := by
  have each : ∀ walk : Walk, walk.resolves = false →
      Steps Detached (walk.perform args (knot args fuel)) := by
    intro walk spares
    cases walk with
    | signal sender sig visited filter =>
      exact steps_bind (Detached.walking.emitSignalWithFilter (Detached.gate args fuel)
        (fun _ _ => Detached.logDelivery _) sig visited filter) fun _ => steps_pure _
    | gate runId => exact Detached.gate args fuel runId
    | resolve td => cases spares
  rcases run_steps each run free with ⟨-, gone, culled⟩
  refine ⟨culled.outbox, culled.holders ▸ List.filter_sublist, ?_⟩
  rw [culled.handles, map_unbound_map]
  simp only [Bool.or_true]

/-- A run that has settled stays settled, and nobody is told more on its behalf than by itself. -/
theorem settled_silent {runId : Id} (settled : s₀.isSettled runId)
    (run : Reaches (next args fuel) (fun _ walk => walk.sender? ≠ some runId) s₀ s) (nodeId : Id) :
    s.isSettled runId ∧ s.signalsTo runId nodeId = s₀.signalsTo runId nodeId := by
  have each : ∀ walk : Walk, walk.sender? ≠ some runId →
      Steps (Silent runId (Delivery.reaches runId nodeId))
        (walk.perform args (knot args fuel)) := by
    intro walk other
    have nested := Silent.reaching args runId nodeId fuel
    cases walk with
    | signal sender sig visited filter =>
      have other : sender.nodeRunId ≠ runId := fun same => other (congrArg some same)
      exact steps_bind (Silent.footprint.emitSignalWithFilter nested.gate
        (fun _ _ => Silent.logDelivery (by simp [Delivery.reaches, other])) sig visited filter)
          fun _ => steps_pure _
    | gate runId => exact nested.gate runId
    | resolve td => exact steps_bind (nested.resolve td) fun _ => steps_pure _
  exact (run_steps each run).signalsTo settled

end Walk

namespace Chain

/--
The report waits for its turn in the first scope, and the source it waited for has succeeded. In
the second scope a report is running that holds a claim.
-/
def reportWaits : Store :=
  let run : NodeRun := { id := 10, nodeId := 1, enqueuedAt := 0, state := .fresh, sequence := 1
                         creationReason := .cascade, frameId := 1, runScopeId := 1 }
  { store (report []) with
    runScopes := [{ id := 1, graphName := "main", instanceId := 1 },
      { id := 2, graphName := "main", instanceId := 1 }]
    runs := [run, { run with id := 11, nodeId := 2, state := .running, runScopeId := 2 },
      { run with id := 12, nodeId := 2, state := .pending }]
    attributes := [{ nodeRunId := 10, nodeId := 1, data := [("total", .num "4")], updatedAt := 0 }]
    waitSet := [{
      frameId := 1, receiverRunId := 12, senderRunId := 10, topicKind := "terminal"
      drainedAt := some 0 }]
    claimHandles := [{
      id := 13, lockKind := .claimScope, holderSupervisorId := none, nodeRunId := some 11
      holderNodeId := 2, claimedAt := 0, expiresAt := 10 }]
    claimHolders := [{ id := 14, claimHandleId := 13, holderRunId := 11 }]
    nextId := 15 }

theorem reportWaits_sound : reportWaits.RunsSound :=
  ⟨by decide, by decide, by decide, by decide, by decide⟩

/-- The gate of the report opens. -/
theorem reportWaits_opens : ∃ s', Walk.next args 4 reportWaits (.gate 12) = some s' ∧
    (s'.run? 12).map (·.state) = some .stale :=
  ⟨_, rfl, by decide +kernel⟩

theorem pending_unowned_report : ∃ r ∈ reportWaits.runs, r.state = .pending ∧ r.claimedBy = none ∧
    ∀ h ∈ reportWaits.claimHandles, h.nodeRunId ≠ some r.id := by
  have waits : ∃ r ∈ reportWaits.runs, r.state = .pending := by decide
  rcases waits with ⟨r, mem, pending⟩
  have unowned := RunAction.pending_unowned reportWaits_sound (.refl _) mem pending
  exact ⟨r, mem, pending, unowned.1, unowned.2.1⟩

theorem not_refused_report : ∃ s', Walk.next args 4 reportWaits (.gate 12) = some s' ∧
    (s'.run? 12).map (·.state) = some .stale ∧
    ((Walk.gate 12).perform args (knot args 4) reportWaits).1 ≠ .error .illegalTransition := by
  rcases reportWaits_opens with ⟨s', taken, opened⟩
  exact ⟨s', taken, opened, Walk.not_refused reportWaits_sound (.refl _) args 4 (.gate 12)⟩

theorem claims_spared_report : ∃ s', Walk.next args 4 reportWaits (.gate 12) = some s' ∧
    (s'.run? 12).map (·.state) = some .stale ∧ s'.outbox = reportWaits.outbox ∧
      s'.claimHolders.Sublist reportWaits.claimHolders ∧
      s'.claimHandles.map (·.unbound fun _ => true) =
        reportWaits.claimHandles.map (·.unbound fun _ => true) := by
  rcases reportWaits_opens with ⟨s', taken, opened⟩
  exact ⟨s', taken, opened,
    Walk.claims_spared reportWaits_sound.free (.tail (.gate 12) (.refl _) rfl taken)⟩

theorem settled_silent_source : ∃ s', Walk.next args 4 reportWaits (.gate 12) = some s' ∧
    (s'.run? 12).map (·.state) = some .stale ∧ s'.signalsTo 10 2 = reportWaits.signalsTo 10 2 := by
  rcases reportWaits_opens with ⟨s', taken, opened⟩
  have settled : reportWaits.isSettled 10 := ⟨by decide, by decide⟩
  exact ⟨s', taken, opened, (Walk.settled_silent settled (.tail (.gate 12)
    (.refl _) nofun taken) 2).2⟩

end Chain

end Rimsky
