import Rimsky.Runtime.LastRound
import Rimsky.Runtime.PastGate

/-!
# The rounds of a sequenced node

The rule of sequenced mode drops and deletes nothing, so every round is run. Their order is that
in which their gates happen to be tried: a gate that is open lets its run through, whether or not
an earlier run of the node and scope is still pending. Where the gates of later rounds that are
tried early stay shut, rounds leave in order.
-/

namespace Rimsky

open Transaction List Store NodeRun

variable {args : RunArgs} {s s' : Store} {row : NodeRun} {nodeId runScopeId : Id}

namespace Store

def FirstPending (s : Store) (row : NodeRun) : Prop :=
  ∀ r ∈ s.runs, r.sameNodeAndScope row → r.sequence < row.sequence → r.state ≠ .pending

instance (s : Store) (row : NodeRun) : Decidable (s.FirstPending row) :=
  inferInstanceAs (Decidable (∀ _ ∈ _, _))

/-- Whether the gate of the run is tried in turn, if it is a run of this node and scope. -/
def inTurn (s : Store) (nodeId runScopeId runId : Id) : Bool :=
  (s.run? runId).all fun row =>
    !(row.nodeId = nodeId && row.runScopeId = runScopeId) || s.FirstPending row

/-- No run of the node and scope is pending that comes before this one. -/
def Leads (s : Store) (nodeId runScopeId : Id) (q : NodeRun) : Prop :=
  ∀ r ∈ s.runs, r.nodeId = nodeId → r.runScopeId = runScopeId → r.state = .pending →
    q.sequence ≤ r.sequence

/-- No run of the node and scope is pending while a later cascade is past its gate. -/
def RoundsInOrder (s : Store) (nodeId runScopeId : Id) : Prop :=
  ∀ q ∈ s.pastGate (· = .cascade) nodeId runScopeId, s.Leads nodeId runScopeId q

end Store

theorem passGate_of_sequenced (mode : s.cascadeModeOf row = .sequenced) (resolved : Bag) :
    passGate args row resolved s =
      (Nodes.hasAdvancedSiblingInScope row.nodeId row.runScopeId row.id >>= fun advanced =>
        if advanced then pure () else clearGate row resolved) s := by
  change (applyCascadeModeRule args row resolved (s.cascadeModeOf row) >>= fun drop =>
    if drop then Nodes.dropPendingRun row.id
    else Nodes.hasAdvancedSiblingInScope row.nodeId row.runScopeId row.id >>= fun advanced =>
      if advanced then pure () else clearGate row resolved) s = _
  rw [mode]
  rfl

theorem passGate_keeps_of_sequenced (mode : s.cascadeModeOf row = .sequenced) (resolved : Bag) :
    KeepsRuns s (passGate args row resolved s).2 := by
  rw [passGate_of_sequenced mode]
  rcases passUnlessAdvanced_cases row resolved s with stays | ⟨-, clears⟩
  · rw [stays]
    exact refl s
  · rw [clears]
    exact KeepsRuns.clearGate row resolved s

/-! ## Gates that are tried in turn -/

/-- The gates of one node and scope are tried in the order of their runs. -/
def turnOf (nodeId runScopeId : Id) : Turn where
  holds s row := row.nodeId = nodeId → row.runScopeId = runScopeId → s.FirstPending row
  pruned := by
    intro s s' row first prunes r' _ core node scope r mem place before
    have sameNode : r'.nodeId = row.nodeId := congrArg (·.nodeId) core
    have sameScope : r'.runScopeId = row.runScopeId := congrArg (·.runScopeId) core
    have sequence : r'.sequence = row.sequence := congrArg (·.sequence) core
    rcases prunes.back.2 r mem with ⟨q, old, same⟩
    have state : r.state = q.state := congrArg (·.state) same
    rw [state]
    rw [sameNodeAndScope_iff, sameNode, sameScope] at place
    refine first (sameNode ▸ node) (sameScope ▸ scope) q old ?_ ?_
    · rw [sameNodeAndScope_iff]
      exact ⟨(congrArg (·.nodeId) same).symm.trans place.1,
        (congrArg (·.runScopeId) same).symm.trans place.2⟩
    · have earlier : r.sequence = q.sequence := congrArg (·.sequence) same
      rwa [← earlier, ← sequence]

/-- The callbacks of a computation that leaves out the gates whose turn it is not. -/
def orderlyKnot (nodeId runScopeId : Id) (args : RunArgs) : Nat → Rec
  | 0 => knot args 0
  | fuel + 1 => {
      evaluateOneGate := fun runId => do
        if ← read (·.inTurn nodeId runScopeId runId) then
          evaluateOneGateBody args (orderlyKnot nodeId runScopeId args fuel) runId
      resolveClaimHandleTerminal :=
        resolveClaimHandleTerminalBody args (orderlyKnot nodeId runScopeId args fuel) }

theorem orderlyKnot_tidy (args : RunArgs) (fuel : Nat) :
    RecSteps (Tidy (turnOf nodeId runScopeId) args) (orderlyKnot nodeId runScopeId args fuel) := by
  induction fuel with
  | zero => exact ⟨fun _ => steps_fail _, fun _ => steps_fail _⟩
  | succ fuel ih =>
    refine ⟨fun runId => steps_read_bind fun s => ?_, fun td => ?_⟩
    · split
      case isTrue turn =>
        refine Tidy.evaluateOneGateBody_at ih.gate fun row found _ node scope => ?_
        simpa [inTurn, found, node, scope] using turn
      case isFalse => exact refl s
    · exact (Tidy.resolving ih).resolveClaimHandleTerminalBody (steps_composes _ _) td

/-- A pending run was pending before, or comes after all runs of its node and scope. -/
def WaitsInLine (s s' : Store) : Prop :=
  ∀ r' ∈ s'.runs, r'.state = .pending →
    (∃ r ∈ s.runs, r'.origin = r.origin ∧ r.state = .pending) ∨
      ∀ q ∈ s.runs, q.sameNodeAndScope r' → q.sequence < r'.sequence

theorem Store.Leads.later {q q' : NodeRun} (leads : s.Leads nodeId runScopeId q)
    (waiting : WaitsInLine s s') (known : q ∈ s.runs) (same : q'.origin = q.origin)
    (counted : q.counted (· = .cascade) nodeId runScopeId) : s'.Leads nodeId runScopeId q' := by
  intro r' here node scope waits
  have sequence : q'.sequence = q.sequence := congrArg (·.sequence) same
  rw [sequence]
  rcases waiting r' here waits with ⟨r, old, origin, pending⟩ | later
  · have sameNode : r'.nodeId = r.nodeId := congrArg (·.nodeId) origin
    have sameScope : r'.runScopeId = r.runScopeId := congrArg (·.runScopeId) origin
    have rank : r'.sequence = r.sequence := congrArg (·.sequence) origin
    rw [rank]
    exact leads r old (sameNode ▸ node) (sameScope ▸ scope) pending
  · refine (later q known ?_).le
    simp only [NodeRun.counted, Bool.and_eq_true, decide_eq_true_eq] at counted
    rw [sameNodeAndScope_iff, node, scope]
    exact ⟨counted.1.2, counted.2⟩

theorem Store.RoundsInOrder.step (waiting : WaitsInLine s s')
    (past : ∀ q' ∈ s'.pastGate (· = .cascade) nodeId runScopeId,
      (∃ q ∈ s.runs, q'.origin = q.origin ∧ s.Leads nodeId runScopeId q) ∨
        s'.Leads nodeId runScopeId q') : s'.RoundsInOrder nodeId runScopeId := by
  intro q' mem
  rcases past q' mem with ⟨q, known, same, leads⟩ | leads
  · exact leads.later waiting known same (counted_congr same ▸ (mem_pastGate.mp mem).2.1)
  · exact leads

theorem Store.RoundsInOrder.of_back (ordered : s.RoundsInOrder nodeId runScopeId)
    (waiting : ∀ r' ∈ s'.runs, r'.state = .pending →
      ∃ r ∈ s.runs, r'.origin = r.origin ∧ r.state = .pending)
    (past : ∀ q' ∈ s'.pastGate (· = .cascade) nodeId runScopeId,
      ∃ q ∈ s.pastGate (· = .cascade) nodeId runScopeId, q'.origin = q.origin) :
    s'.RoundsInOrder nodeId runScopeId := by
  refine .step (s := s) (fun r' mem waits => .inl (waiting r' mem waits)) fun q' mem => ?_
  rcases past q' mem with ⟨q, old, same⟩
  exact .inl ⟨q, (mem_pastGate.mp old).1, same, ordered q old⟩

/-- One run is moved, to a state that is not pending, and no run before it is pending. -/
theorem Store.RoundsInOrder.setOn (ordered : s.RoundsInOrder nodeId runScopeId) {runId : Id}
    {change : NodeRun → NodeRun} (origin : ∀ r, (change r).origin = r.origin)
    (moves : ∀ r, (change r).state ≠ .pending)
    (leads : ∀ r ∈ s.runs, r.id = runId → r.counted (· = .cascade) nodeId runScopeId →
      s.Leads nodeId runScopeId r) :
    ({ s with runs := s.runs.map (NodeRun.setOn runId change) } : Store).RoundsInOrder
      nodeId runScopeId := by
  refine .step (s := s) (fun r' mem waits => ?_) fun q' mem => ?_
  · rcases mem_map.mp mem with ⟨r, old, rfl⟩
    unfold NodeRun.setOn at waits ⊢
    split at waits
    · exact absurd waits (moves r)
    · rename_i other
      rw [if_neg other]
      exact .inl ⟨r, old, rfl, waits⟩
  · rcases mem_pastGate.mp mem with ⟨here, counted, advanced⟩
    rcases mem_map.mp here with ⟨q, old, rfl⟩
    unfold NodeRun.setOn at counted advanced ⊢
    by_cases this : q.id = runId
    · rw [if_pos this] at counted ⊢
      rw [counted_congr (origin q)] at counted
      exact .inl ⟨q, old, origin q, leads q old this counted⟩
    · rw [if_neg this] at counted advanced ⊢
      exact .inl ⟨q, old, rfl, ordered q (mem_pastGate.mpr ⟨old, counted, advanced⟩)⟩

theorem Calm.waitsInLine (calm : Calm s s') : WaitsInLine s s' := by
  intro r' mem waits
  rcases calm.back r' mem with ⟨r, old, evolves⟩ | begins
  · exact .inl ⟨r, old, evolves.origin, evolves.pending waits⟩
  · exact .inr begins.last

theorem Calm.roundsInOrder (calm : Calm s s') (ordered : s.RoundsInOrder nodeId runScopeId) :
    s'.RoundsInOrder nodeId runScopeId := by
  refine .step calm.waitsInLine fun q' mem => ?_
  rcases calm.pastGate_back q' mem with ⟨q, old, same⟩
  exact .inl ⟨q, (mem_pastGate.mp old).1, same, ordered q old⟩

theorem Opens.roundsInOrder (opens : Opens row s s') (sound : s.RunsSound)
    (inTurn : (turnOf nodeId runScopeId).holds s row)
    (ordered : s.RoundsInOrder nodeId runScopeId) :
    s'.RoundsInOrder nodeId runScopeId := by
  refine .step (s := s) (fun r' mem waits => ?_) fun q' mem => ?_
  · rcases opens.runs with ⟨t, runs⟩
    rw [runs] at mem
    rcases mem_map.mp mem with ⟨r, old, rfl⟩
    have same := passed_of_pending waits
    rw [same] at waits ⊢
    exact .inl ⟨r, old, rfl, waits⟩
  · rcases opens.pastGate_back sound q' mem with ⟨same, counted⟩ | ⟨q, old, same⟩
    · simp only [NodeRun.counted, Bool.and_eq_true, decide_eq_true_eq] at counted
      refine .inl ⟨row, mem_of_find?_eq_some opens.known, same, fun r here node scope waits => ?_⟩
      by_contra earlier
      refine inTurn counted.1.2 counted.2 r here ?_ (Nat.not_le.mp earlier) waits
      rw [sameNodeAndScope_iff, node, scope]
      exact ⟨counted.1.2.symm, counted.2.symm⟩
    · exact .inl ⟨q, (mem_pastGate.mp old).1, same, ordered q old⟩

theorem RunChange.roundsInOrder (change : RunChange (turnOf nodeId runScopeId) args s s')
    (sound : s.RunsSound) (ordered : s.RoundsInOrder nodeId runScopeId) :
    s'.RoundsInOrder nodeId runScopeId := by
  cases change with
  | calm calm => exact calm.roundsInOrder ordered
  | clears row clears inTurn => exact clears.toOpens.roundsInOrder sound inTurn ordered
  | keeps row opens _ inTurn => exact opens.roundsInOrder sound inTurn ordered
  | prunes prunes =>
    refine ordered.of_back (fun r' mem waits => ?_) ?_
    · rcases prunes.back.2 r' mem with ⟨r, old, core⟩
      exact ⟨r, old, congrArg (·.origin) core, (congrArg (·.state) core).symm.trans waits⟩
    · cases prunes <;> exact deleteRuns_pastGate_back _
  | spawns row spawns =>
    have waiting : ∀ r' ∈ s'.runs, r'.state = .pending → r' ∈ s.runs := by
      intro r' mem waits
      rcases spawns.mem_runs mem with old | rfl
      · exact old
      · rw [spawns.stale] at waits
        cases waits
    refine .step (s := s) (fun r' mem waits => .inl ⟨r', waiting r' mem waits, rfl, waits⟩)
      fun q' mem => ?_
    rcases spawns.pastGate_back q' mem with ⟨-, counted⟩ | ⟨q, old, same⟩
    · -- a child is started where no run of its node is in flight, so none is pending there
      refine .inr fun r here node scope waits => ?_
      simp only [NodeRun.counted, Bool.and_eq_true, decide_eq_true_eq] at counted
      have settled := spawns.alone r (waiting r here waits)
        ((sameNodeAndScope_iff _ _).mpr ⟨node.trans counted.1.2.symm, scope.trans counted.2.symm⟩)
      rw [waits] at settled
      cases settled
    · exact .inl ⟨q, (mem_pastGate.mp old).1, same, ordered q old⟩
  | scopes parentId opens =>
    unfold Store.RoundsInOrder Store.Leads pastGate
    rw [opens.runs]
    exact ordered

theorem RunChanges.roundsInOrder (changes : RunChanges (turnOf nodeId runScopeId) args s s')
    (sound : s.RunsSound) (ordered : s.RoundsInOrder nodeId runScopeId) :
    s'.RoundsInOrder nodeId runScopeId := by
  induction changes with
  | refl => exact ordered
  | tail before change ih => exact change.roundsInOrder (RunChanges.sound before sound) ih

namespace RunAction

variable {a : RunAction}

/-- The step as it would be if the gates of the node and scope were tried in turn only. -/
def orderlyNext (nodeId runScopeId : Id) (s : Store) (a : RunAction) : Option Store :=
  let m := match a.step with
    | .gate runId => (orderlyKnot nodeId runScopeId a.args (a.fuel + 1)).evaluateOneGate runId
    | step => step.perform a.args (orderlyKnot nodeId runScopeId a.args a.fuel)
  some (commit m s).2

/--
Gates of the node and scope that are tried out of turn make no difference to runs, runs created
stale are no cascades, and a delegating caller succeeds only while it is past its gate.
-/
def keepsOrder (nodeId runScopeId : Id) (s : Store) (a : RunAction) : Bool :=
  (a.next s).map (·.runs) = (a.orderlyNext nodeId runScopeId s).map (·.runs) &&
    match a.step with
    | .create input => input.creationReason ≠ .cascade
    | .terminal acq _ _ t =>
      !(t.kind = .complete && acq.nodeDef.any (·.isSubgraphEntryAbsorbed)) ||
        s.runs.all fun r => !(r.id = acq.nodeRunId && r.counted (· = .cascade) nodeId runScopeId) ||
          r.state.isAdvanced
    | _ => true

theorem orderlyNext_effect (sound : s.RunsSound) (enabled : a.Enabled s)
    (taken : a.orderlyNext nodeId runScopeId s = some s') :
    a.Effect (turnOf nodeId runScopeId) s s' := by
  injection taken with taken
  rcases a with ⟨args, fuel, step⟩
  have nested : RecSteps (Tidy (turnOf nodeId runScopeId) args)
      (orderlyKnot nodeId runScopeId args fuel) :=
    orderlyKnot_tidy args fuel
  by_cases gate : ∃ runId, step = .gate runId
  · rcases gate with ⟨runId, rfl⟩
    dsimp only at taken
    rcases commit_store ((orderlyKnot nodeId runScopeId args (fuel + 1)).evaluateOneGate runId)
      s with failed | done
    · exact .tidy (failed.symm.trans taken ▸ .refl)
    · exact .tidy (done.symm.trans taken ▸ (orderlyKnot_tidy args (fuel + 1)).gate runId s sound)
  · have effect := perform_effect (a := ⟨args, fuel, step⟩) nested
      (fun runId is => absurd ⟨runId, is⟩ gate) sound enabled
    cases step with
    | gate runId => exact absurd ⟨runId, rfl⟩ gate
    | _ => exact taken ▸ effect

theorem Effect.roundsInOrder (effect : a.Effect (turnOf nodeId runScopeId) s s')
    (sound : s.RunsSound) (enabled : a.Enabled s) (keeps : a.keepsOrder nodeId runScopeId s)
    (ordered : s.RoundsInOrder nodeId runScopeId) : s'.RoundsInOrder nodeId runScopeId := by
  unfold keepsOrder at keeps
  rw [Bool.and_eq_true] at keeps
  replace keeps := keeps.2
  cases effect with
  | tidy changes => exact changes.roundsInOrder sound ordered
  | handles call _ handles =>
    rcases handles with ⟨f, rfl, rows⟩
    refine ordered.of_back (fun r' mem waits => ?_) fun q' mem => ?_
    · rcases mem_map.mp mem with ⟨r, old, rfl⟩
      exact ⟨r, old, (rows r old).origin, (rows r old).pending waits⟩
    · rcases mem_pastGate.mp mem with ⟨here, counted, advanced⟩
      rcases mem_map.mp here with ⟨q, old, rfl⟩
      rw [counted_congr (rows q old).origin] at counted
      exact ⟨q, mem_pastGate.mpr ⟨old, counted, (rows q old).advanced advanced⟩,
        (rows q old).origin⟩
  | creates input row step node scope reason adds =>
    rw [step] at keeps
    have other : row.creationReason ≠ .cascade := by simpa [reason] using keeps
    refine ordered.of_back (fun r' mem waits => ?_) fun q' mem => ?_
    · rcases adds.mem_runs mem with old | rfl
      · exact ⟨r', old, rfl, waits⟩
      · rw [adds.stale] at waits
        cases waits
    · rcases adds.pastGate_back q' mem with ⟨-, counted⟩ | old
      · simp [NodeRun.counted, other] at counted
      · exact old
  | parks acq _ _ t _ mid row _ calm found running parked =>
    have before := calm.roundsInOrder ordered
    rw [parked]
    refine before.setOn (fun _ => rfl) (by rintro _ ⟨⟩) fun r here same counted => ?_
    have known : row.id = acq.nodeRunId := by simpa using find?_some found
    have this := (calm.sound sound).eq_of_id here (known.symm ▸ found) (same.trans known.symm)
    exact before r (mem_pastGate.mpr ⟨here, counted, by rw [this, running]; rfl⟩)
  | reopens acq _ _ t step mid complete delegates calm changes =>
    refine changes.roundsInOrder (reopened_sound (calm.sound sound) _ _) ?_
    refine (calm.roundsInOrder ordered).setOn (fun _ => rfl) (by rintro _ ⟨⟩) ?_
    intro r here same counted
    rcases calm.back r here with ⟨r0, old, evolves⟩ | begins
    · -- the caller was past its gate before the terminal
      rw [counted_congr evolves.origin] at counted
      have advanced : r0.state.isAdvanced := by
        rw [step] at keeps
        simp only [complete, delegates, decide_true, Bool.and_self, Bool.not_true, Bool.false_or,
          all_eq_true] at keeps
        simpa [← evolves.id, same, counted] using keeps r0 old
      exact (ordered r0 (mem_pastGate.mpr ⟨old, counted, advanced⟩)).later calm.waitsInLine old
        evolves.origin counted
    · have known : acq.nodeRunId < s.nextId := by simpa [Enabled, step] using enabled
      exact absurd (same ▸ known) (Nat.not_lt.mpr begins.fresh)
  | claims same later free =>
    unfold Store.RoundsInOrder Store.Leads pastGate
    rw [same.1]
    exact ordered

end RunAction

namespace Chain

def everyRound : TemplateNodeDef := { report [] with cascadeMode := .sequenced }

def finish (runId : Id) : RunAction :=
  act (.terminal {
    nodeRunId := runId, nodeId := 2, instanceId := 1, nodeType := "report", runScopeId := 1
    frameId := 1, nodeDef := some everyRound } [] none { kind := .complete })

/--
The first report is under way while the source succeeds twice, so the gates of the next two are
shut, also when that of the last is tried before its turn. Then the first report succeeds.
-/
def threeRounds : List RunAction :=
  [start 1 .messageDelivery] ++ dispatch 10 ++ [succeed 10 [("total", .num "4")]] ++ dispatch 11 ++
    [start 1 .messageDelivery] ++ dispatch 12 ++ [succeed 12 [("total", .num "5")]] ++
    [start 1 .messageDelivery] ++ dispatch 14 ++ [succeed 14 [("total", .num "6")], finish 11]

/-- The source succeeds; the first round of the report waits for the next run of the source. -/
def firstRoundWaits : List RunAction :=
  [start 1 .messageDelivery, start 1 .messageDelivery] ++ dispatch 10 ++
    [succeed 10 [("total", .num "4")]] ++ dispatch 11

end Chain

end Rimsky
