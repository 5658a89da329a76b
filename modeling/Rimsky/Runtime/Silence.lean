import Rimsky.Runtime.Footprint

/-!
# Settled runs are silent

What settling one run does to the others: instances, nodes, frames and messages are fixed,
and a run that is settled or held gets no signal sent on its behalf by the settlement of
another run, except that a held run may be moved on.
-/

namespace Rimsky

open Transaction List Store

variable {s s' : Store} {args : RunArgs} {rec : Rec} {holder : NodeRun} {runId : Id}

/-- No walk changes the graph, the frames or the messages. -/
structure Fixed (s s' : Store) : Prop where
  instances : s'.instances = s.instances
  nodes : s'.nodes = s.nodes
  frames : s'.frames = s.frames
  messages : s'.messages = s.messages
  nextId : s.nextId ≤ s'.nextId

instance : IsPreorder Store Fixed where
  refl _ := ⟨rfl, rfl, rfl, rfl, Nat.le_refl _⟩
  trans _ _ _ a b :=
    ⟨b.instances.trans a.instances, b.nodes.trans a.nodes, b.frames.trans a.frames,
      b.messages.trans a.messages, a.nextId.trans b.nextId⟩

theorem Fixed.template? (fixed : Fixed s s') (instanceId : Id) :
    s'.template? instanceId = s.template? instanceId := by
  unfold Store.template? Store.instance?
  rw [fixed.instances]

theorem Fixed.instanceNodes (fixed : Fixed s s') (instanceId : Id) :
    s'.instanceNodes instanceId = s.instanceNodes instanceId := by
  unfold Store.instanceNodes
  rw [fixed.nodes]

namespace Fixed

theorem blind : RunBlind Fixed where
  tables _ _ _ _ _ le := ⟨rfl, rfl, rfl, rfl, le⟩
  close _ _ _ _ := ⟨rfl, rfl, rfl, rfl, Nat.le_refl _⟩
  delete _ _ := ⟨rfl, rfl, rfl, rfl, Nat.le_refl _⟩
  signal _ _ := ⟨rfl, rfl, rfl, rfl, Nat.le_refl _⟩

theorem footprint : Footprint Fixed where
  toWalking := blind.walking
  queue _ _ _ le := ⟨rfl, rfl, rfl, rfl, le⟩
  handles _ _ _ _ _ _ _ _ := ⟨rfl, rfl, rfl, rfl, Nat.le_refl _⟩
  holders _ _ _ := ⟨rfl, rfl, rfl, rfl, Nat.le_refl _⟩

theorem knot (args : RunArgs) (fuel : Nat) : RecSteps Fixed (knot args fuel) :=
  footprint.knot_of_blind blind fuel

end Fixed

variable {verdict : NodeState × TransitionReason × Signal}

theorem settleHolder_of_failed {e : StoreError}
    (failed : Nodes.updateState holder.id verdict.1 verdict.2.1 (some verdict.2.2.type) s =
      (.error e, s)) :
    (settleHolder args rec holder verdict s).2 = s := by
  unfold settleHolder
  rw [bind_apply, attempt_apply, failed]
  cases e <;> rfl

theorem settleHolder_of_violation {index : String}
    (failed : Nodes.updateState holder.id verdict.1 verdict.2.1 (some verdict.2.2.type) s =
      (.error (.uniqueViolation index), s)) :
    settleHolder args rec holder verdict s = (.error (.uniqueViolation index), s) := by
  unfold settleHolder
  rw [bind_apply, attempt_apply, failed]
  rfl

theorem settleHolder_of_moved
    (moved : Nodes.updateState holder.id verdict.1 verdict.2.1 (some verdict.2.2.type) s =
      (.ok (), s')) :
    settleHolder args rec holder verdict s =
      announceHolder args rec holder verdict.1 verdict.2.2 s' := by
  unfold settleHolder
  rw [bind_apply, attempt_apply, moved]

theorem settleHolder_eq_ok {sig : Signal} {post : List PostCommit}
    (found : s.run? holder.id = some holder) (held : holder.state = .held)
    (run : settleHolder args rec holder (.fresh, .autoTerminalCommit, sig) s = (.ok post, s')) :
    ∃ moved, Nodes.updateState holder.id .fresh .autoTerminalCommit (some sig.type) s =
      (.ok (), moved) ∧ announceHolder args rec holder .fresh sig moved = (.ok post, s') := by
  have allowed : nextState holder.state .autoTerminalCommit = some .fresh := by
    rw [held]
    rfl
  rcases Nodes.updateState_of_allowed found allowed (some sig.type) with refused | ⟨moved, updated⟩
  · rw [settleHolder_of_violation refused] at run
    cases run
  · rw [settleHolder_of_moved updated] at run
    exact ⟨moved, updated, run⟩

/-- All claims of the run, its own and those it holds along, are committed. -/
def Store.AllCommitted (s : Store) (runId : Id) : Prop :=
  ∀ h ∈ s.portfolio runId, h.state = .committed

theorem Store.AllCommitted.poisoned (committed : s.AllCommitted runId) :
    s.poisoned runId = false := by
  refine any_eq_false.mpr fun h mem => ?_
  simp [committed h mem]

/-- A holder all of whose claims are committed settles fresh. -/
theorem Store.AllCommitted.transition (committed : s.AllCommitted runId) (isRun : runId ≠ 0)
    (found : s.run? runId = some holder) (held : holder.state = .held)
    (leaf : s.children runId = []) :
    transitionHolderIfFullyResolved args rec runId s =
      settleHolder args rec holder (.fresh, .autoTerminalCommit,
        buildTerminalSuccessSignal false ((s.data? runId).getD []) "auto-terminal/Commit" [])
          s := by
  have resolved : s.fullyResolved runId = true := by
    refine all_eq_true.mpr fun h mem => ?_
    simp [committed h mem]
  have goes : ¬(decide (runId = 0) || decide (holder.state ≠ .held) ||
      !(s.children runId).isEmpty || !s.fullyResolved runId) = true := by
    simp [isRun, held, leaf, resolved]
  unfold transitionHolderIfFullyResolved
  simp only [read_bind, id_eq, found, if_neg goes, Store.holderVerdict, committed.poisoned]
  rfl

/-- The run is known and, if it is still there, in one of these states. -/
def Store.isIn (s : Store) (among : NodeState → Prop) (runId : Id) : Prop :=
  runId < s.nextId ∧ ∀ row ∈ s.runs, row.id = runId → among row.state

def Store.atRest (s : Store) (runId : Id) : Prop :=
  s.isIn (fun state => state = .held ∨ state.isTerminal) runId

def Store.isSettled (s : Store) (runId : Id) : Prop := s.isIn (·.isTerminal) runId

theorem Store.isSettled.atRest (settled : s.isSettled runId) : s.atRest runId :=
  ⟨settled.1, fun row mem same => .inr (settled.2 row mem same)⟩

theorem Store.mem_of_run? {id : Id} {row : NodeRun} (found : s.run? id = some row) :
    row ∈ s.runs ∧ row.id = id :=
  ⟨mem_of_find?_eq_some found, by simpa using find?_some found⟩

/-- A run whose state is one of these keeps it, and none of the watched deliveries is made. -/
def Stays (among : NodeState → Prop) (runId : Id) (watched : Delivery → Bool) (s s' : Store) :
    Prop :=
  s.isIn among runId → runId < s'.nextId ∧
    s'.deliveries.filter watched = s.deliveries.filter watched ∧
    ∀ row' ∈ s'.runs, row'.id = runId → ∃ row ∈ s.runs, row.id = runId ∧ row.state = row'.state

variable {change : Nat → NodeRun → NodeRun}

namespace Stays

variable {among : NodeState → Prop} {watched : Delivery → Bool}

theorem isIn (stays : Stays among runId watched s s') (here : s.isIn among runId) :
    s'.isIn among runId := by
  rcases stays here with ⟨known, -, rows⟩
  refine ⟨known, fun row' mem same => ?_⟩
  rcases rows row' mem same with ⟨row, old, rowId, state⟩
  exact state ▸ here.2 row old rowId

instance : IsPreorder Store (Stays among runId watched) where
  refl _ here := ⟨here.1, rfl, fun row mem same => ⟨row, mem, same, rfl⟩⟩
  trans _ _ _ first second here := by
    rcases first here with ⟨-, told, rows⟩
    rcases second (first.isIn here) with ⟨known, told', rows'⟩
    refine ⟨known, told'.trans told, fun row'' mem same => ?_⟩
    rcases rows' row'' mem same with ⟨row', mem', same', state'⟩
    rcases rows row' mem' same' with ⟨row, old, rowId, state⟩
    exact ⟨row, old, rowId, state.trans state'⟩

theorem of_rows (nextId : s.nextId ≤ s'.nextId) (deliveries : s'.deliveries = s.deliveries)
    (rows : s.isIn among runId → ∀ row' ∈ s'.runs, row'.id = runId →
      ∃ row ∈ s.runs, row.id = runId ∧ row.state = row'.state) : Stays among runId watched s s' :=
  fun here => ⟨here.1.trans_le nextId, by rw [deliveries], rows here⟩

theorem of_same (nextId : s.nextId ≤ s'.nextId) (deliveries : s'.deliveries = s.deliveries)
    (runs : s'.runs = s.runs) : Stays among runId watched s s' :=
  of_rows nextId deliveries fun _ row mem same => ⟨row, runs ▸ mem, same, rfl⟩

theorem of_core {change : NodeRun → NodeRun} (keeps : ∀ r, (change r).core = r.core)
    {runs : List NodeRun} (kept : ∀ r ∈ runs, r ∈ s.runs) :
    Stays among runId watched s { s with runs := runs.map change } := by
  refine of_rows (Nat.le_refl _) rfl fun _ row' mem same => ?_
  rcases mem_map.mp mem with ⟨row, known, rfl⟩
  exact ⟨row, kept row known, (congrArg NodeRun.id (keeps row)).symm.trans same,
    (congrArg NodeRun.state (keeps row)).symm⟩

theorem updateRuns {guard : Store → NodeRun → Bool}
    (keepsId : ∀ now row, (change now row).id = row.id)
    (keepsState : ∀ s, s.isIn among runId → ∀ row ∈ s.runs, row.id = runId → guard s row →
      (change s.clock row).state = row.state) :
    Steps (Stays among runId watched) (updateRuns guard change) := by
  refine steps_updateRuns fun s => of_rows (Nat.le_refl _) rfl fun here row' mem same => ?_
  rcases mem_map.mp mem with ⟨row, known, rfl⟩
  split at same <;> rename_i fits
  · rw [keepsId] at same
    rw [if_pos fits]
    exact ⟨row, known, same, (keepsState s here row known same fits).symm⟩
  · rw [if_neg fits]
    exact ⟨row, known, same, rfl⟩

theorem updateOther {id : Id} (other : id ≠ runId)
    (keepsId : ∀ now row, (change now row).id = row.id) :
    Steps (Stays among runId watched) (Rimsky.updateRuns (fun _ r => r.id = id) change) :=
  updateRuns keepsId fun _ _ _ _ same fits => absurd (same ▸ (of_decide_eq_true fits).symm) other

theorem updateState {id : Id} (other : id ≠ runId) (state : NodeState) (reason : TransitionReason)
    (sig : Option String) :
    Steps (Stays among runId watched) (Nodes.updateState id state reason sig) := by
  refine steps_reads fun _ => steps_bind (steps_need _ _) fun _ => ?_
  refine steps_ite (fun _ => ?_) fun _ => steps_fail _
  exact steps_bind (updateOther other fun _ _ => rfl) fun _ => steps_pure _

theorem createCascadePending (nodeId runScopeId frameId : Id) :
    Steps (Stays among runId watched) (Nodes.createCascadePending nodeId runScopeId frameId) := by
  intro s
  rcases Nodes.createCascadePending_store nodeId runScopeId frameId s with
    used | ⟨row, fresh, _, _, _, _, _, _, inserted⟩
  · rw [used]
    exact of_same (Nat.le_succ _) rfl rfl
  · rw [inserted]
    refine of_rows (Nat.le_succ _) rfl fun here row' mem same => ?_
    rcases mem_append.mp mem with old | new
    · exact ⟨row', old, same, rfl⟩
    · have known := here.1
      rw [mem_singleton.mp new, fresh] at same
      exact absurd same known.ne'

theorem deleteRuns (s : Store) (ids : List Id) : Stays among runId watched s (s.deleteRuns ids) :=
  of_core (fun r => by split <;> rfl) fun _ kept => (mem_filter.mp kept).1

theorem acting (supervisorId : String) {nodeRunId : Id} (nodeId runScopeId : Id)
    (mine : ∀ d, watched d → d.senderRunId = runId) (other : nodeRunId ≠ runId) :
    Acting (Stays among runId watched) supervisorId nodeRunId nodeId runScopeId where
  settle _ _ _ _ := updateState other _ _ _
  record _ _ _ _ := steps_bind (updateOther other fun _ _ => rfl) fun _ => steps_check fun _ =>
    steps_pure _
  signal sig receiverId := by
    refine steps_write fun s here => ⟨here.1, ?_, fun row mem same => ⟨row, mem, same, rfl⟩⟩
    have unwatched : watched { senderRunId := nodeRunId, signal := sig, receiverId } = false := by
      by_contra seen
      exact other (mine _ (by simpa using seen))
    simp [unwatched]
  release := steps_bind (updateRuns (fun _ _ => rfl) fun _ _ _ _ _ _ => rfl) fun _ => steps_pure _

section Still

variable (still : ∀ state, among state → state ≠ .pending ∧ state ≠ .parked)

include still

theorem wake (id : Id) (reason : TransitionReason) :
    Steps (Stays among runId watched) (resumeParkedRunInTx id reason) := by
  by_cases other : id = runId
  · intro s here
    have awake : ∀ row ∈ s.runs, row.id = id → row.state ≠ .parked := fun row mem same =>
      (still _ (here.2 row mem (same.trans other))).2
    have unchanged : (resumeParkedRunInTx id reason s).2 = s := by
      unfold resumeParkedRunInTx
      rcases Queue.resumeParked_of_not_parked awake with ok | ⟨e, error⟩
      · rw [bind_of_ok ok]
        rfl
      · rw [bind_of_error error]
    rw [unchanged]
    exact (refl s : Stays among runId watched s s) here
  · refine steps_bind (steps_bind (updateRuns (fun _ _ => rfl) fun _ _ _ _ _ _ => rfl) fun _ =>
      steps_pure _) fun _ => ?_
    exact steps_ite (fun _ => steps_bind (updateState other _ _ _) fun _ => steps_pure _) fun _ =>
      steps_pure _

theorem footprint : Footprint (Stays among runId watched) where
  aside _ _ _ _ le := of_same le rfl rfl
  queue _ _ _ le := of_same le rfl rfl
  handles _ _ _ _ _ _ _ _ := of_same (Nat.le_refl _) rfl rfl
  holders _ _ _ := of_same (Nat.le_refl _) rfl rfl
  touch _ _ keeps := of_core keeps fun _ mem => mem
  close _ _ _ _ := of_same (Nat.le_refl _) rfl rfl
  wake := wake still
  pend := createCascadePending
  clear _ _ := by
    refine steps_bind (updateRuns (fun _ _ => rfl) fun s here row mem same fits => ?_) fun _ =>
      steps_check fun _ => steps_pure _
    simp only [Bool.and_eq_true, decide_eq_true_eq] at fits
    exact absurd fits.2 (still _ (here.2 row mem same)).1
  drop _ := steps_reads fun _ =>
    steps_ite (fun _ => steps_write fun s => deleteRuns s _) fun _ => steps_fail _
  prior s _ _ _ _ := deleteRuns s _

end Still

end Stays

/-- The run stays in one of these states. -/
def StaysIn (among : NodeState → Prop) (runId : Id) (s s' : Store) : Prop :=
  s.isIn among runId → s'.isIn among runId

/-- A run in one of these states is moved by nobody but its own settlement. -/
def Firm (among : NodeState → Prop) : Prop :=
  ∀ state, among state → state ≠ .pending ∧ state ≠ .parked ∧ state ≠ .held

theorem firm_isTerminal : Firm (·.isTerminal) := by
  intro state terminal
  refine ⟨?_, ?_, ?_⟩ <;> rintro rfl <;> cases terminal

theorem isIn_of_moved {among : NodeState → Prop} {state : NodeState} {sig : Option String}
    (known : runId < s.nextId) (fits : among state) :
    ({ s with runs := s.runs.map fun r => if r.id = runId then
        { r with state, settlingSignalType := sig.or r.settlingSignalType } else r } :
      Store).isIn among runId := by
  refine ⟨known, fun row mem same => ?_⟩
  rcases mem_map.mp mem with ⟨r, _, rfl⟩
  split
  · exact fits
  · next differs =>
    rw [if_neg differs] at same
    exact absurd same differs

/-- A move that is made puts the run in the state asked for. -/
theorem isIn_updateState {among : NodeState → Prop} {state : NodeState} {reason : TransitionReason}
    {sig : Option String} (known : runId < s.nextId) (fits : among state)
    (moved : Nodes.updateState runId state reason sig s = (.ok (), s')) : s'.isIn among runId := by
  rw [Nodes.updateState_eq_ok moved]
  exact isIn_of_moved known fits

namespace StaysIn

variable {among : NodeState → Prop}

instance : IsPreorder Store (StaysIn among runId) where
  refl _ here := here
  trans _ _ _ first second here := second (first here)

theorem of_stays (stays : Stays among runId (fun _ => false) s s') : StaysIn among runId s s' :=
  stays.isIn

theorem updateRuns {guard : Store → NodeRun → Bool} {change : Nat → NodeRun → NodeRun}
    (keepsId : ∀ now r, (change now r).id = r.id)
    (keeps : ∀ s r, guard s r → r.id = runId → among r.state → among (change s.clock r).state) :
    Steps (StaysIn among runId) (updateRuns guard change) := by
  refine steps_updateRuns fun s here => ⟨here.1, fun row' mem same => ?_⟩
  rcases mem_map.mp mem with ⟨row, known, rfl⟩
  split at same <;> rename_i fits
  · rw [keepsId] at same
    rw [if_pos fits]
    exact keeps s row fits same (here.2 row known same)
  · rw [if_neg fits]
    exact here.2 row known same

theorem updateState {id : Id} (other : id ≠ runId) (state : NodeState) (reason : TransitionReason)
    (sig : Option String) : Steps (StaysIn among runId) (Nodes.updateState id state reason sig) :=
  steps_mono (Stays.updateState other _ _ _) fun _ _ => of_stays

theorem recordRunTreeChanged (id : Id) {state : NodeState} (fits : among state) (sig : String)
    (changed : Bool) : Steps (StaysIn among runId) (recordRunTreeChanged id state sig changed) :=
  steps_bind (updateRuns (fun _ _ => rfl) fun _ _ _ _ _ => fits) fun _ =>
    steps_check fun _ => steps_pure _

theorem logDelivery (d : Delivery) : Steps (StaysIn among runId) (logDelivery d) :=
  steps_write fun _ here => here

theorem removeForNode (nodeId runScopeId : Id) (supervisorId : String) :
    Steps (StaysIn among runId) (Queue.removeForNode nodeId runScopeId supervisorId) :=
  steps_bind (updateRuns (fun _ _ => rfl) fun _ _ _ _ fits => fits) fun _ => steps_pure _

theorem acting (supervisorId : String) {nodeRunId : Id} (nodeId runScopeId : Id)
    (other : nodeRunId ≠ runId) :
    Acting (StaysIn among runId) supervisorId nodeRunId nodeId runScopeId :=
  (Stays.acting supervisorId nodeId runScopeId (fun _ seen => absurd seen (by simp)) other).mono
    fun _ _ => of_stays

section Firm

variable (firm : Firm among)

include firm

theorem footprint : Footprint (StaysIn among runId) :=
  (Stays.footprint fun state fits => ⟨(firm state fits).1, (firm state fits).2.1⟩).mono
    fun _ _ => of_stays

theorem announceHolder (gate : ∀ id, Steps (StaysIn among runId) (rec.evaluateOneGate id))
    {state : NodeState} (fits : among state) (sig : Signal) :
    Steps (StaysIn among runId) (announceHolder args rec holder state sig) :=
  (footprint firm).announceHolder gate (recordRunTreeChanged _ fits _ _)
    fun _ _ => logDelivery _

theorem holders (nested : RecSteps (StaysIn among runId) rec) :
    HolderSteps (StaysIn among runId) args rec := by
  intro s holder found held _ here
  have other : holder.id ≠ runId := by
    intro same
    exact (firm _ (here.2 holder (mem_of_run? found).1 same)).2.2 held
  have act : Acting (StaysIn among runId) "" holder.id holder.nodeId holder.runScopeId :=
    acting _ _ _ other
  exact (footprint firm).settleHolder nested.gate (updateState other _ _ _)
    (act.record _ _ _ (isTerminal_holderVerdict s _)) act.signal s here

theorem failures (nested : RecSteps (StaysIn among runId) rec) :
    GateFailureSteps (StaysIn among runId) args rec := by
  intro s row error found pending _ here
  have other : row.id ≠ runId := by
    intro same
    exact (firm _ (here.2 row (mem_of_run? found).1 same)).1 pending
  exact (footprint firm).routeSubstitutionFailureAtGate nested (holders firm nested)
    (acting _ _ _ other) error s here

theorem knot (args : RunArgs) (fuel : Nat) : RecSteps (StaysIn among runId) (knot args fuel) :=
  (footprint firm).knot (fun _ nested => holders firm nested) (fun _ nested => failures firm nested)
    fuel

end Firm

end StaysIn

/--
The store after keeps what the one before tells about a run at rest: a settled run stays
settled and a held one stays held or settles, and none of the watched deliveries is made
unless it settles.
-/
structure Silent (runId : Id) (watched : Delivery → Bool) (s s' : Store) : Prop where
  settled : s.isSettled runId →
    s'.isSettled runId ∧ s'.deliveries.filter watched = s.deliveries.filter watched
  resting : s.atRest runId → s'.isSettled runId ∨
    s'.atRest runId ∧ s'.deliveries.filter watched = s.deliveries.filter watched

namespace Silent

variable {runId : Id} {watched : Delivery → Bool}

instance : IsPreorder Store (Silent runId watched) where
  refl _ := ⟨fun settled => ⟨settled, rfl⟩, fun resting => .inr ⟨resting, rfl⟩⟩
  trans a b c first second := by
    refine ⟨fun settled => ?_, fun resting => ?_⟩
    · have mid := first.settled settled
      have last := second.settled mid.1
      exact ⟨last.1, last.2.trans mid.2⟩
    · rcases first.resting resting with settled | ⟨rests, same⟩
      · exact .inl (second.settled settled).1
      · rcases second.resting rests with settled | ⟨rests, same'⟩
        · exact .inl settled
        · exact .inr ⟨rests, same'.trans same⟩

theorem of_stays (stays : Stays (fun state => state = .held ∨
    state.isTerminal) runId watched s s') :
    Silent runId watched s s' := by
  refine ⟨fun settled => ?_, fun resting => .inr ⟨stays.isIn resting, (stays resting).2.1⟩⟩
  rcases stays settled.atRest with ⟨known, deliveries, rows⟩
  refine ⟨⟨known, fun row' mem same => ?_⟩, deliveries⟩
  rcases rows row' mem same with ⟨row, old, rowId, state⟩
  exact state ▸ settled.2 row old rowId

theorem of_settling (nextId : s.nextId ≤ s'.nextId)
    (deliveries : s'.deliveries.filter watched = s.deliveries.filter watched)
    (rows : ∀ row ∈ s'.runs, row.id = runId → row.state.isTerminal) : Silent runId watched s s' :=
  ⟨fun settled => ⟨⟨settled.1.trans_le nextId, rows⟩, deliveries⟩,
    fun resting => .inl ⟨resting.1.trans_le nextId, rows⟩⟩

theorem recordRunTreeChanged (id : Id) {state : NodeState} (terminal : state.isTerminal)
    (sig : String) (changed : Bool) :
    Steps (Silent runId watched) (recordRunTreeChanged id state sig changed) := by
  refine steps_bind ?_ fun _ => steps_check fun _ => steps_pure _
  by_cases other : id = runId
  · refine steps_updateRuns fun s => of_settling (Nat.le_refl _) rfl fun row mem same => ?_
    rcases mem_map.mp mem with ⟨r, _, rfl⟩
    split
    · exact terminal
    · next differs =>
      rw [if_neg differs] at same
      exact absurd (same.trans other.symm) (by simpa using differs)
  · exact steps_mono (Stays.updateOther other fun _ _ => rfl) fun _ _ => of_stays

theorem logDelivery {d : Delivery} (unwatched : watched d = false) :
    Steps (Silent runId watched) (logDelivery d) :=
  steps_write fun s => of_stays fun here =>
    ⟨here.1, by simp [unwatched], fun row mem same => ⟨row, mem, same, rfl⟩⟩

theorem removeForNode (nodeId runScopeId : Id) (supervisorId : String) :
    Steps (Silent runId watched) (Queue.removeForNode nodeId runScopeId supervisorId) :=
  steps_mono (steps_bind (Stays.updateRuns (fun _ _ => rfl) fun _ _ _ _ _ _ => rfl) fun _ =>
    steps_pure _) fun _ _ => of_stays

theorem footprint : Footprint (Silent runId watched) :=
  (Stays.footprint fun state rests => by
    rcases rests with rfl | terminal
    · exact ⟨nofun, nofun⟩
    · constructor <;> rintro rfl <;> cases terminal).mono fun _ _ => of_stays

theorem acting (supervisorId : String) {nodeRunId : Id} (nodeId runScopeId : Id)
    (mine : ∀ d, watched d → d.senderRunId = runId) (other : nodeRunId ≠ runId) :
    Acting (Silent runId watched) supervisorId nodeRunId nodeId runScopeId :=
  (Stays.acting supervisorId nodeId runScopeId mine other).mono fun _ _ => of_stays

theorem holders (mine : ∀ d, watched d → d.senderRunId = runId)
    (nested : RecSteps (Silent runId watched) rec) :
    HolderSteps (Silent runId watched) args rec := by
  intro s holder found held _
  by_cases other : holder.id = runId
  · have known := mem_of_run? found
    refine ⟨fun settled => ?_, fun resting => ?_⟩
    · have terminal := settled.2 holder known.1 other
      rw [held] at terminal
      cases terminal
    · -- either the move fails and nothing happens, or the run is settled from then on
      rcases Nodes.updateState_cases holder.id (s.holderVerdict holder.id).1
        (s.holderVerdict holder.id).2.1 (some (s.holderVerdict holder.id).2.2.type) s with
        ⟨e, failed⟩ | ⟨_, moved⟩
      · refine .inr ?_
        rw [settleHolder_of_failed failed]
        exact ⟨resting, rfl⟩
      · refine .inl ?_
        rw [settleHolder_of_moved moved]
        have announced : Steps (StaysIn (·.isTerminal) runId)
            (announceHolder args rec holder (s.holderVerdict holder.id).1
              (s.holderVerdict holder.id).2.2) :=
          StaysIn.announceHolder firm_isTerminal (fun id =>
            steps_mono (nested.gate id) fun _ _ silent settled => (silent.settled settled).1)
            (isTerminal_holderVerdict s _) _
        refine announced _ ?_
        rw [other]
        exact isIn_of_moved resting.1 (isTerminal_holderVerdict s runId)
  · have act := acting "" holder.nodeId holder.runScopeId mine other
    exact footprint.settleHolder nested.gate
      (act.settle _ _ _ (.inr (isTerminal_holderVerdict s _)))
      (recordRunTreeChanged _ (isTerminal_holderVerdict s _) _ _) act.signal s

theorem failures (mine : ∀ d, watched d → d.senderRunId = runId)
    (nested : RecSteps (Silent runId watched) rec) :
    GateFailureSteps (Silent runId watched) args rec := by
  intro s row error found pending _
  by_cases other : row.id = runId
  · -- a pending run is not at rest
    have known := (mem_of_run? found).1
    have moving : ¬s.atRest runId := by
      intro resting
      have state := resting.2 row known other
      simp [pending, NodeState.isTerminal] at state
    exact ⟨fun settled => absurd settled.atRest moving, fun resting => absurd resting moving⟩
  · exact footprint.routeSubstitutionFailureAtGate nested (holders mine nested)
      (acting _ _ _ mine other) error s

theorem knot (args : RunArgs) (mine : ∀ d, watched d → d.senderRunId = runId) (fuel : Nat) :
    RecSteps (Silent runId watched) (knot args fuel) :=
  footprint.knot (fun _ nested => holders mine nested) (fun _ nested => failures mine nested) fuel

end Silent

def Delivery.reaches (runId nodeId : Id) (d : Delivery) : Bool :=
  d.senderRunId = runId && d.receiverId = nodeId

def Store.signalsTo (s : Store) (runId nodeId : Id) : List Signal :=
  (s.deliveries.filter (Delivery.reaches runId nodeId)).map (·.signal)

theorem Delivery.sender_of_reaches {nodeId : Id} (d : Delivery) (reaches : d.reaches runId nodeId) :
    d.senderRunId = runId := by
  unfold Delivery.reaches at reaches
  simp only [Bool.and_eq_true, decide_eq_true_eq] at reaches
  exact reaches.1

theorem Silent.reaching (args : RunArgs) (runId nodeId : Id) (fuel : Nat) :
    RecSteps (Silent runId (Delivery.reaches runId nodeId)) (Rimsky.knot args fuel) :=
  Silent.knot args (fun d => d.sender_of_reaches) fuel

/-- What a settled run told a node is not added to by others. -/
theorem Silent.signalsTo {nodeId : Id} (silent : Silent runId (Delivery.reaches runId nodeId) s s')
    (settled : s.isSettled runId) :
    s'.isSettled runId ∧ s'.signalsTo runId nodeId = s.signalsTo runId nodeId := by
  have stays := silent.settled settled
  unfold Store.signalsTo
  rw [stays.2]
  exact ⟨stays.1, rfl⟩

theorem signalsTo_logDelivery (s : Store) (runId nodeId receiverId : Id) (sig : Signal) :
    ({ s with deliveries := s.deliveries ++
        [{ senderRunId := runId, signal := sig, receiverId }] } : Store).signalsTo runId nodeId =
      s.signalsTo runId nodeId ++ if receiverId = nodeId then [sig] else [] := by
  unfold signalsTo
  by_cases told : receiverId = nodeId
  · simp [Delivery.reaches, told]
  · simp [Delivery.reaches, told]

/-- No scope hangs below the run. -/
def Store.NoneBelow (s : Store) (runId : Id) : Prop :=
  ∀ scope ∈ s.runScopes, scope.parentNodeRunId ≠ some runId

theorem Store.NoneBelow.children (none : s.NoneBelow runId) :
    s.children runId = [] := by
  refine filter_eq_nil_iff.mpr fun r _ below => ?_
  cases found : s.runScope? r.runScopeId with
  | none => simp [found] at below
  | some scope =>
    have parent : scope.parentNodeRunId = some runId := by simpa [found] using below
    exact none scope (mem_of_find?_eq_some found) parent

/-- No scope is added or put below another run. -/
def ScopesStay (s s' : Store) : Prop := ∀ scope' ∈ s'.runScopes,
  ∃ scope ∈ s.runScopes, scope.id = scope'.id ∧ scope.parentNodeRunId = scope'.parentNodeRunId

namespace ScopesStay

instance : IsPreorder Store ScopesStay where
  refl _ scope mem := ⟨scope, mem, rfl, rfl⟩
  trans _ _ _ first second scope'' mem'' := by
    rcases second scope'' mem'' with ⟨scope', mem', id', parent'⟩
    rcases first scope' mem' with ⟨scope, mem, id, parent⟩
    exact ⟨scope, mem, id.trans id', parent.trans parent'⟩

theorem blind : ScopeBlind ScopesStay where
  same _ _ scopes scope mem := ⟨scope, scopes ▸ mem, rfl, rfl⟩
  delete _ _ scope mem := ⟨scope, (mem_filter.mp mem).1, rfl, rfl⟩
  close _ _ _ _ scope' mem := by
    rcases mem_map.mp mem with ⟨scope, old, rfl⟩
    refine ⟨scope, old, ?_⟩
    split <;> exact ⟨rfl, rfl⟩

theorem noneBelow (stays : ScopesStay s s') (none : s.NoneBelow runId) : s'.NoneBelow runId := by
  intro scope' mem below
  rcases stays scope' mem with ⟨scope, old, -, parent⟩
  exact none scope old (parent.trans below)

end ScopesStay

/-- Every run stays in its scope. -/
def SamePlace (s s' : Store) : Prop := ∀ runId, s'.scopeOf? runId = s.scopeOf? runId

instance : IsPreorder Store SamePlace where
  refl _ := fun _ => rfl
  trans _ _ _ first second := fun runId => (second runId).trans (first runId)

theorem samePlace_updateRuns {guard : Store → NodeRun → Bool}
    (keepsId : ∀ now row, (change now row).id = row.id)
    (keepsScope : ∀ now row, (change now row).runScopeId = row.runScopeId) :
    Steps SamePlace (updateRuns guard change) := by
  refine steps_updateRuns fun s => ?_
  intro runId
  unfold scopeOf? run? updatedRuns
  have keeps : ∀ row, (if guard s row then change s.clock row else row).id = row.id := by
    intro row
    split
    · exact keepsId _ row
    · rfl
  simp only [find?_map, Function.comp_def, keeps, Option.bind_map]
  congr 1
  funext row
  split
  · rw [keepsScope]
    rfl
  · rfl

def RunScope.isMain (scope : RunScope) : Prop :=
  scope.parentNodeRunId = none ∧ scope.partitionKey = ""

def KeepsMain (s s' : Store) : Prop :=
  ∀ id scope, scope.isMain → s.runScope? id = some scope → s'.runScope? id = some scope

instance : IsPreorder Store KeepsMain where
  refl _ := fun _ _ _ found => found
  trans _ _ _ first second := fun id scope main found =>
    second id scope main (first id scope main found)

/-- Signals and gates leave main scopes as they are, and so open if they are. -/
theorem KeepsMain.blind : ScopeBlind KeepsMain where
  same s s' scopes id scope main found := by
    unfold runScope? at found ⊢
    rw [scopes]
    exact found
  delete s ids id scope main found := by
    rcases find?_eq_some_iff_append.mp found with ⟨here, front, back, split, others⟩
    refine (find?_filter ..).trans (find?_eq_some_iff_append.mpr ⟨?_, front, back, split, ?_⟩)
    · simpa [main.1] using here
    · intro other mem
      have away : ¬other.id = id := by simpa using others other mem
      simp [away]
  close s closed known partition id scope main found := by
    have other : ¬scope.id = closed.id := by
      intro same
      have named : scope.id = id := by simpa using find?_some found
      rw [← same, named, found] at known
      cases known
      exact partition main.2
    have keeps : (if scope.id = closed.id && scope.closedAt.isNone then
        { scope with closedAt := some s.clock } else scope) = scope := by simp [other]
    refine (find?_map ..).trans ?_
    have same : ((fun other : RunScope => decide (other.id = id)) ∘ fun other : RunScope =>
        if other.id = closed.id && other.closedAt.isNone then
          { other with closedAt := some s.clock } else other) = fun other =>
            decide (other.id = id) := by
      funext other
      dsimp only [Function.comp]
      split <;> rfl
    rw [same]
    exact (congrArg (Option.map _) found).trans (congrArg some keeps)

/-- The scope is a main scope of the store, and open. -/
structure Store.MainOpen (s : Store) (scope : RunScope) : Prop where
  main : scope.isMain
  «open» : scope.closedAt = none
  found : s.runScope? scope.id = some scope

theorem Store.MainOpen.keeps (mainOpen : s.MainOpen scope) (keeps : KeepsMain s s') :
    s'.MainOpen scope :=
  ⟨mainOpen.main, mainOpen.open, keeps _ _ mainOpen.main mainOpen.found⟩

section Receiving

variable {scope : RunScope} {nodeId frameId senderNodeId senderRunId : Id}
  {visited visited' : List Id} {run : Option Id}

theorem createCascadePending_mainOpen (mainOpen : s.MainOpen scope) :
    (Nodes.createCascadePending nodeId scope.id frameId s).1 ≠ .error .runScopeClosed := by
  unfold Nodes.createCascadePending
  rw [newId_bind, read_bind]
  generalize next : ({ s with nextId := s.nextId + 1 } : Store) = mid
  have found : mid.runScope? scope.id = some scope := by
    subst next
    exact mainOpen.found
  have opens : mid.scopeOpen scope.id := by simp [scopeOpen, found, mainOpen.open]
  dsimp only [id]
  cases mid.node? nodeId with
  | none =>
    unfold scopeError
    simp only [Transaction.bind_apply, read_apply, found]
    simp [mainOpen.open]
  | some node =>
    dsimp only
    rw [if_pos opens]
    unfold insertRun putRuns
    rw [bind_assoc, read_bind]
    generalize mid.runs ++ _ = runs
    by_cases unique : uniqueRuns runs
    · rw [if_pos unique]
      rintro ⟨⟩
    · rw [if_neg unique]
      rintro ⟨⟩

theorem ensureCascadePending_mainOpen (mainOpen : s.MainOpen scope) :
    (ensureCascadePending nodeId scope.id frameId senderNodeId senderRunId s).1 ≠
      .error .runScopeClosed := by
  unfold ensureCascadePending
  simp only [Nodes.findLatestCascadePending, WaitSet.hasRowForSenderRun,
    WaitSet.listSenderNodesForReceiver, read_bind]
  cases s.latestRun? nodeId scope.id _ with
  | none => exact createCascadePending_mainOpen mainOpen
  | some latest =>
    dsimp only
    rw [read_bind]
    split
    · nofun
    · rw [read_bind]
      split
      · exact createCascadePending_mainOpen mainOpen
      · nofun

/-- In an open main scope a node that was not visited before gets a run to wait in. -/
theorem resolveReceiverRunForCascade_cases
    (ran : resolveReceiverRunForCascade nodeId scope.id frameId senderNodeId senderRunId visited s =
      (.ok (run, visited'), s')) :
    (∀ id ∈ visited', id = nodeId ∨ id ∈ visited) ∧
      (s.MainOpen scope → nodeId ∉ visited → run.isSome) := by
  unfold resolveReceiverRunForCascade at ran
  split at ran
  · next seen =>
    injection ran with value
    injection value with value
    injection value with _ same
    exact ⟨fun id mem => .inr (same ▸ mem), fun _ fresh => absurd (by simpa using seen) fresh⟩
  · rw [Transaction.bind_apply, attempt_apply] at ran
    dsimp only at ran
    have closed := @ensureCascadePending_mainOpen s scope nodeId frameId senderNodeId senderRunId
    generalize (ensureCascadePending nodeId scope.id frameId senderNodeId senderRunId s).1 = outcome
      at ran closed
    split at ran
    · injection ran with value
      injection value with value
      injection value with found same
      subst found same
      exact ⟨fun id mem => by simpa using mem, fun _ _ => rfl⟩
    · injection ran with value
      injection value with value
      injection value with _ same
      exact ⟨fun id mem => .inr (same ▸ mem), fun mainOpen => absurd rfl (closed mainOpen)⟩
    · cases ran

theorem meetReceiver_cases {sender : Sender} {receiver : Node}
    (ran : meetReceiver sender scope visited receiver s = (.ok (run, visited'), s')) :
    (∀ id ∈ visited', id = receiver.id ∨ id ∈ visited) ∧
      (s.MainOpen scope → receiver.id ∉ visited → run.isSome) := by
  rcases bind_eq_ok.mp ran with ⟨inFlight, _, look, ran⟩
  injection look with _ same
  subst same
  split at ran
  · next absent =>
    injection ran with value
    injection value with value
    injection value with _ same
    refine ⟨fun id mem => .inr (same ▸ mem), fun mainOpen => ?_⟩
    simp [mainOpen.main.1] at absent
  · rcases bind_eq_ok.mp ran with ⟨parked, _, look, ran⟩
    injection look with _ same
    subst same
    cases parked with
    | none => exact resolveReceiverRunForCascade_cases ran
    | some parked =>
      rcases bind_eq_ok.mp ran with ⟨_, woken, wake, ran⟩
      have keeps := KeepsMain.blind.footprint.wake parked.id .cascadeResume s
      rw [wake] at keeps
      have resolved := resolveReceiverRunForCascade_cases ran
      exact ⟨resolved.1, fun mainOpen => resolved.2 (mainOpen.keeps keeps)⟩

/-- The run tells the node the signal as many times as the edges to it find a run there. -/
structure Store.Tells (s s' : Store) (runId nodeId : Id) (sig : Signal) (times : Nat) : Prop where
  settled : s'.isSettled runId
  said : s'.signalsTo runId nodeId = s.signalsTo runId nodeId ++ replicate times sig

theorem Silent.tells (silent : Silent runId (Delivery.reaches runId nodeId) s s')
    (settled : s.isSettled runId) (sig : Signal) : s.Tells s' runId nodeId sig 0 := by
  have stays := silent.signalsTo settled
  exact ⟨stays.1, by simpa using stays.2⟩

theorem Store.Tells.trans {mid : Store} {sig : Signal} {times times' : Nat}
    (first : s.Tells mid runId nodeId sig times) (second : mid.Tells s' runId nodeId sig times') :
    s.Tells s' runId nodeId sig (times + times') :=
  ⟨second.settled, by rw [second.said, first.said, append_assoc, replicate_append_replicate]⟩

variable {spec : TemplateSpec} {nodes : List Node} {sender : Sender} {sig : Signal} {fuel : Nat}

theorem tells_logDelivery (settled : s.isSettled runId) (receiverId : Id) :
    s.Tells { s with
      deliveries := s.deliveries ++ [{ senderRunId := runId, signal := sig, receiverId }] }
      runId nodeId sig (if receiverId = nodeId then 1 else 0) := by
  refine ⟨settled, ?_⟩
  rw [signalsTo_logDelivery]
  split <;> rfl

/-- One receiver is told once if it is the node and a run of it is met, and never otherwise. -/
theorem walkReceiver_tells {edge : SubscriptionEdge} {receiver : Node}
    (settled : s.isSettled sender.nodeRunId)
    (ran : walkReceiver (knot args fuel) spec nodes sender sig scope edge visited receiver s =
      (.ok visited', s')) (nodeId : Id) :
    (∀ id ∈ visited', id = receiver.id ∨ id ∈ visited) ∧
      ∃ times, s.Tells s' sender.nodeRunId nodeId sig times ∧ (receiver.id ≠ nodeId → times = 0) ∧
        (receiver.id = nodeId → s.MainOpen scope → nodeId ∉ visited → 0 < times) := by
  rcases bind_eq_ok.mp ran with ⟨⟨run, seen⟩, met, meet, ran⟩
  have signals := Silent.footprint.signalling
    (Silent.reaching args sender.nodeRunId nodeId fuel).gate scope.id
  have unsaid := (Steps.run (signals.meetReceiver (steps_composes _ _) _ _) meet).tells settled sig
  have cases := meetReceiver_cases meet
  cases run with
  | none =>
    injection ran with value same
    injection value with value
    subst same value
    refine ⟨cases.1, 0, unsaid, fun _ => rfl, fun told mainOpen fresh => ?_⟩
    exact absurd (cases.2 mainOpen (told ▸ fresh)) nofun
  | some receiverNodeRunId =>
    rcases bind_eq_ok.mp ran with ⟨_, logged, log, ran⟩
    rcases bind_eq_ok.mp ran with ⟨_, waiting, wait, ran⟩
    rcases bind_eq_ok.mp ran with ⟨_, _, pull, last⟩
    injection log with _ same
    subst same
    injection last with value same
    injection value with value
    subst same value
    have said := unsaid.trans (tells_logDelivery unsaid.settled receiver.id)
    have waited := said.trans
      ((Steps.run (Silent.footprint.waitInsert _) wait).tells said.settled sig)
    have pulled := waited.trans ((Steps.run (signals.pullForceRefreshUpstreams (steps_composes _ _)
      _ _ _ _ _ _) pull).tells waited.settled sig)
    refine ⟨cases.1, _, pulled, fun other => by simp [other], fun told _ _ => by simp [told]⟩

/-- By induction on the targets, each of which that is the node adds at most one. -/
theorem walkTargets_tells {targets : List (SubscriptionEdge × Node)}
    (settled : s.isSettled sender.nodeRunId)
    (ran : targets.foldlM (fun visited target => walkReceiver (knot args fuel) spec nodes sender sig
      scope target.1 visited target.2) visited s = (.ok visited', s')) (nodeId : Id) :
    (∀ id ∈ visited', id ∈ targets.map (·.2.id) ∨ id ∈ visited) ∧
      ∃ times, s.Tells s' sender.nodeRunId nodeId sig times ∧
        (nodeId ∉ targets.map (·.2.id) → times = 0) ∧
        (nodeId ∈ targets.map (·.2.id) → s.MainOpen scope → nodeId ∉ visited → 0 < times) := by
  induction targets generalizing s visited with
  | nil =>
    injection ran with value same
    injection value with value
    subst same value
    exact ⟨fun id mem => .inr mem, 0, ⟨settled, by simp⟩, fun _ => rfl, nofun⟩
  | cons target rest ih =>
    rw [foldlM_cons] at ran
    rcases bind_eq_ok.mp ran with ⟨seen, mid, first, ran⟩
    rcases walkReceiver_tells settled first nodeId with ⟨among, times, tells, none, some⟩
    rcases ih tells.settled ran with ⟨amongRest, timesRest, tellsRest, noneRest, someRest⟩
    refine ⟨fun id mem => ?_, _, tells.trans tellsRest, fun absent =>
      ?_, fun present mainOpen fresh => ?_⟩
    · rcases amongRest id mem with later | earlier
      · exact .inl (mem_cons_of_mem _ later)
      · rcases among id earlier with rfl | before
        · exact .inl (by simp)
        · exact .inr before
    · simp only [map_cons, mem_cons, not_or] at absent
      rw [none (Ne.symm absent.1), noneRest absent.2]
    · by_cases here : target.2.id = nodeId
      · have told := some here mainOpen fresh
        omega
      · have keeps := Steps.run (KeepsMain.blind.footprint.walkReceiver
          (KeepsMain.blind.knot args fuel).gate _ _ _ (KeepsMain.blind.runBlind.logDelivery _))
            first
        have told := someRest (by simpa [Ne.symm here] using present) (mainOpen.keeps keeps)
          fun mem => (among _ mem).elim (fun same => here same.symm) fresh
        omega

/--
What one signal of a settled run tells a node: nothing where no edge to it fires, and the
signal at least once where one does, provided the run lies in an open main scope and the node
was not visited before.
-/
theorem emitSignalWithFilter_tells {filter : String → Bool}
    (settled : s.isSettled sender.nodeRunId) (ids : sender.nodeRunId ≠ 0 ∧ sender.frameId ≠ 0)
    (cascades : shouldCascade sig.type) (template : s.template? sender.instanceId = some spec)
    (placed : s.scopeOf? sender.nodeRunId = some scope)
    (ran : emitSignalWithFilter args (knot args fuel) sender sig visited filter s =
      (.ok visited', s')) (nodeId : Id) :
    let targets := (walkTargets args spec (s.instanceNodes sender.instanceId) sender.nodeType sig
      filter).map (·.2.id)
    (∀ id ∈ visited', id ∈ targets ∨ id ∈ visited) ∧
      ∃ times, s.Tells s' sender.nodeRunId nodeId sig times ∧ (nodeId ∉ targets → times = 0) ∧
        (nodeId ∈ targets → s.MainOpen scope → nodeId ∉ visited → 0 < times) := by
  unfold emitSignalWithFilter cascadeSubscribersStale at ran
  split at ran
  · cases ran
  · rw [if_pos (by simp [ids]), if_neg (by simp [cascades]), read_bind] at ran
    dsimp only [id] at ran
    rw [template, placed] at ran
    exact walkTargets_tells settled ran nodeId

end Receiving

/-- Deliveries are only added. -/
def AppendOnly (s s' : Store) : Prop := s.deliveries <+: s'.deliveries

instance : IsPreorder Store AppendOnly where
  refl _ := List.prefix_refl _
  trans _ _ _ first second := List.IsPrefix.trans first second

theorem AppendOnly.signalsTo (grows : AppendOnly s s') (runId nodeId : Id) :
    s.signalsTo runId nodeId <+: s'.signalsTo runId nodeId :=
  (grows.filter _).map _

namespace AppendOnly

theorem blind : RunBlind AppendOnly where
  tables _ _ _ _ _ _ := prefix_refl _
  close _ _ _ _ := prefix_refl _
  delete _ _ := prefix_refl _
  signal _ _ := prefix_append _ _

theorem footprint : Footprint AppendOnly where
  toWalking := blind.walking
  queue _ _ _ _ := prefix_refl _
  handles _ _ _ _ _ _ _ _ := prefix_refl _
  holders _ _ _ := prefix_refl _

theorem knot (args : RunArgs) (fuel : Nat) : RecSteps AppendOnly (knot args fuel) :=
  footprint.knot_of_blind blind fuel

end AppendOnly

end Rimsky
