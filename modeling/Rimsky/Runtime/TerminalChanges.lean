import Rimsky.Runtime.GateChanges

/-!
# What terminals do to runs

A terminal changes runs in the listed ways, with two exceptions that concern the run it is for.
A park takes it from running to parked, and the success of a delegating caller makes it running
again, whatever state it is in. The internals of the sub-graph are started in a scope below it.
-/

namespace Rimsky

open Transaction List NodeRun

variable {args : RunArgs} {s s' : Store} {acq : Acquisition} {turn : Turn}

theorem RunChange.later (change : RunChange turn args s s') : s.nextId ≤ s'.nextId := by
  cases change with
  | calm calm => exact calm.later
  | clears row clears => exact Nat.le_of_eq clears.nextId.symm
  | keeps row opens _ => exact Nat.le_of_eq opens.nextId.symm
  | prunes prunes => cases prunes <;> exact Nat.le_refl _
  | spawns row spawns => exact Nat.le_of_lt (Nat.lt_of_le_of_lt spawns.fresh spawns.known)
  | scopes parentId opens => exact Nat.le_of_eq opens.nextId.symm

theorem RunChanges.later (changes : RunChanges turn args s s') : s.nextId ≤ s'.nextId := by
  induction changes with
  | refl => exact Nat.le_refl _
  | tail _ change ih => exact Nat.le_trans ih change.later

theorem NodeState.underway_of_drifts {a b : NodeState} (drifts : a.drifts b)
    (underway : a = .running ∨ a = .held ∨ a.isTerminal) :
    b = .running ∨ b = .held ∨ b.isTerminal := by
  cases a <;> cases b <;> simp [isTerminal] at underway ⊢ <;> cases drifts

/-- A run that is running, held or settled never goes back to waiting. -/
theorem RunChange.underway (change : RunChange turn args s s') {runId : Id}
    (known : runId < s.nextId) (underway : s.Underway runId) : s'.Underway runId := by
  have opened : ∀ {row : NodeRun}, Opens row s s' → s'.Underway runId := by
    intro row opens r' mem same
    rcases opens.runs with ⟨t, runs⟩
    rw [runs] at mem
    rcases mem_map.mp mem with ⟨r, old, rfl⟩
    rw [r.passed_id] at same
    have before := underway r old same
    have started : r.state ≠ .pending := by
      intro pending
      rw [pending] at before
      simp [NodeState.isTerminal] at before
    rwa [passed_of_ne started]
  cases change with
  | calm calm =>
    intro r' mem same
    rcases calm.back r' mem with ⟨r, old, evolves⟩ | begins
    · exact NodeState.underway_of_drifts evolves.state (underway r old (evolves.id ▸ same))
    · rw [← same] at known
      exact absurd known (Nat.not_lt.mpr begins.fresh)
  | clears row clears => exact opened clears.toOpens
  | keeps row opens _ => exact opened opens
  | prunes prunes =>
    have left : ∀ ids, (s.deleteRuns ids).Underway runId := by
      intro ids r' mem same
      rcases mem_deleteRuns mem with ⟨r, old, core, -⟩
      have state : r'.state = r.state := congrArg (·.state) core
      have id : r'.id = r.id := congrArg (·.id) core
      rw [state]
      exact underway r old (id.symm.trans same)
    cases prunes <;> exact left _
  | spawns row spawns =>
    intro r mem same
    rcases spawns.mem_runs mem with old | rfl
    · exact underway r old same
    · rw [← same] at known
      exact absurd known (Nat.not_lt.mpr spawns.fresh)
  | scopes parentId opens =>
    unfold Store.Underway
    rw [opens.runs]
    exact underway

theorem RunChanges.underway (changes : RunChanges turn args s s') {runId : Id}
    (known : runId < s.nextId) (underway : s.Underway runId) : s'.Underway runId := by
  induction changes with
  | refl => exact underway
  | tail before change ih =>
    exact change.underway (Nat.lt_of_lt_of_le known (RunChanges.later before)) ih

def TidyOf (turn : Turn) (args : RunArgs) (runId : Id) (s s' : Store) : Prop := runId < s.nextId →
    Tidy turn args s s'

instance (turn : Turn) (args : RunArgs) (runId : Id) :
    IsPreorder Store (TidyOf turn args runId) where
  refl s _ := refl s
  trans _ _ _ first second known sound :=
    (first known sound).trans (second (Nat.lt_of_lt_of_le known (first known sound).later)
      ((first known sound).sound sound))

/-- Tidy where the run is under way, so that scopes may be opened below it. -/
def TidyBelow (turn : Turn) (args : RunArgs) (runId : Id) (s s' : Store) : Prop :=
  runId < s.nextId → s.Underway runId → Tidy turn args s s'

instance (turn : Turn) (args : RunArgs) (runId : Id) :
    IsPreorder Store (TidyBelow turn args runId) where
  refl s _ _ := refl s
  trans _ _ _ first second known underway sound :=
    (first known underway sound).trans
      (second (Nat.lt_of_lt_of_le known (first known underway sound).later)
        ((first known underway sound).underway known underway)
          ((first known underway sound).sound sound))

structure InsertsWithBag (row : NodeRun) (s s' : Store) : Prop where
  eq : ∃ attributes, s' = { s with runs := s.runs ++ [row], attributes }
  bags : ∀ id, (s.dispatchInputBag? id).isSome → (s'.dispatchInputBag? id).isSome
  attributes : BagsOfKnown s s'
  bag : (∀ a ∈ s.attributes, a.dispatchInputBag = none → a.nodeRunId ≠ row.id) →
    (s'.dispatchInputBag? row.id).isSome

/-- A run is inserted along with its bag, or not at all. -/
theorem insertRun_snapshot (row : NodeRun) (nodeId runScopeId : Id) (s : Store) :
    (∃ e, (insertRun row >>= fun _ =>
        NodeAttributes.snapshotBagForNewRun row.id nodeId runScopeId) s = (.error e, s)) ∨
      ∃ s', (insertRun row >>= fun _ =>
        NodeAttributes.snapshotBagForNewRun row.id nodeId runScopeId) s = (.ok (), s') ∧
        InsertsWithBag row s s' := by
  have put : insertRun row s = if uniqueRuns (s.runs ++ [row]) then
      (.ok (), { s with runs := s.runs ++ [row] })
      else (.error (.uniqueViolation "rimsky_node_runs"), s) := by
    change putRuns (s.runs ++ [row]) s = _
    unfold putRuns
    split <;> rfl
  by_cases unique : uniqueRuns (s.runs ++ [row])
  · rw [if_pos unique] at put
    rw [bind_of_ok put]
    let inserted : Store := { s with runs := s.runs ++ [row] }
    let fresh : NodeAttributes := {
      nodeRunId := row.id, nodeId
      data := ((inserted.latestAttributes? nodeId runScopeId fun r =>
        r.id ≠ row.id).map (·.data)).getD []
      dispatchInputBag := some
        (((inserted.latestAttributes? nodeId runScopeId fun r =>
          r.id ≠ row.id).map (·.data)).getD [])
      updatedAt := inserted.clock }
    have same : ∀ a : NodeAttributes, (id a).nodeRunId = a.nodeRunId := fun _ => rfl
    have unchanged : ∀ runId, inserted.attributes? runId = s.attributes? runId := fun _ => rfl
    refine .inr ⟨inserted.upsertAttributes fresh id, rfl, ?_, ?_, ?_, ?_⟩
    · rcases inserted.upsertAttributes_eq fresh id with ⟨attributes, stored⟩
      exact ⟨attributes, stored⟩
    · intro runId has
      rw [dispatchInputBag?_upsertAttributes inserted fresh same]
      split
      case isTrue =>
        unfold Store.dispatchInputBag? at has
        rw [unchanged]
        cases found : s.attributes? runId with
        | none => rfl
        | some a =>
          rw [found] at has
          exact has
      case isFalse => exact has
    · intro a' mem lacks
      rcases mem_upsertAttributes mem with rfl | ⟨a, old, -, kept⟩ | ⟨old, -⟩ | ⟨old, -⟩
      · cases lacks
      · rw [kept] at lacks ⊢
        exact .inl ⟨a, old, lacks, rfl⟩
      · exact .inl ⟨a', old, lacks, rfl⟩
      · exact .inl ⟨a', old, lacks, rfl⟩
    · intro others
      rw [dispatchInputBag?_upsertAttributes inserted fresh same, if_pos rfl]
      rw [unchanged]
      cases found : s.attributes? row.id with
      | none => rfl
      | some a =>
        have here : a.nodeRunId = row.id := by simpa using find?_some found
        by_contra lacks
        rw [Option.not_isSome_iff_eq_none] at lacks
        exact others a (mem_of_find?_eq_some found) lacks here
  · rw [if_neg unique] at put
    exact .inl ⟨_, bind_of_error put⟩

namespace Tidy

variable {args : RunArgs} {rec : Rec} {s s' : Store}

theorem isOf (runId : Id) (tidy : Tidy turn args s s') : TidyOf turn args runId s s' :=
  fun _ => tidy

theorem isBelow (runId : Id) (tidy : Tidy turn args s s') : TidyBelow turn args runId s s' :=
  fun _ _ => tidy

theorem upsertFinalAttributes (acq : Acquisition) (merged : Bag) :
    Steps (TidyOf turn args acq.nodeRunId) (upsertFinalAttributes acq merged) :=
  steps_read_bind fun _ known => of_calm (upsert _ _ known)

section Nested

variable (nested : RecSteps (Tidy turn args) rec)

include nested

omit nested in
theorem carriesOver (writeback : Bag) :
    CarriesOver (fun {_} m => Steps (Tidy turn args) m) writeback := by
  intro parentId rest ends
  refine steps_read_bind fun s => ?_
  cases found : s.run? parentId with
  | none => exact refl s
  | some parent =>
  have mem : parent ∈ s.runs := mem_of_find?_eq_some found
  rw [need_some, Transaction.pure_bind]
  split
  case isTrue =>
    refine steps_bind_from (fun sound => ?_) fun _ => ends parent
    exact .single (.calm (upsert _ _ (sound.known parent mem)))
  case isFalse => exact ends parent s

theorem settleFromDelegate (exitRunId instanceId : Id) (writeback : Bag) :
    Steps (Tidy turn args) (settleFromDelegate args rec exitRunId instanceId writeback) :=
  (resolving nested).settleFromDelegate (steps_composes (Tidy turn args) _) (emits nested.gate)
    nested.gate markDrained close (carriesOver writeback) exitRunId instanceId

end Nested

/-- A child run is refused while its node has another one in flight in the scope. -/
theorem createChildNodeRun (nodeId frameId runScopeId : Id) (executor : String)
    (required : List String) :
    Steps (Tidy turn args) (createChildNodeRun nodeId frameId runScopeId executor required) := by
  refine steps_read_bind fun s => ?_
  cases inFlight : ((bySequence <| s.runs.filter fun r =>
      r.nodeId = nodeId && r.runScopeId = runScopeId && r.state.isInFlight).head?).map (·.id) with
  | some existing => exact refl s
  | none =>
  have alone : ∀ r ∈ s.runs, r.nodeId = nodeId ∧ r.runScopeId = runScopeId →
      r.state.isInFlight = false := by
    intro r mem here
    by_contra inFlightRun
    rw [Bool.not_eq_false] at inFlightRun
    have among : r ∈ s.runs.filter fun r =>
        r.nodeId = nodeId && r.runScopeId = runScopeId && r.state.isInFlight := by
      refine mem_filter.mpr ⟨mem, ?_⟩
      simp [here.1, here.2, inFlightRun]
    rw [Option.map_eq_none_iff, head?_eq_none_iff] at inFlight
    have among := (mem_insertionSort fun r r' : NodeRun => r.sequence ≤ r'.sequence).mpr among
    rw [bySequence] at inFlight
    rw [inFlight] at among
    cases among
  dsimp only
  rw [newId_bind, read_bind]
  let known : Store := { s with nextId := s.nextId + 1 }
  have used : Calm s known := .of_same rfl rfl rfl (Nat.le_succ _) rfl rfl rfl rfl
  rw [bind_pure_store]
  unfold NodeRunTree.createChildNodeRun
  rw [read_bind]
  split
  case isFalse => exact of_calm used
  case isTrue =>
    rcases insertRun_snapshot _ nodeId runScopeId known with ⟨e, failed⟩ | ⟨s', inserted, withBag⟩
    · rw [failed]
      exact of_calm used
    · rw [inserted]
      rcases withBag.eq with ⟨attributes, stored⟩
      refine of_change fun sound => .spawns _ {
        fresh := Nat.le_refl _, known := by rw [stored]; exact Nat.lt_succ_self _
        stale := rfl, runs := by rw [stored], nodes := by rw [stored]
        instances := by rw [stored], scopes := by rw [stored], handles := by rw [stored]
        holders := by rw [stored], bags := withBag.bags, attributes := withBag.attributes
        alone := fun r mem same => alone r mem ((sameNodeAndScope_iff _ _).mp same)
        bag := withBag.bag fun a mem lacks same => ?_ }
      have before := sound.bags a mem lacks
      rw [same] at before
      exact Nat.lt_irrefl _ before

theorem createScope_store (scope : RunScope) (s : Store) :
    (RunScopes.create scope s).2 = s ∨
      (RunScopes.create scope s).2 = { s with runScopes := s.runScopes ++ [scope] } := by
  unfold RunScopes.create
  rw [read_bind]
  cases unique : RunScopes.uniqueScopes (s.runScopes ++ [scope]) with
  | true => exact .inr (by rw [if_pos rfl]; rfl)
  | false => exact .inl (by rw [if_neg Bool.false_ne_true]; rfl)

theorem partitionScope (input : ChildExecutionInput) (key : String) :
    Steps (TidyBelow turn args input.parentNodeRunId) (partitionScope input key) := by
  refine steps_reads fun existing => ?_
  cases existing with
  | some existing => exact steps_pure _
  | none =>
    refine steps_bind (steps_mono claiming.newId fun _ _ => isBelow _) fun scopeId => ?_
    refine steps_bind (fun s => ?_) fun _ => steps_pure _
    rcases createScope_store _ s with same | created
    · rw [same]
      exact refl s
    · rw [created]
      exact fun known underway => of_change fun _ => .scopes _
        ⟨⟨known, underway⟩, rfl, rfl, rfl, rfl, rfl, ⟨_, rfl, rfl⟩, rfl, rfl⟩

theorem dispatchChildren {input : ChildExecutionInput} {parentId : Id}
    (parent : input.parentNodeRunId = parentId)
    (unbound : ∀ p ∈ input.partitions, p.subClaimHandleId = 0) :
    Steps (TidyBelow turn args parentId) (dispatchChildren args input) := by
  subst parent
  refine steps_unless fun _ => steps_reads fun s => ?_
  split
  · exact steps_fail _
  refine steps_check fun _ => steps_foldlM fun _ p mem => ?_
  refine steps_bind ?_ fun _ => steps_pure _
  unfold dispatchPartition
  rw [unbound p mem]
  refine steps_check fun _ => ?_
  refine steps_bind (partitionScope input _) fun scopeId => steps_foldlM fun _ c _ => ?_
  refine steps_bind (steps_mono (createChildNodeRun _ _ _ _ _) fun _ _ => isBelow _) fun runId => ?_
  exact steps_ite (fun impossible => absurd rfl impossible) fun _ => steps_pure _

theorem bindEntryAliasEdgesToCaller (acq : Acquisition) (spec : TemplateSpec) (delegate : String)
    (nodes : List Node) (dispatched : List DispatchedChild) (callerSig : Signal) :
    Steps (Tidy turn args) (bindEntryAliasEdgesToCaller args acq spec delegate nodes
      dispatched callerSig) := by
  unfold Rimsky.bindEntryAliasEdgesToCaller
  split
  · exact steps_pure _
  · refine steps_unless fun _ => ?_
    refine steps_bind (steps_forM fun _ _ => waitInsert _) fun _ => ?_
    exact steps_unless fun _ => markDrained _ _

theorem seed (runId nodeId : Id) (bag : Bag) : Steps (Tidy turn args) (do
    NodeAttributes.upsert runId nodeId bag
    NodeAttributes.setDispatchInputBag runId nodeId bag) := by
  intro s
  let stored : Store := s.upsertAttributes
    { nodeRunId := runId, nodeId, data := bag, updatedAt := s.clock }
    fun a => { a with data := bag, updatedAt := s.clock }
  let fresh : NodeAttributes := {
    nodeRunId := runId, nodeId, dispatchInputBag := some bag, updatedAt := stored.clock }
  let change : NodeAttributes → NodeAttributes := fun a =>
    { a with dispatchInputBag := some bag, updatedAt := stored.clock }
  change Tidy turn args s (stored.upsertAttributes fresh change)
  have keeps : ∀ a, (change a).nodeRunId = a.nodeRunId := fun _ => rfl
  have bags : ∀ id, (s.dispatchInputBag? id).isSome →
      ((stored.upsertAttributes fresh change).dispatchInputBag? id).isSome := by
    intro id has
    rw [dispatchInputBag?_upsertAttributes stored fresh keeps]
    split
    case isTrue => split <;> rfl
    case isFalse other =>
      have before : stored.dispatchInputBag? id = s.dispatchInputBag? id := by
        rw [dispatchInputBag?_upsertAttributes]
        · exact if_neg other
        · intro _
          rfl
      rwa [before]
  have lacking : BagsOfKnown s (stored.upsertAttributes fresh change) := by
    intro a' mem lacks
    have elsewhere : a' ∈ stored.attributes ∧ a'.nodeRunId ≠ runId := by
      rcases mem_upsertAttributes mem with rfl | ⟨a, -, -, rfl⟩ | kept | ⟨old, none⟩
      · cases lacks
      · cases lacks
      · exact kept
      · exact ⟨old, none a' old⟩
    rcases mem_upsertAttributes elsewhere.1 with rfl | ⟨a, -, here, rfl⟩ | ⟨old, -⟩ | ⟨old, -⟩
    · exact absurd rfl elsewhere.2
    · exact absurd here elsewhere.2
    · exact .inl ⟨a', old, lacks, rfl⟩
    · exact .inl ⟨a', old, lacks, rfl⟩
  have whole : ∃ attributes, stored.upsertAttributes fresh change = { s with attributes } := by
    rcases stored.upsertAttributes_eq fresh change with ⟨attributes, second⟩
    rcases s.upsertAttributes_eq { nodeRunId := runId, nodeId, data := bag, updatedAt := s.clock }
      (fun a => { a with data := bag, updatedAt := s.clock }) with ⟨_, first⟩
    refine ⟨attributes, second.trans ?_⟩
    simp only [stored, first]
  rcases whole with ⟨attributes, whole⟩
  rw [whole] at bags lacking ⊢
  exact of_calm (.of_attributes bags lacking)

theorem seedEntryAliasSourcedAttributes (internals : List TemplateNodeDef) (nodes : List Node)
    (dispatched : List DispatchedChild) (callerBag : Bag) :
    Steps (Tidy turn args) (seedEntryAliasSourcedAttributes internals nodes
      dispatched callerBag) := by
  refine steps_forM fun c _ => ?_
  dsimp only
  split
  · exact steps_pure _
  · refine steps_unless fun _ => steps_reads fun _ => ?_
    exact seed _ _ _

end Tidy

/-- A delegating caller that succeeds is set running, whatever its state was. -/
def Store.reopened (s : Store) (runId : Id) (changed : Bool) : Store :=
  { s with runs := s.runs.map (NodeRun.setOn runId
      (NodeRun.recordedAs .running (some "terminal/success") changed)) }

theorem Store.RunsSound.setOn (sound : s.RunsSound) (runId : Id) {change : NodeRun → NodeRun}
    (origin : ∀ r, (change r).origin = r.origin) (started : ∀ r, (change r).state ≠ .pending) :
    ({ s with runs := s.runs.map (NodeRun.setOn runId change) } : Store).RunsSound := by
  refine sound.map (fun r _ => ?_) fun r mem waits => ?_
  · unfold NodeRun.setOn
    split
    · exact origin r
    · rfl
  · unfold NodeRun.setOn at waits ⊢
    split at waits
    case isTrue => exact absurd waits (started r)
    case isFalse other =>
      rw [if_neg other]
      exact ⟨waits, (sound.queued r mem waits).2⟩

theorem reopened_sound (sound : s.RunsSound) (runId : Id) (changed : Bool) :
    (s.reopened runId changed).RunsSound :=
  sound.setOn runId (fun _ => rfl) fun _ waits => by cases waits

theorem reopened_underway (s : Store) (runId : Id) (changed : Bool) :
    (s.reopened runId changed).Underway runId := by
  intro r' mem same
  rcases mem_map.mp mem with ⟨r, -, rfl⟩
  rw [setOn_id (recordedAs .running (some "terminal/success") changed) fun _ => rfl] at same
  rw [setOn, if_pos same]
  exact .inl rfl

theorem updateStateAndOutcome_cases (runId : Id) (state : NodeState) (sig : Option String)
    (changed : Bool) (s : Store) :
    (∃ e, NodeRunTree.updateStateAndOutcome runId state sig changed s = (.error e, s)) ∨
      ∃ outcome, NodeRunTree.updateStateAndOutcome runId state sig changed s = (outcome, { s with
        runs := s.runs.map (NodeRun.setOn runId (NodeRun.recordedAs state sig changed)) }) := by
  have runs : s.updatedRuns (fun _ r => r.id = runId)
      (fun _ r => { r with state, changed, settlingSignalType := sig.or r.settlingSignalType }) =
      s.runs.map (setOn runId (recordedAs state sig changed)) := by
    simp only [Store.updatedRuns, decide_eq_true_eq]
    rfl
  have updated := updateRuns_eq (fun _ r => r.id = runId)
    (fun _ r => { r with state, changed, settlingSignalType := sig.or r.settlingSignalType }) s
  rw [runs] at updated
  unfold NodeRunTree.updateStateAndOutcome
  by_cases unique : uniqueRuns (s.runs.map (setOn runId (recordedAs state sig changed)))
  · rw [if_pos unique] at updated
    rw [bind_of_ok updated]
    by_cases none : (s.runs.filter fun r => r.id = runId).length = 0
    · exact .inr ⟨_, by rw [if_pos none]; rfl⟩
    · exact .inr ⟨_, by rw [if_neg none]; rfl⟩
  · rw [if_neg unique] at updated
    exact .inl ⟨_, bind_of_error updated⟩

section Nested

variable {args : RunArgs} {rec : Rec} (nested : RecSteps (Tidy turn args) rec)

include nested

/-- The children start below the caller once it is reopened, and so below a run under way. -/
theorem applyTerminalCompleteSubgraphCaller_changes (sound : s.RunsSound)
    (known : acq.nodeRunId < s.nextId) (merged : Bag) (t : TerminalEvent) :
    RunChanges turn args s (applyTerminalCompleteSubgraphCaller args rec acq merged t s).2 ∨
      ∃ mid, Calm s mid ∧ RunChanges turn args (mid.reopened acq.nodeRunId t.changed)
        (applyTerminalCompleteSubgraphCaller args rec acq merged t s).2 := by
  unfold applyTerminalCompleteSubgraphCaller
  rcases reads_bind_cases (Walking.readOnly_loadTemplateSpec acq.instanceId) (fun spec => _) s with
    stays | ⟨spec, -, continues⟩
  · rw [stays]
    exact .inl .refl
  rw [continues]
  cases subgraphInternals spec ((acq.nodeDef.map (·.delegate)).getD "") with
  | none => exact .inl .refl
  | some internals =>
  rw [need_some, Transaction.pure_bind]
  have stored : upsertFinalAttributes acq merged s =
      (.ok (), (upsertFinalAttributes acq merged s).2) := rfl
  have calm : Calm s (upsertFinalAttributes acq merged s).2 := Tidy.upsert _ _ known
  rw [bind_of_ok stored, bind_apply]
  have scratched := Calm.applyTerminalScratch acq t.scratch (upsertFinalAttributes acq merged s).2
  split
  case h_2 e mid run =>
    rw [run] at scratched
    exact .inl (.single (.calm (calm.trans scratched)))
  case h_1 u mid run =>
  rw [run] at scratched
  have calm := calm.trans scratched
  rcases updateStateAndOutcome_cases acq.nodeRunId .running (some "terminal/success")
    t.changed mid with ⟨e, failed⟩ | ⟨outcome, moved⟩
  · rw [bind_of_error failed]
    exact .inl (.single (.calm calm))
  · refine .inr ⟨mid, calm, ?_⟩
    cases outcome with
    | error e =>
      rw [bind_of_error moved]
      exact .refl
    | ok u =>
      rw [bind_of_ok moved]
      refine (?_ : Steps (TidyBelow turn args acq.nodeRunId) _) _
        (Nat.lt_of_lt_of_le known calm.later)
        (reopened_underway mid _ _) (reopened_sound (calm.sound sound) _ _)
      have weaker : ∀ s s', Tidy turn args s s' → TidyBelow turn args acq.nodeRunId s s' :=
        fun _ _ => Tidy.isBelow _
      refine steps_bind (steps_mono ((Tidy.emits nested.gate _).emitAttributeChangesForRun
        (steps_composes (Tidy turn args) _) _ _) weaker) fun _ => ?_
      refine steps_unless fun _ => steps_reads fun nodes => ?_
      refine steps_bind (steps_foldlM fun _ _ _ => steps_bind (steps_need _ _) fun _ =>
        steps_pure _) fun children => ?_
      refine steps_bind (Tidy.dispatchChildren rfl ?_) fun dispatched => ?_
      · intro p mem
        rw [mem_singleton.mp mem]
      refine steps_bind (steps_mono (Tidy.bindEntryAliasEdgesToCaller _ _ _ _ _ _) weaker) fun _ =>
        ?_
      exact steps_bind (steps_mono (Tidy.seedEntryAliasSourcedAttributes _ _ _ _) weaker) fun _ =>
        steps_pure _

end Nested

def Store.parked (s : Store) (runId : Id) : Store :=
  { s with
    runs := s.runs.map (NodeRun.setOn runId (NodeRun.movedTo .parked (some "transient/park"))) }

theorem parked_sound (sound : s.RunsSound) (runId : Id) : (s.parked runId).RunsSound :=
  sound.setOn runId (fun _ => rfl) fun _ waits => by cases waits

/-- What a terminal may do: tidy changes, a park, or the reopening of a delegating caller. -/
inductive TerminalChange (turn : Turn) (args : RunArgs) (acq : Acquisition) (t : TerminalEvent)
    (s s' : Store) :
    Prop where
  | tidy (changes : RunChanges turn args s s')
  | parks (mid : Store) (row : NodeRun) (park : t.kind = .park) (calm : Calm s mid)
      (found : mid.run? acq.nodeRunId = some row) (running : row.state = .running)
      (parked : s' = mid.parked acq.nodeRunId)
  | reopens (mid : Store) (complete : t.kind = .complete)
      (delegates : acq.nodeDef.any (·.isSubgraphEntryAbsorbed)) (calm : Calm s mid)
      (changes : RunChanges turn args (mid.reopened acq.nodeRunId t.changed) s')

theorem applyTerminalPark_changes (args : RunArgs) (acq : Acquisition) {t : TerminalEvent}
    (park : t.kind = .park) (s : Store) :
    TerminalChange turn args acq t s (applyTerminalPark args acq t s).2 := by
  unfold applyTerminalPark
  rw [read_bind]
  have parkActive : Steps Calm
      (Queue.parkActive acq.nodeRunId args.supervisorId s.clock t.parkResumeAt) := by
    refine steps_check fun _ => ?_
    refine steps_bind (Calm.updateRuns fun _ _ => .of_state rfl (.inr rfl) rfl) fun _ => ?_
    exact steps_check fun _ => steps_pure _
  have calm := parkActive s
  rw [bind_apply]
  split
  case h_2 e mid run =>
    rw [run] at calm
    exact .tidy (.single (.calm calm))
  case h_1 u mid run =>
  rw [run] at calm
  have scratched := Calm.applyTerminalScratch acq t.scratch mid
  rw [bind_apply]
  split
  case h_2 e mid' run =>
    rw [run] at scratched
    exact .tidy (.single (.calm (calm.trans scratched)))
  case h_1 u mid' run =>
  rw [run] at scratched
  have calm := calm.trans scratched
  rw [bind_pure_store]
  rcases Nodes.updateState_cases acq.nodeRunId .parked .handlerPark (some "transient/park")
    mid' with ⟨e, failed⟩ | ⟨⟨row, found, allowed⟩, moved⟩
  · rw [failed]
    exact .tidy (.single (.calm calm))
  · have running : row.state = .running := by
      cases state : row.state <;> simp [nextState, state] at allowed ⊢
    rw [moved]
    exact .parks mid' row park calm found running rfl

theorem applyTerminalComplete_of_delegates (args : RunArgs) (rec : Rec)
    (delegates : acq.nodeDef.any (·.isSubgraphEntryAbsorbed)) (resolvedAttrs : Bag)
    (schema : Option AttributeSchema) (t : TerminalEvent) :
    (∃ error, applyTerminalComplete args rec acq resolvedAttrs schema t =
        applyErrorPolicy args rec acq error) ∨
      applyTerminalComplete args rec acq resolvedAttrs schema t =
        applyTerminalCompleteSubgraphCaller args rec acq
          (mergeAttributesDelta resolvedAttrs t.attributesDel) t := by
  unfold applyTerminalComplete
  dsimp only
  split
  · exact .inl ⟨_, rfl⟩
  · rw [if_pos delegates]
    exact .inr rfl

/-- Every terminal of a run that exists does one of the three. -/
theorem applyTerminal_changes {rec : Rec} (nested : RecSteps (Tidy turn args) rec)
    (sound : s.RunsSound)
    (known : acq.nodeRunId < s.nextId) (resolvedAttrs : Bag) (schema : Option AttributeSchema)
    (t : TerminalEvent) :
    TerminalChange turn args acq t s
      (applyTerminal args rec acq resolvedAttrs schema t s).2 := by
  have c := steps_composes (TidyOf turn args acq.nodeRunId) StoreError.Plain
  have weaker : ∀ {α : Type} {m : Tx α}, Steps (Tidy turn args) m →
      Steps (TidyOf turn args acq.nodeRunId) m :=
    fun tidy => steps_mono tidy fun _ _ => Tidy.isOf _
  have settling : Settling (fun {_} m => Steps (TidyOf turn args acq.nodeRunId) m) args rec acq :=
    (Tidy.settling nested acq).mono weaker
  have upsert : ∀ merged, Steps (TidyOf turn args acq.nodeRunId)
      (upsertFinalAttributes acq merged) :=
    Tidy.upsertFinalAttributes acq
  have exit : acq.isSubgraphExit → ∀ merged, Steps (TidyOf turn args acq.nodeRunId)
      (settleFromDelegate args rec acq.nodeRunId acq.instanceId merged) :=
    fun _ _ => weaker (Tidy.settleFromDelegate nested _ _ _)
  unfold applyTerminal
  cases kind : t.kind with
  | park => exact applyTerminalPark_changes args acq kind s
  | errored =>
    exact .tidy (settling.applyTerminalError c upsert _ _ _ s known sound)
  | infra => exact .tidy (settling.applyTerminalInfraError c _ _ _ s known sound)
  | complete =>
    by_cases delegates : acq.nodeDef.any (·.isSubgraphEntryAbsorbed)
    · rcases applyTerminalComplete_of_delegates args rec delegates resolvedAttrs schema t with
        ⟨error, rejected⟩ | delegated
      · exact .tidy (rejected ▸ settling.applyErrorPolicy c error s known sound)
      · rcases applyTerminalCompleteSubgraphCaller_changes nested sound known
          (mergeAttributesDelta resolvedAttrs t.attributesDel) t with tidy | ⟨mid, calm, changes⟩
        · exact .tidy (delegated ▸ tidy)
        · exact .reopens mid kind delegates calm (delegated ▸ changes)
    · exact .tidy (settling.applyTerminalComplete c upsert exit
        (fun holds => absurd holds delegates) _ s known sound)

end Rimsky
