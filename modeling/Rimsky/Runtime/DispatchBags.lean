import Rimsky.Runtime.PastGate

/-!
# The bag a run is dispatched with

A dispatch loads the bag that was stored for the run and fails if there is none. The bag is
stored where a run gets past its gate and where it is created stale; only the gate of a run
whose source is missing lets it through without one.
-/

namespace Rimsky

open Transaction List Store Chain NodeState

def loadDispatchBag (args : RunArgs) (acq : Acquisition) (templateAttributeDefaults : Bag) :
    Tx (Bag × Option AttributeSchema) := do
  match ← read (·.dispatchInputBag? acq.nodeRunId) with
  | none => fail (.other ("loadDispatchBag: dispatch_input_bag missing for run " ++
      toString acq.nodeRunId ++ " (invariant: every dispatched run must carry a snapshot bag)"))
  | some bag =>
    return (bag, schemaForGateEval args acq.executor templateAttributeDefaults acq.nodeDef)

def Store.BagsReady (s : Store) : Prop :=
  ∀ r ∈ s.runs, r.state.isAdvanced → (s.dispatchInputBag? r.id).isSome

def Store.settlesMissingSources (s : Store) (args : RunArgs) : Bool :=
  s.nodes.all fun n => s.settlesMissingSource args n.id

variable {s s' : Store} {args : RunArgs}

theorem Store.settlesMissingSource_of_all (settles : s.settlesMissingSources args) (nodeId : Id) :
    s.settlesMissingSource args nodeId := by
  cases found : s.node? nodeId with
  | none => simp [settlesMissingSource, missingSourcePolicy?, found]
  | some node =>
    have same : node.id = nodeId := by simpa using find?_some found
    have mem : node ∈ s.nodes := mem_of_find?_eq_some found
    exact same ▸ all_eq_true.mp settles node mem

theorem Store.settlesMissingSources_congr (nodes : s'.nodes = s.nodes)
    (instances : s'.instances = s.instances) :
    s'.settlesMissingSources args = s.settlesMissingSources args := by
  simp only [settlesMissingSources, nodes, settlesMissingSource_congr nodes instances]

theorem dispatchInputBag?_deleteRuns (ids : List Id) {id : Id}
    (stays : (s.deletionClosure ids s.runs.length).contains id = false) :
    (s.deleteRuns ids).dispatchInputBag? id = s.dispatchInputBag? id := by
  have found : (s.deleteRuns ids).attributes? id = s.attributes? id :=
    find?_filter_key (fun id => !(s.deletionClosure ids s.runs.length).contains id)
      (by rw [stays]; rfl)
  simp only [dispatchInputBag?, found]

theorem Store.BagsReady.of_back (ready : s.BagsReady)
    (bags : ∀ id, (s.dispatchInputBag? id).isSome → (s'.dispatchInputBag? id).isSome)
    (back : ∀ r' ∈ s'.runs, r'.state.isAdvanced →
      (s'.dispatchInputBag? r'.id).isSome ∨ ∃ r ∈ s.runs, r.id = r'.id ∧ r.state.isAdvanced) :
    s'.BagsReady := by
  intro r' mem advanced
  rcases back r' mem advanced with has | ⟨r, old, same, before⟩
  · exact has
  · exact same ▸ bags _ (ready r old before)

theorem Calm.bagsReady (calm : Calm s s') (ready : s.BagsReady) : s'.BagsReady := by
  refine ready.of_back calm.bags fun r' mem advanced => .inr ?_
  rcases calm.back_advanced mem advanced with ⟨r, old, evolves, before⟩
  exact ⟨r, old, evolves.id.symm, before⟩

theorem Adds.bagsReady {row : NodeRun} (adds : Adds row s s') (ready : s.BagsReady) :
    s'.BagsReady := by
  refine ready.of_back adds.bags fun r' mem advanced => ?_
  rcases adds.mem_runs mem with old | rfl
  · exact .inr ⟨r', old, rfl, advanced⟩
  · exact .inl adds.bag

theorem RunChange.bagsReady (change : RunChange anytime args s s')
    (settles : s.settlesMissingSources args) (ready : s.BagsReady) : s'.BagsReady := by
  cases change with
  | calm calm => exact calm.bagsReady ready
  | clears row clears =>
    refine ready.of_back clears.bags fun r' mem advanced => ?_
    rcases clears.runs with ⟨t, runs⟩
    rw [runs] at mem
    rcases mem_map.mp mem with ⟨r, old, rfl⟩
    rw [r.passed_id]
    by_cases this : r.id = row.id
    · exact .inl (this ▸ clears.bag)
    · have same : r.passed row.id t = r := by simp [NodeRun.passed, this]
      exact .inr ⟨r, old, rfl, same ▸ advanced⟩
  | keeps row opens kept =>
    have keeps := kept.not_settles
    rw [settlesMissingSource_of_all settles] at keeps
    cases keeps
  | prunes prunes =>
    have pruned : ∀ ids, (s.deleteRuns ids).BagsReady := by
      intro ids r' mem advanced
      rcases mem_deleteRuns mem with ⟨r, old, core, stays⟩
      have id : r'.id = r.id := congrArg (·.id) core
      have state : r'.state = r.state := congrArg (·.state) core
      rw [id, dispatchInputBag?_deleteRuns ids stays]
      exact ready r old (state ▸ advanced)
    cases prunes <;> exact pruned _
  | spawns row spawns => exact spawns.toAdds.bagsReady ready
  | scopes parentId opens =>
    have bags : ∀ id, s'.dispatchInputBag? id = s.dispatchInputBag? id := by
      intro id
      simp only [dispatchInputBag?, attributes?, opens.attributes]
    intro r mem advanced
    rw [bags]
    exact ready r (opens.runs ▸ mem) advanced

theorem RunChanges.bagsReady (changes : RunChanges anytime args s s')
    (settles : s.settlesMissingSources args) (ready : s.BagsReady) :
    s'.settlesMissingSources args ∧ s'.BagsReady := by
  induction changes with
  | refl => exact ⟨settles, ready⟩
  | tail _ change ih =>
    refine ⟨?_, change.bagsReady ih.1 ih.2⟩
    exact (settlesMissingSources_congr change.static.1 change.static.2).trans ih.1

theorem Store.BagsReady.setOn (ready : s.BagsReady) {runId : Id} {change : NodeRun → NodeRun}
    (same : ∀ r, (change r).id = r.id)
    (has : ∀ r ∈ s.runs, r.id = runId → (s.dispatchInputBag? r.id).isSome) :
    ({ s with runs := s.runs.map (NodeRun.setOn runId change) } : Store).BagsReady := by
  refine ready.of_back (fun _ has => has) fun r' mem after => ?_
  rcases mem_map.mp mem with ⟨r, old, rfl⟩
  rw [NodeRun.setOn_id change same]
  unfold NodeRun.setOn at after
  split at after
  case isTrue this => exact .inl (has r old this)
  case isFalse => exact .inr ⟨r, old, rfl, after⟩

namespace RunAction

/--
No node that reads a source keeps a run whose source is missing, and delegating callers that
succeed are past their gate.
-/
def keepsBags (s : Store) (a : RunAction) : Bool :=
  s.settlesMissingSources a.args &&
    match a.step with
    | .terminal acq _ _ t =>
      !(t.kind = .complete && acq.nodeDef.any (·.isSubgraphEntryAbsorbed)) ||
        s.runs.all fun r => r.id ≠ acq.nodeRunId || r.state.isAdvanced
    | _ => true

theorem Effect.bagsReady {a : RunAction} (effect : a.Effect anytime s s') (sound : s.RunsSound)
    (enabled : a.Enabled s) (keeps : a.keepsBags s) (ready : s.BagsReady) : s'.BagsReady := by
  unfold keepsBags at keeps
  rw [Bool.and_eq_true] at keeps
  rcases keeps with ⟨settles, keeps⟩
  cases effect with
  | tidy changes => exact (changes.bagsReady settles ready).2
  | handles call _ handles =>
    rcases handles with ⟨f, rfl, rows⟩
    refine ready.of_back (fun _ has => has) fun r' mem advanced => .inr ?_
    rcases mem_map.mp mem with ⟨r, old, rfl⟩
    exact ⟨r, old, (rows r old).id.symm, (rows r old).advanced advanced⟩
  | creates input row step node scope reason adds => exact adds.bagsReady ready
  | parks acq _ _ t _ mid row _ calm found running parked =>
    rw [parked]
    have ready := calm.bagsReady ready
    refine ready.setOn (fun _ => rfl) fun r mem same => ready r mem ?_
    have known : row.id = acq.nodeRunId := by simpa using find?_some found
    have this : r = row := (calm.sound sound).eq_of_id mem (known.symm ▸ found)
      (same.trans known.symm)
    rw [this, running]
    rfl
  | reopens acq _ _ t step mid complete delegates calm changes =>
    have settles' : (mid.reopened acq.nodeRunId t.changed).settlesMissingSources a.args :=
      (settlesMissingSources_congr calm.nodes calm.instances).trans settles
    refine (changes.bagsReady settles' ?_).2
    refine (calm.bagsReady ready).setOn (fun _ => rfl) fun r mem same => ?_
    have known : acq.nodeRunId < s.nextId := by simpa [Enabled, step] using enabled
    rcases calm.back r mem with ⟨r0, old, evolves⟩ | begins
    · have advanced : r0.state.isAdvanced := by
        rw [step] at keeps
        have all := by simpa [complete, delegates] using keeps
        exact (all r0 old).resolve_left (not_not.mpr (evolves.id.symm.trans same))
      exact evolves.id ▸ calm.bags _ (ready r0 old advanced)
    · rw [← same] at known
      exact absurd known (Nat.not_lt.mpr begins.fresh)
  | claims same later free =>
    intro r mem advanced
    have bags : s'.dispatchInputBag? r.id = s.dispatchInputBag? r.id := by
      simp only [dispatchInputBag?, attributes?, same.2.1]
    rw [bags]
    exact ready r (same.1 ▸ mem) advanced

/--
Along every run whose steps all meet the condition, every run that is past its gate has its bag,
and a dispatch finds it.
-/
theorem dispatchBag_of_pastGate {s₀ s : Store} (sound : s₀.RunsSound) (ready : s₀.BagsReady)
    (run : Reaches next (fun s a => a.Enabled s ∧ a.keepsBags s) s₀ s) {r : NodeRun}
    (mem : r ∈ s.runs) (past : [NodeState.stale, .running, .held, .parked].contains r.state) :
    (s.dispatchInputBag? r.id).isSome ∧
      ∀ (args : RunArgs) (acq : Acquisition) (templateAttributeDefaults : Bag),
        acq.nodeRunId = r.id →
        ∃ loaded, loadDispatchBag args acq templateAttributeDefaults s = (.ok loaded, s) := by
  have invariant : s.RunsSound ∧ s.BagsReady := by
    refine run.invariant (I := fun s => s.RunsSound ∧ s.BagsReady) ?_ ⟨sound, ready⟩
    rintro s a s' ⟨sound, ready⟩ ⟨enabled, keeps⟩ taken
    have effect := next_effect sound enabled taken
    exact ⟨effect.sound sound, effect.bagsReady sound enabled keeps ready⟩
  have has := invariant.2 r mem ((isAdvanced_iff _).mpr past)
  refine ⟨has, fun args acq defaults same => ?_⟩
  rw [← same] at has
  rcases Option.isSome_iff_exists.mp has with ⟨bag, stored⟩
  unfold loadDispatchBag
  rw [read_bind, stored]
  exact ⟨_, rfl⟩

/-- The source succeeds, the report that follows it is claimed, and its bag is there. -/
theorem dispatchBag_of_pastGate_report :
    ∃ s, Reaches next (fun s a => a.Enabled s ∧ a.keepsBags s) (Chain.store (Chain.report [])) s ∧
      ∃ r ∈ s.runs, r.nodeId = 2 ∧ r.claimedBy = some "supervisor" ∧
        ∃ loaded, loadDispatchBag Chain.args
          { nodeRunId := r.id, nodeId := 2, instanceId := 1, nodeType := "report", runScopeId := 1
            frameId := 1 } [] s = (.ok loaded, s) := by
  have run : (runAll next (fun s a => a.Enabled s ∧ a.keepsBags s)
      ([start 1 .messageDelivery] ++ dispatch 10 ++
        [succeed 10 [("total", .num "4")]] ++ dispatch 11) (store (report []))).any
          (fun s => s.runs.any fun r =>
            r.nodeId = 2 && r.claimedBy = some "supervisor" && r.state = .running) := by
              decide +kernel
  rcases exists_reaches_of_runAll run with ⟨s, reached, claimed⟩
  rcases any_eq_true.mp claimed with ⟨r, mem, here⟩
  simp only [Bool.and_eq_true, decide_eq_true_eq] at here
  refine ⟨s, reached, r, mem, here.1.1, here.1.2, ?_⟩
  have ready : (store (report [])).BagsReady := fun r mem => by simp [store] at mem
  have past : [stale, .running, .held, .parked].contains r.state := by rw [here.2]; rfl
  exact (dispatchBag_of_pastGate (store_sound _) ready reached mem past).2 _ _ _ rfl

/--
The source succeeds without the total. The report that follows it is kept for another try, claimed
and dispatched, and has no bag.
-/
theorem report_without_bag :
    ∃ s, Reaches next (fun s a => a.Enabled s)
        (Chain.store (Chain.report [("template_resolution_failed", { action := .retry })])) s ∧
      ∃ r ∈ s.runs, r.state = .running ∧ r.claimedBy = some "supervisor" ∧
        s.dispatchInputBag? r.id = none ∧ (loadDispatchBag Chain.args
          { nodeRunId := r.id, nodeId := 2, instanceId := 1, nodeType := "report", runScopeId := 1
            frameId := 1 } [] s).1 =
          .error (.other ("loadDispatchBag: dispatch_input_bag missing for run 11 " ++
            "(invariant: every dispatched run must carry a snapshot bag)")) := by
  have run : (runAll next (fun s a => a.Enabled s)
      ([start 1 .messageDelivery] ++ dispatch 10 ++ [succeed 10 []] ++ dispatch 11)
      (store (report [("template_resolution_failed", { action := .retry })]))).any
        (fun s => (s.run? 11).any (fun r =>
          r.state = .running && r.claimedBy = some "supervisor") &&
            (s.dispatchInputBag? 11).isNone) := by
    decide +kernel
  rcases exists_reaches_of_runAll run with ⟨s, reached, lacks⟩
  simp only [Bool.and_eq_true, Option.isNone_iff_eq_none] at lacks
  cases found : s.run? 11 with
  | none => simp [found] at lacks
  | some r =>
    have id : r.id = 11 := by simpa using find?_some found
    have claimed : r.state = .running ∧ r.claimedBy = some "supervisor" := by
      simpa [found] using lacks.1
    refine ⟨s, reached, r, mem_of_find?_eq_some found, claimed.1, claimed.2, ?_, ?_⟩
    · rw [id]
      exact lacks.2
    · unfold loadDispatchBag
      rw [read_bind, id, lacks.2]
      rfl

end RunAction

end Rimsky
