import Rimsky.Runtime.RunSteps

/-!
# Runs past their gate

A gate looks for another run of the node and scope that is past its gate and not settled before
it clears, and a child run is started where there is none. Runs that operators, messages and
recalculations create stale are queued behind such a run. Two other writers do not look either:
the gate of a run whose source is missing, which is let through first and kept if the error
policy asks for another try, and the success of a delegating caller, whose run is running again
whatever became of it meanwhile.
-/

namespace Rimsky

open Transaction Store NodeRun Chain NodeState List

def NodeRun.counted (counts : CreationReason → Bool) (nodeId runScopeId : Id) (r : NodeRun) :
    Bool :=
  counts r.creationReason && r.nodeId = nodeId && r.runScopeId = runScopeId

namespace Store

def pastGate (s : Store) (counts : CreationReason → Bool) (nodeId runScopeId : Id) : List NodeRun :=
  s.runs.filter fun r => r.counted counts nodeId runScopeId &&
    [NodeState.stale, .running, .held, .parked].contains r.state

def missingSourcePolicy? (s : Store) (nodeId : Id) : Option ErrorTypePolicy :=
  (s.node? nodeId).bind fun node => (s.template? node.instanceId).bind fun spec =>
    lookupPolicyForNode (spec.lookupNodeDef node.nodeType) "template_resolution_failed" ""

/-- An attribute of the node is taken from a source. -/
def readsSource (s : Store) (args : RunArgs) (nodeId : Id) : Bool :=
  (s.node? nodeId).any fun node => (s.template? node.instanceId).any fun spec =>
    (schemaForGateEval args node.executor (templateAttributeDefaultsFor spec node.executor)
      (spec.lookupNodeDef node.nodeType)).any fun schema =>
        (schema.properties.getD []).any (·.2.source.isSome)

/-- The gate of the node has no source to miss, or the policy for a missing one ends the run. -/
def settlesMissingSource (s : Store) (args : RunArgs) (nodeId : Id) : Bool :=
  !s.readsSource args nodeId || (s.missingSourcePolicy? nodeId).all fun policy =>
    policy.action ≠ .retry && policy.action ≠ .releaseAndRequeue

def OnePast (s : Store) (counts : CreationReason → Bool) (nodeId runScopeId : Id) : Prop :=
  ∀ r ∈ s.pastGate counts nodeId runScopeId, ∀ q ∈ s.pastGate counts nodeId runScopeId, r.id = q.id

end Store

variable {counts : CreationReason → Bool} {nodeId runScopeId : Id} {s s' : Store} {r : NodeRun}

theorem NodeRun.counted_congr {r' : NodeRun} (origin : r'.origin = r.origin) :
    r'.counted counts nodeId runScopeId = r.counted counts nodeId runScopeId := by
  have reason : r'.creationReason = r.creationReason := congrArg (·.creationReason) origin
  have node : r'.nodeId = r.nodeId := congrArg (·.nodeId) origin
  have scope : r'.runScopeId = r.runScopeId := congrArg (·.runScopeId) origin
  simp only [counted, reason, node, scope]

theorem NodeRun.sameNodeAndScope_of_counted {q : NodeRun}
    (counted : r.counted counts nodeId runScopeId)
    (counted' : q.counted counts nodeId runScopeId) : r.sameNodeAndScope q := by
  simp only [NodeRun.counted, Bool.and_eq_true, decide_eq_true_eq] at counted counted'
  rw [NodeRun.sameNodeAndScope_iff, counted.1.2, counted.2, counted'.1.2, counted'.2]
  exact ⟨rfl, rfl⟩

theorem Store.mem_pastGate : r ∈ s.pastGate counts nodeId runScopeId ↔
    r ∈ s.runs ∧ r.counted counts nodeId runScopeId ∧ r.state.isAdvanced := by
  simp only [pastGate, mem_filter, Bool.and_eq_true, isAdvanced_iff]

theorem Store.OnePast.length_le_one (one : s.OnePast counts nodeId runScopeId)
    (sound : s.RunsSound) :
    (s.pastGate counts nodeId runScopeId).length ≤ 1 := by
  have distinct : ((s.pastGate counts nodeId runScopeId).map (·.id)).Nodup :=
    sound.distinct.sublist (filter_sublist.map _)
  unfold Store.OnePast at one
  generalize s.pastGate counts nodeId runScopeId = past at one distinct
  rcases past with _ | ⟨r, _ | ⟨q, rest⟩⟩
  · simp
  · simp
  · have same := one r (by simp) q (by simp)
    simp [same] at distinct

theorem Store.OnePast.of_back (one : s.OnePast counts nodeId runScopeId)
    (back : ∀ r' ∈ s'.pastGate counts nodeId runScopeId,
      ∃ r ∈ s.pastGate counts nodeId runScopeId, r'.origin = r.origin) :
    s'.OnePast counts nodeId runScopeId := by
  intro r' mem q' mem'
  rcases back r' mem with ⟨r, old, same⟩
  rcases back q' mem' with ⟨q, old', same'⟩
  exact (congrArg (·.id) same).trans ((one r old q old').trans (congrArg (·.id) same').symm)

theorem Store.OnePast.join (one : s.OnePast counts nodeId runScopeId) {id : Id} {here : Prop}
    (back : ∀ r' ∈ s'.pastGate counts nodeId runScopeId, (r'.id = id ∧ here) ∨
      ∃ r ∈ s.pastGate counts nodeId runScopeId, r'.origin = r.origin)
    (alone : here → ∀ r ∈ s.pastGate counts nodeId runScopeId, r.id = id) :
    s'.OnePast counts nodeId runScopeId := by
  by_cases joins : here
  · have ids : ∀ r' ∈ s'.pastGate counts nodeId runScopeId, r'.id = id := by
      intro r' mem
      rcases back r' mem with ⟨same, -⟩ | ⟨r, old, same⟩
      · exact same
      · exact (congrArg (·.id) same).trans (alone joins r old)
    intro r' mem q' mem'
    rw [ids r' mem, ids q' mem']
  · refine one.of_back fun r' mem => ?_
    rcases back r' mem with ⟨-, is⟩ | old
    · exact absurd is joins
    · exact old

theorem NodeRun.joins_of_origin {r' row : NodeRun} {here old : Prop}
    (back : (r'.origin = row.origin ∧ here) ∨ old) : (r'.id = row.id ∧ here) ∨ old := by
  rcases back with ⟨same, joins⟩ | stays
  · have id : r'.id = row.id := congrArg (·.id) same
    exact .inl ⟨id, joins⟩
  · exact .inr stays

theorem Calm.back_advanced {r' : NodeRun} (calm : Calm s s') (mem : r' ∈ s'.runs)
    (advanced : r'.state.isAdvanced) :
    ∃ r ∈ s.runs, r.Evolves r' ∧ r.state.isAdvanced := by
  rcases calm.back r' mem with ⟨r, old, evolves⟩ | begins
  · exact ⟨r, old, evolves, evolves.advanced advanced⟩
  · rcases begins.state with waits | settled
    · rw [waits] at advanced
      cases advanced
    · cases state : r'.state <;> simp [state, isAdvanced, isTerminal] at advanced settled

theorem Calm.pastGate_back (calm : Calm s s') : ∀ r' ∈ s'.pastGate counts nodeId runScopeId,
    ∃ r ∈ s.pastGate counts nodeId runScopeId, r'.origin = r.origin := by
  intro r' mem
  rcases mem_pastGate.mp mem with ⟨here, counted, advanced⟩
  rcases calm.back_advanced here advanced with ⟨r, old, evolves, before⟩
  rw [counted_congr evolves.origin] at counted
  exact ⟨r, mem_pastGate.mpr ⟨old, counted, before⟩, evolves.origin⟩

variable {args : RunArgs} {row : NodeRun}

theorem Store.settlesMissingSource_congr (nodes : s'.nodes = s.nodes)
    (instances : s'.instances = s.instances) :
    s'.settlesMissingSource args nodeId = s.settlesMissingSource args nodeId := by
  simp only [settlesMissingSource, readsSource, missingSourcePolicy?, node?, template?,
    instance?, nodes, instances]

theorem substitute_of_sourceless {properties : List (String × SchemaProperty)}
    (sourceless : ∀ entry ∈ properties, entry.2.source = none) (rctx : ResolveContext) (out : Bag) :
    ∃ bag, properties.foldlM (substituteProperty rctx true) out = .ok bag := by
  induction properties generalizing out with
  | nil => exact ⟨out, rfl⟩
  | cons entry rest ih =>
    have one : ∃ bag, substituteProperty rctx true out entry = .ok bag := by
      unfold substituteProperty
      dsimp only
      rw [sourceless entry mem_cons_self]
      cases entry.2.default <;> exact ⟨_, rfl⟩
    rcases one with ⟨bag, one⟩
    rw [foldlM_cons, one]
    exact ih (fun entry mem => sourceless entry (mem_cons_of_mem _ mem)) bag

theorem Store.KeptAtGate.readsSource (kept : s.KeptAtGate args row) :
    s.readsSource args row.nodeId := by
  rcases kept with ⟨⟨carry, error, built, -⟩, node, spec, -, found, template, -⟩
  by_contra none
  simp only [Store.readsSource, found, template, Option.any_some] at none
  simp only [buildResolvedBagAtGateEval, read_bind, id_eq, found,
    bind_of_ok (loadTemplateSpec_of_found template)] at built
  generalize schemaForGateEval args node.executor _ _ = merged at none built
  rcases merged with _ | ⟨_ | properties⟩
  · cases built
  · cases built
  · have sourceless : ∀ entry ∈ properties, entry.2.source = Option.none := by simpa using none
    rcases substitute_of_sourceless sourceless (s.gateContext row node.instanceId) carry with
      ⟨bag, ok⟩
    simp [substituteAttributesSchemaWith, ok] at built

theorem Store.KeptAtGate.not_settles (kept : s.KeptAtGate args row) :
    s.settlesMissingSource args row.nodeId = false := by
  have reads := kept.readsSource
  rcases kept with ⟨-, node, spec, policy, found, template, policies, keeps⟩
  simp only [settlesMissingSource, reads, missingSourcePolicy?, found, template, policies,
    Option.bind_some, Option.all_some]
  rcases keeps with retry | requeue
  · simp [retry]
  · simp [requeue]

theorem Opens.pastGate_back (opens : Opens row s s') (sound : s.RunsSound) :
    ∀ r' ∈ s'.pastGate counts nodeId runScopeId,
      (r'.origin = row.origin ∧ row.counted counts nodeId runScopeId) ∨
        ∃ r ∈ s.pastGate counts nodeId runScopeId, r'.origin = r.origin := by
  intro r' mem
  rcases mem_pastGate.mp mem with ⟨here, counted, advanced⟩
  rcases opens.runs with ⟨t, runs⟩
  rw [runs] at here
  rcases mem_map.mp here with ⟨r, old, rfl⟩
  have origin : (r.passed row.id t).origin = r.origin := by
    unfold passed
    split <;> rfl
  rw [counted_congr origin] at counted
  by_cases this : r.id = row.id
  · -- the only row with this id is the one that is let through
    have same := sound.eq_of_id old opens.known this
    subst same
    exact .inl ⟨origin, counted⟩
  · have same : r.passed row.id t = r := by simp [passed, this]
    rw [same] at advanced
    exact .inr ⟨r, mem_pastGate.mpr ⟨old, counted, advanced⟩, origin⟩

theorem Adds.pastGate_back (adds : Adds row s s') :
    ∀ r' ∈ s'.pastGate counts nodeId runScopeId,
      (r'.origin = row.origin ∧ row.counted counts nodeId runScopeId) ∨
        ∃ r ∈ s.pastGate counts nodeId runScopeId, r'.origin = r.origin := by
  intro r' mem
  rcases mem_pastGate.mp mem with ⟨here, counted, advanced⟩
  rcases adds.mem_runs here with old | rfl
  · exact .inr ⟨r', mem_pastGate.mpr ⟨old, counted, advanced⟩, rfl⟩
  · exact .inl ⟨rfl, counted⟩

theorem deleteRuns_pastGate_back (ids : List Id) :
    ∀ r' ∈ (s.deleteRuns ids).pastGate counts nodeId runScopeId,
      ∃ r ∈ s.pastGate counts nodeId runScopeId, r'.origin = r.origin := by
  intro r' mem
  rcases mem_pastGate.mp mem with ⟨here, counted, advanced⟩
  rcases mem_deleteRuns here with ⟨r, old, core, -⟩
  have state : r'.state = r.state := congrArg (·.state) core
  have origin : r'.origin = r.origin := congrArg (·.origin) core
  rw [counted_congr origin] at counted
  rw [state] at advanced
  exact ⟨r, mem_pastGate.mpr ⟨old, counted, advanced⟩, origin⟩

theorem setOn_pastGate_back (runId : Id) {change : NodeRun → NodeRun}
    (origin : ∀ r, (change r).origin = r.origin) :
    ∀ r' ∈ ({ s with runs := s.runs.map (NodeRun.setOn runId change) } : Store).pastGate
        counts nodeId runScopeId,
      (r'.id = runId ∧ ∃ r ∈ s.runs, r.id = runId ∧ r.counted counts nodeId runScopeId) ∨
        ∃ r ∈ s.pastGate counts nodeId runScopeId, r'.origin = r.origin := by
  intro r' mem
  rcases mem_pastGate.mp mem with ⟨here, counted, advanced⟩
  rcases mem_map.mp here with ⟨r, old, rfl⟩
  unfold setOn at counted advanced ⊢
  by_cases this : r.id = runId
  · rw [if_pos this] at counted ⊢
    rw [counted_congr (origin r)] at counted
    have id : (change r).id = r.id := congrArg (·.id) (origin r)
    exact .inl ⟨id.trans this, r, old, this, counted⟩
  · rw [if_neg this] at counted advanced ⊢
    exact .inr ⟨r, mem_pastGate.mpr ⟨old, counted, advanced⟩, rfl⟩

theorem NodeState.isInFlight_of_isAdvanced {state : NodeState} (advanced : state.isAdvanced) :
    state.isInFlight := by
  cases state <;> first | rfl | cases advanced

theorem RunChange.onePast (change : RunChange anytime args s s') (sound : s.RunsSound)
    (settles : s.settlesMissingSource args nodeId) (one : s.OnePast counts nodeId runScopeId) :
    s'.OnePast counts nodeId runScopeId := by
  cases change with
  | calm calm => exact one.of_back calm.pastGate_back
  | clears row clears =>
    refine one.join (fun r mem => joins_of_origin (clears.toOpens.pastGate_back sound r mem)) ?_
    intro rowCounted r mem
    rcases mem_pastGate.mp mem with ⟨old, counted, advanced⟩
    by_contra other
    rw [clears.alone r old (sameNodeAndScope_of_counted counted rowCounted) other] at advanced
    cases advanced
  | keeps row opens kept =>
    refine one.join (fun r mem => joins_of_origin (opens.pastGate_back sound r mem)) ?_
    intro rowCounted
    have node : row.nodeId = nodeId := by
      simp only [counted, Bool.and_eq_true, decide_eq_true_eq] at rowCounted
      exact rowCounted.1.2
    have keeps := kept.not_settles
    rw [node, settles] at keeps
    cases keeps
  | prunes prunes => cases prunes <;> exact one.of_back (deleteRuns_pastGate_back _)
  | spawns row spawns =>
    refine one.join (fun r mem => joins_of_origin (spawns.toAdds.pastGate_back r mem)) ?_
    intro rowCounted r mem
    rcases mem_pastGate.mp mem with ⟨old, counted, advanced⟩
    have busy := isInFlight_of_isAdvanced advanced
    rw [spawns.alone r old (sameNodeAndScope_of_counted counted rowCounted)] at busy
    cases busy
  | scopes parentId opens =>
    refine one.of_back fun r' mem => ⟨r', ?_, rfl⟩
    unfold pastGate at mem ⊢
    rwa [opens.runs] at mem

theorem RunChanges.onePast (changes : RunChanges anytime args s s') (sound : s.RunsSound)
    (settles : s.settlesMissingSource args nodeId) (one : s.OnePast counts nodeId runScopeId) :
    s'.settlesMissingSource args nodeId ∧ s'.OnePast counts nodeId runScopeId := by
  induction changes with
  | refl => exact ⟨settles, one⟩
  | @tail mid s' before change ih =>
    have same : s'.settlesMissingSource args nodeId = mid.settlesMissingSource args nodeId :=
      settlesMissingSource_congr change.static.1 change.static.2
    exact ⟨same.trans ih.1, change.onePast (RunChanges.sound before sound) ih.1 ih.2⟩

namespace RunAction

/--
A missing source ends the node's runs, a run that counts is created stale only where none is
past its gate, and a delegating caller succeeds only while no other run is.
-/
def keepsOnePast (counts : CreationReason → Bool) (nodeId runScopeId : Id) (s : Store)
    (a : RunAction) : Bool :=
  s.settlesMissingSource a.args nodeId &&
    match a.step with
    | .create input =>
      !(counts input.creationReason && input.nodeId = nodeId && input.runScopeId = runScopeId) ||
        (s.pastGate counts nodeId runScopeId).isEmpty
    | .terminal acq _ _ t =>
      !(t.kind = .complete && acq.nodeDef.any (·.isSubgraphEntryAbsorbed)) ||
        (s.pastGate counts nodeId runScopeId).all (·.id = acq.nodeRunId) ||
          !(s.runs.any fun r => r.id = acq.nodeRunId && r.counted counts nodeId runScopeId)
    | _ => true

theorem Effect.onePast {a : RunAction} (effect : a.Effect anytime s s') (sound : s.RunsSound)
    (enabled : a.Enabled s) (keeps : a.keepsOnePast counts nodeId runScopeId s)
    (one : s.OnePast counts nodeId runScopeId) : s'.OnePast counts nodeId runScopeId := by
  unfold keepsOnePast at keeps
  rw [Bool.and_eq_true] at keeps
  rcases keeps with ⟨settles, keeps⟩
  cases effect with
  | tidy changes => exact (changes.onePast sound settles one).2
  | handles call _ handles =>
    rcases handles with ⟨f, rfl, rows⟩
    refine one.of_back fun r' mem => ?_
    rcases mem_pastGate.mp mem with ⟨here, counted, advanced⟩
    rcases mem_map.mp here with ⟨r, old, rfl⟩
    have handled := rows r old
    rw [counted_congr handled.origin] at counted
    exact ⟨r, mem_pastGate.mpr ⟨old, counted, handled.advanced advanced⟩, handled.origin⟩
  | creates input row step node scope reason adds =>
    refine one.join (fun r mem => joins_of_origin (adds.pastGate_back r mem)) ?_
    intro rowCounted r mem
    rw [counted, node, scope, reason] at rowCounted
    rw [step] at keeps
    dsimp only at keeps
    rw [rowCounted, Bool.not_true, Bool.false_or, List.isEmpty_iff] at keeps
    rw [keeps] at mem
    cases mem
  | parks acq _ _ t _ mid row _ calm found running parked =>
    have before : mid.OnePast counts nodeId runScopeId := one.of_back calm.pastGate_back
    rw [parked]
    refine before.join (setOn_pastGate_back _ fun _ => rfl) ?_
    -- the run was running, so it was the one past its gate
    rintro ⟨r, here, same, counted⟩ q mem
    have known : row.id = acq.nodeRunId := by simpa using find?_some found
    have this : r = row := (calm.sound sound).eq_of_id here (known.symm ▸ found)
      (same.trans known.symm)
    have advanced : r.state.isAdvanced := by
      rw [this, running]
      rfl
    rw [← same]
    exact before q mem r (mem_pastGate.mpr ⟨here, counted, advanced⟩)
  | reopens acq _ _ t step mid complete delegates calm changes =>
    have before : mid.OnePast counts nodeId runScopeId := one.of_back calm.pastGate_back
    have settles' : (mid.reopened acq.nodeRunId t.changed).settlesMissingSource a.args nodeId :=
      (settlesMissingSource_congr calm.nodes calm.instances).trans settles
    refine (changes.onePast (reopened_sound (calm.sound sound) _ _) settles' ?_).2
    refine before.join (setOn_pastGate_back _ fun _ => rfl) ?_
    rintro ⟨r, here, same, counted⟩ q mem
    -- the run was there before the terminal
    have known : acq.nodeRunId < s.nextId := by simpa [Enabled, step] using enabled
    have there : s.runs.any fun r => r.id = acq.nodeRunId &&
        r.counted counts nodeId runScopeId := by
      rcases calm.back r here with ⟨r0, old, evolves⟩ | begins
      · rw [counted_congr evolves.origin] at counted
        refine any_eq_true.mpr ⟨r0, old, ?_⟩
        simp [← evolves.id, same, counted]
      · rw [← same] at known
        exact absurd known (Nat.not_lt.mpr begins.fresh)
    have only : (s.pastGate counts nodeId runScopeId).all (·.id = acq.nodeRunId) := by
      rw [step] at keeps
      simpa [complete, delegates, there] using keeps
    rcases calm.pastGate_back q mem with ⟨q0, old, origin⟩
    have id : q.id = q0.id := congrArg (·.id) origin
    rw [id]
    simpa using all_eq_true.mp only q0 old
  | claims same later free =>
    refine one.of_back fun r' mem => ⟨r', ?_, rfl⟩
    unfold pastGate at mem ⊢
    rwa [same.1] at mem

/--
Along every run whose steps all meet the condition, from a store in which the scope is empty, at
most one run that counts is past its gate. Where only cascades count, it does not matter when
other runs are created.
-/
theorem pastGate_le_one {s₀ s : Store} (sound : s₀.RunsSound)
    (empty : ∀ r ∈ s₀.runs, r.runScopeId ≠ runScopeId)
    (run : Reaches next (fun s a => a.Enabled s ∧ a.keepsOnePast counts nodeId runScopeId s) s₀ s) :
    (s.pastGate counts nodeId runScopeId).length ≤ 1 := by
  have start : s₀.OnePast counts nodeId runScopeId := by
    intro r mem
    have here := mem_pastGate.mp mem
    simp only [counted, Bool.and_eq_true, decide_eq_true_eq] at here
    exact absurd here.2.1.2 (empty r here.1)
  have invariant : s.RunsSound ∧ s.OnePast counts nodeId runScopeId := by
    refine run.invariant (I := fun s => s.RunsSound ∧ s.OnePast counts nodeId runScopeId) ?_
      ⟨sound, start⟩
    rintro s a s' ⟨sound, one⟩ ⟨enabled, keeps⟩ taken
    have effect := next_effect sound enabled taken
    exact ⟨effect.sound sound, effect.onePast sound enabled keeps one⟩
  exact invariant.2.length_le_one invariant.1

/--
The source succeeds, and the report that follows it passes its gate; an operator starts another
one, which is queued behind it.
-/
theorem pastGate_le_one_report :
    (Chain.store (Chain.report [])).RunsSound ∧
    ∃ s, Reaches next (fun s a => a.Enabled s ∧ a.keepsOnePast (· = .cascade) 2 1 s)
        (Chain.store (Chain.report [])) s ∧
      (s.pastGate (fun _ => true) 2 1).length = 2 ∧ (s.pastGate (· = .cascade) 2 1).length ≤ 1 := by
  have run : (runAll next (fun s a => a.Enabled s ∧ a.keepsOnePast (· = .cascade) 2 1 s)
      ([start 1 .messageDelivery] ++ dispatch 10 ++
        [succeed 10 [("total", .num "4")], start 2 .operatorInvalidate])
      (store (report []))).any
        (fun s => (s.pastGate (fun _ => true) 2 1).length = 2) := by decide +kernel
  rcases exists_reaches_of_runAll run with ⟨s, reached, past⟩
  refine ⟨store_sound _, s, reached, of_decide_eq_true past, ?_⟩
  exact pastGate_le_one (store_sound _) (by simp [store]) reached

/--
An operator starts a report while one is running. A report is queued, the source succeeds without
the total, and the report that follows it is let through its gate and kept, since its policy is to
try again.
-/
theorem two_reports_past_gate :
    (∃ s, Reaches next (fun s a => a.Enabled s) (Chain.store (Chain.report [])) s ∧
      (s.pastGate (fun _ => true) 2 1).map (fun r => (r.id, r.state)) =
        [(10, .running), (11, .stale)]) ∧
    ∃ s, Reaches next (fun s a => a.Enabled s)
        (Chain.store (Chain.report [("template_resolution_failed", { action := .retry })])) s ∧
      (s.pastGate (fun _ => true) 2 1).map (fun r => (r.id, r.state)) =
        [(10, .stale), (12, .stale)] := by
  have behind : (runAll next (fun s a => a.Enabled s)
      ([start 2 .messageDelivery] ++ dispatch 10 ++ [start 2 .operatorInvalidate])
      (store (report []))).any (fun s =>
        (s.pastGate (fun _ => true) 2 1).map (fun r => (r.id, r.state)) =
          [(10, .running), (11, .stale)]) := by
    decide +kernel
  have kept : (runAll next (fun s a => a.Enabled s)
      ([start 2 .messageDelivery, start 1 .messageDelivery] ++ dispatch 11 ++
        [succeed 11 []])
      (store (report [("template_resolution_failed", { action := .retry })]))).any (fun s =>
        (s.pastGate (fun _ => true) 2 1).map (fun r => (r.id, r.state)) =
          [(10, .stale), (12, .stale)]) := by
    decide +kernel
  rcases exists_reaches_of_runAll behind with ⟨s, reached, two⟩
  rcases exists_reaches_of_runAll kept with ⟨s', reached', two'⟩
  exact ⟨⟨s, reached, of_decide_eq_true two⟩, s', reached', of_decide_eq_true two'⟩

end RunAction

end Rimsky
