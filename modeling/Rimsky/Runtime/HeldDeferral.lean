import Rimsky.Runtime.Silence

/-!
# Deferred successes

A run that succeeds while it holds claims tells only the nodes it holds them with; the
others are told once the claims are committed (`transitionHolderIfFullyResolved`). A run that
holds nothing tells everyone at once (`applyTerminalComplete`). This file compares what a node
outside the sub-graphs of the run is told on the two ways.

The deferred signal is built from what is stored, which has no changed flag and no tags, so
the two agree only where the terminal had neither, sent its whole bag as the delta, and left
every attribute as it was. The run is taken to lie in an open main scope: elsewhere the walker
reaches only nodes that have a run in flight there, on both ways.
-/

namespace Rimsky

open Transaction List SubscriptionEdgeMap Silent

variable {nodeType receiverType : String} {sig : Signal} {node : Node} {sender : Sender}
  {s s' mid : Store} {runId : Id} {u : Unit}

def SignalPayload.withoutSummary : SignalPayload → SignalPayload
  | .terminalSuccess changed delta _ tags => .terminalSuccess changed delta "" tags
  | payload => payload

def Signal.withoutSummary (sig : Signal) : Signal :=
  { sig with payload := sig.payload.withoutSummary }

/-- No predicate of a subscription reads the change summary. -/
def RunArgs.IgnoresSummary (args : RunArgs) : Prop :=
  ∀ expr sig, args.evalWhen expr sig = args.evalWhen expr sig.withoutSummary

/-- The run lies in a main scope that is open. -/
def Store.InMain (s : Store) (runId : Id) : Prop :=
  ∃ scope, s.scopeOf? runId = some scope ∧ scope.isMain ∧ scope.closedAt = none

theorem Store.InMain.mainOpen (inMain : s.InMain runId) :
    ∃ scope, s.scopeOf? runId = some scope ∧ s.MainOpen scope := by
  rcases inMain with ⟨scope, placed, main, opened⟩
  refine ⟨scope, placed, main, opened, ?_⟩
  rcases Option.bind_eq_some_iff.mp placed with ⟨row, -, found⟩
  have named : scope.id = row.runScopeId := by simpa using find?_some found
  rw [named]
  exact found

/-- The store has the run of the acquisition, in a main scope, and the graph of its instance. -/
structure Store.Hosts (s : Store) (acq : Acquisition) (spec : TemplateSpec) (nodes : List Node) :
    Prop where
  template : s.template? acq.instanceId = some spec
  nodes : s.instanceNodes acq.instanceId = nodes
  known : acq.nodeRunId < s.nextId
  placed : s.InMain acq.nodeRunId

/--
A success of a run that holds claims: its terminal is applied in the store `running`, and in
the store `resolved`, where all claims it held are committed and its bag is `bag`, it is
moved on.
-/
structure HeldSuccess (args : RunArgs) (acq : Acquisition) (t : TerminalEvent) (bag : Bag)
    (spec : TemplateSpec) (nodes : List Node) where
  fuel : Nat
  running : Store
  announced : Store
  resolved : Store
  settled : Store
  holder : NodeRun
  node : Node
  post : List PostCommit
  hosts : running.Hosts acq spec nodes
  silent : ∀ nodeId, running.signalsTo acq.nodeRunId nodeId = []
  announce : announceHeld args (knot args fuel) acq t running = (.ok (), announced)
  waits : (announced.run? acq.nodeRunId).map (·.state) = some .held
  /-- Nothing is said on behalf of the run until it is moved. -/
  between : ∀ nodeId,
    resolved.signalsTo acq.nodeRunId nodeId = announced.signalsTo acq.nodeRunId nodeId
  hostsStill : resolved.Hosts acq spec nodes
  found : resolved.run? acq.nodeRunId = some holder
  held : holder.state = .held
  ofNode : resolved.node? holder.nodeId = some node
  ofType : node.nodeType = acq.nodeType
  ofInstance : node.instanceId = acq.instanceId
  ofFrame : holder.frameId = acq.frameId
  data : resolved.data? acq.nodeRunId = some bag
  committed : ∀ h ∈ resolved.portfolio acq.nodeRunId, h.state = .committed
  leaf : resolved.children acq.nodeRunId = []
  move : transitionHolderIfFullyResolved args (knot args fuel) acq.nodeRunId resolved =
    (.ok post, settled)

/--
The same success of a run that holds nothing. Its bag is `bag` and the bag it is compared
with `prior` when the attribute changes are worked out.
-/
structure PlainSuccess (args : RunArgs) (acq : Acquisition) (t : TerminalEvent) (prior bag : Bag)
    (spec : TemplateSpec) (nodes : List Node) where
  fuel : Nat
  running : Store
  told : Store
  settled : Store
  visited : List Id
  before : List PostCommit
  settlement : Settlement
  hosts : running.Hosts acq spec nodes
  silent : ∀ nodeId, running.signalsTo acq.nodeRunId nodeId = []
  tell : tellSuccess args (knot args fuel) acq t running = (.ok visited, told)
  placed : told.InMain acq.nodeRunId
  data : told.data? acq.nodeRunId = some bag
  baseline : attributeBaseline args acq.sender told = (.ok prior, told)
  complete : completeFresh args (knot args fuel) acq t before running = (.ok settlement, settled)

/-- The signals that the run told the node, each once, however many edges carried it. -/
def Store.toldBy (s : Store) (runId nodeId : Id) : List Signal :=
  ((s.signalsTo runId nodeId).map Signal.withoutSummary).eraseDups

/-- Every node outside the sub-graphs of the run is told the same on the two ways. -/
def ToldAlike {args : RunArgs} {acq : Acquisition} {t : TerminalEvent} {prior bag : Bag}
    {spec : TemplateSpec} {nodes : List Node} (held : HeldSuccess args acq t bag spec nodes)
    (plain : PlainSuccess args acq t prior bag spec nodes) : Prop :=
  ∀ node ∈ nodes, subgraphNonMemberFilter spec acq.nodeType node.nodeType →
    held.settled.toldBy acq.nodeRunId node.id = plain.settled.toldBy acq.nodeRunId node.id

/-- A success of which the deferred signal leaves nothing out. -/
structure TerminalEvent.Bare (t : TerminalEvent) (prior bag : Bag) : Prop where
  unchanged : t.changed = false
  untagged : t.tags = []
  whole : ∀ key, t.attributesDel.get? key = bag.get? key
  same : ∀ key, prior.get? key = bag.get? key

/-- The receiver subscribes to the pattern of the sender without a predicate. -/
def Subscribes (spec : TemplateSpec) (senderType receiverType pattern : String) : Prop :=
  ∃ edge, (senderType, edge) ∈ buildSubscriptionEdges spec ∧
    edge.receiverNodeType = receiverType ∧ edge.typePattern = pattern ∧ edge.whenExpr = ""

def fires (args : RunArgs) (spec : TemplateSpec) (nodeType : String) (sig : Signal)
    (receiverType : String) : Bool :=
  ((buildSubscriptionEdges spec).match nodeType sig.type).any fun e =>
    (e.whenExpr = "" || args.evalWhen e.whenExpr sig) && e.receiverNodeType = receiverType

variable {filter : String → Bool}

theorem mem_walkTargets {args : RunArgs} {spec : TemplateSpec} {nodes : List Node}
    (mem : node ∈ nodes) (distinct : (nodes.map (·.id)).Nodup) :
    node.id ∈ (walkTargets args spec nodes nodeType sig filter).map (·.2.id) ↔
      filter node.nodeType ∧ fires args spec nodeType sig node.nodeType := by
  have only : ∀ other ∈ nodes, other.id = node.id → other = node := fun other otherMem same =>
    inj_on_of_nodup_map distinct otherMem mem same
  simp only [walkTargets, fires, edgeFires, mem_map, mem_flatMap, mem_filter,
    any_eq_true, Bool.and_eq_true, decide_eq_true_eq]
  constructor
  · rintro ⟨_, ⟨edge, ⟨matched, whenHolds, passes⟩, receiver, ⟨receiverMem, type⟩, rfl⟩, same⟩
    have := only receiver receiverMem same
    subst this
    exact ⟨type ▸ passes, edge, matched, whenHolds, type.symm⟩
  · rintro ⟨passes, edge, matched, whenHolds, type⟩
    exact ⟨(edge, node), ⟨edge, ⟨matched, whenHolds, type ▸ passes⟩, node, ⟨mem, type.symm⟩, rfl⟩,
      rfl⟩

/-- The node was told the signal and no other, or nothing if none of its edges fires. -/
def Heard (told : List Signal) (fires : Bool) (sig : Signal) : Prop :=
  ∃ times, told = replicate times sig ∧ (fires → 0 < times) ∧ (fires = false → times = 0)

theorem Heard.mem {told : List Signal} (heard : Heard told true sig) : sig ∈ told := by
  rcases heard with ⟨times, rfl, some, -⟩
  exact mem_replicate.mpr ⟨(some rfl).ne', rfl⟩

theorem eraseDups_replicate_succ (sig : Signal) (times : Nat) :
    (replicate (times + 1) sig).eraseDups = [sig] := by
  rw [replicate_succ, eraseDups_cons, filter_eq_nil_iff.mpr]
  · rfl
  · intro other mem
    simp [(mem_replicate.mp mem).2]

theorem Heard.eraseDups {told : List Signal} {fires : Bool} (heard : Heard told fires sig) :
    (told.map Signal.withoutSummary).eraseDups = if fires then [sig.withoutSummary] else [] := by
  rcases heard with ⟨times, rfl, some, none⟩
  rw [map_replicate]
  cases fires with
  | false =>
    rw [none rfl]
    rfl
  | true =>
    rcases Nat.exists_eq_add_one.mpr (some rfl) with ⟨more, rfl⟩
    exact eraseDups_replicate_succ _ more

def Store.HasGraph (s : Store) (instanceId : Id) (spec : TemplateSpec) (nodes : List Node) : Prop :=
  s.template? instanceId = some spec ∧ s.instanceNodes instanceId = nodes

theorem Store.HasGraph.fixed {instanceId : Id} {spec : TemplateSpec} {nodes : List Node}
    (graph : s.HasGraph instanceId spec nodes) (fixed : Fixed s s') :
    s'.HasGraph instanceId spec nodes :=
  ⟨(fixed.template? _).trans graph.1, (fixed.instanceNodes _).trans graph.2⟩

theorem Store.Hosts.graph {acq : Acquisition} {spec : TemplateSpec} {nodes : List Node}
    (hosts : s.Hosts acq spec nodes) : s.HasGraph acq.instanceId spec nodes :=
  ⟨hosts.template, hosts.nodes⟩

/-- A signal of a settled run to a node that was told nothing and is not visited yet. -/
theorem heard_emitSignalWithFilter {args : RunArgs} {spec : TemplateSpec} {nodes : List Node}
    {fuel : Nat} {visited visited' : List Id} (settled : s.isSettled sender.nodeRunId)
    (ids : sender.nodeRunId ≠ 0 ∧ sender.frameId ≠ 0) (cascades : shouldCascade sig.type)
    (graph : s.HasGraph sender.instanceId spec nodes) (inMain : s.InMain sender.nodeRunId)
    (ran : emitSignalWithFilter args (knot args fuel) sender sig visited filter s =
      (.ok visited', s'))
    (mem : node ∈ nodes) (distinct : (nodes.map (·.id)).Nodup) (passes : filter node.nodeType)
    (untold : s.signalsTo sender.nodeRunId node.id = []) (fresh : node.id ∉ visited) :
    s'.isSettled sender.nodeRunId ∧
      Heard (s'.signalsTo sender.nodeRunId node.id)
        (fires args spec sender.nodeType sig node.nodeType) sig ∧
      (node.id ∈ visited' → fires args spec sender.nodeType sig node.nodeType) := by
  rcases inMain.mainOpen with ⟨scope, placed, mainOpen⟩
  have target : node.id ∈ (walkTargets args spec nodes sender.nodeType sig filter).map (·.2.id) ↔
      filter node.nodeType ∧ fires args spec sender.nodeType sig node.nodeType :=
    mem_walkTargets mem distinct
  rcases emitSignalWithFilter_tells settled ids cascades graph.1 placed ran node.id with
    ⟨among, times, tells, none, some⟩
  rw [graph.2] at among none some
  have said := tells.said
  rw [untold, nil_append] at said
  refine ⟨tells.settled, ⟨times, said, fun fired => ?_, fun still => none ?_⟩, fun seen => ?_⟩
  · exact some (target.mpr ⟨passes, fired⟩) mainOpen fresh
  · rw [target, still]
    simp
  · rcases among _ seen with told | before
    · exact (target.mp told).2
    · exact absurd before fresh

theorem fires_congr {args : RunArgs} (ignores : args.IgnoresSummary) {spec : TemplateSpec}
    {sig' : Signal} (same : sig.withoutSummary = sig'.withoutSummary) :
    fires args spec nodeType sig receiverType = fires args spec nodeType sig' receiverType := by
  have type : sig.withoutSummary.type = sig'.withoutSummary.type := by rw [same]
  change sig.type = sig'.type at type
  unfold fires
  rw [type]
  congr 1
  funext e
  rw [ignores e.whenExpr sig, ignores e.whenExpr sig', same]

theorem shouldCascade_success (changed : Bool) (delta : Bag) (summary : String)
    (tags : List String) :
    shouldCascade (buildTerminalSuccessSignal changed delta summary tags).type := by
  have cascades : shouldCascade "terminal/success" := by decide +kernel
  exact cascades

theorem emitAttributeChangesForRun_of_unchanged {args : RunArgs} {rec : Rec} {prior bag : Bag}
    (data : s.data? sender.nodeRunId = some bag)
    (baseline : attributeBaseline args sender s = (.ok prior, s))
    (same : diffAttributesData prior bag = []) (visited : List Id) (filter : String → Bool) :
    emitAttributeChangesForRun args rec sender visited filter s = (.ok visited, s) := by
  unfold emitAttributeChangesForRun
  rw [read_bind, data]
  dsimp only
  rw [bind_of_ok baseline, same]
  rfl

structure Store.Telling (s s' : Store) (runId : Id) : Prop where
  settled : s'.isSettled runId
  fixed : Fixed s s'
  place : s'.scopeOf? runId = s.scopeOf? runId
  unsaid : ∀ nodeId, s'.signalsTo runId nodeId = s.signalsTo runId nodeId

theorem telling_updateState {state : NodeState} {reason : TransitionReason} {sig : Option String}
    (known : runId < s.nextId) (terminal : state.isTerminal)
    (moved : Nodes.updateState runId state reason sig s = (.ok u, s')) : s.Telling s' runId := by
  have fixed := Fixed.blind.updateState runId state reason sig s
  have place : SamePlace s (Nodes.updateState runId state reason sig s).2 := by
    refine steps_bind (steps_read _) (fun _ => steps_bind (steps_need _ _) fun _ => ?_) s
    exact steps_ite (fun _ => steps_bind (samePlace_updateRuns (fun _ _ => rfl) fun _ _ => rfl)
      fun _ => steps_pure _) fun _ => steps_fail _
  rw [moved] at fixed place
  refine ⟨isIn_updateState known terminal moved, fixed, place runId, fun nodeId => ?_⟩
  rw [Nodes.updateState_eq_ok moved]
  rfl

section

variable (telling : s.Telling mid runId)

include telling

theorem Store.Telling.inMain (inMain : s.InMain runId) : mid.InMain runId := by
  rcases inMain with ⟨scope, placed, main⟩
  exact ⟨scope, telling.place.trans placed, main⟩

theorem Store.Telling.step {α : Type} {m : Tx α} {a : α} (fixed : Steps Fixed m)
    (place : Steps SamePlace m)
    (silent : ∀ nodeId, Steps (Silent runId (Delivery.reaches runId nodeId)) m)
    (ran : m mid = (.ok a, s')) : s.Telling s' runId := by
  have fixed := fixed mid
  have place := place mid runId
  have said := fun nodeId => (silent nodeId mid).signalsTo telling.settled
  rw [ran] at fixed place
  simp only [ran] at said
  refine ⟨(said 0).1, IsTrans.trans _ _ _ telling.fixed fixed, place.trans telling.place, ?_⟩
  exact fun nodeId => (said nodeId).2.trans (telling.unsaid nodeId)

theorem Store.Telling.record {state : NodeState} {sig : String} {changed : Bool}
    (terminal : state.isTerminal)
    (ran : recordRunTreeChanged runId state sig changed mid = (.ok u, s')) :
    s.Telling s' runId := by
  refine telling.step (Fixed.blind.recordRunTreeChanged runId state sig changed) ?_
    (fun _ => Silent.recordRunTreeChanged _ terminal _ _) ran
  exact steps_bind (samePlace_updateRuns (fun _ _ => rfl) fun _ _ => rfl) fun _ =>
    steps_check fun _ => steps_pure _

theorem Store.Telling.release {nodeId runScopeId : Id} {supervisorId : String}
    (ran : Queue.removeForNode nodeId runScopeId supervisorId mid = (.ok u, s')) :
    s.Telling s' runId := by
  refine telling.step (Fixed.blind.removeForNode nodeId runScopeId supervisorId) ?_
    (fun _ => removeForNode _ _ _) ran
  exact steps_bind (samePlace_updateRuns (fun _ _ => rfl) fun _ _ => rfl) fun _ => steps_pure _

end

section Plain

variable {args : RunArgs} {acq : Acquisition} {t : TerminalEvent} {prior bag : Bag}
  {spec : TemplateSpec} {nodes : List Node}

theorem fixed_tellSuccess (args : RunArgs) (acq : Acquisition) (t : TerminalEvent) (fuel : Nat) :
    Steps Fixed (tellSuccess args (knot args fuel) acq t) := by
  refine steps_bind (Fixed.blind.updateState _ _ _ _) fun _ => ?_
  refine steps_bind (Fixed.blind.recordRunTreeChanged _ _ _ _) fun _ => ?_
  refine steps_bind (Fixed.blind.removeForNode _ _ _) fun _ => ?_
  exact Fixed.footprint.emitSignalWithFilter (Fixed.knot args fuel).gate
    (fun _ _ => Fixed.blind.logDelivery _) _ _ _

section

variable (isRun : acq.nodeRunId ≠ 0) (isFrame : acq.frameId ≠ 0)
  (distinct : (nodes.map (·.id)).Nodup) (plain : PlainSuccess args acq t prior bag spec nodes)
  (mem : node ∈ nodes)

include isRun isFrame distinct mem

theorem PlainSuccess.heard_told :
    plain.told.isSettled acq.nodeRunId ∧
      Heard (plain.told.signalsTo acq.nodeRunId node.id)
        (fires args spec acq.nodeType t.successSignal node.nodeType) t.successSignal ∧
      (node.id ∈ plain.visited → fires args spec acq.nodeType t.successSignal node.nodeType) := by
  rcases bind_eq_ok.mp plain.tell with ⟨_, moved, move, tell⟩
  rcases bind_eq_ok.mp tell with ⟨_, recorded, record, tell⟩
  rcases bind_eq_ok.mp tell with ⟨_, released, release, emit⟩
  have telling := ((telling_updateState plain.hosts.known rfl move).record rfl record).release
    release
  have graph := plain.hosts.graph.fixed telling.fixed
  exact heard_emitSignalWithFilter (show released.isSettled acq.sender.nodeRunId from
    telling.settled)
    ⟨isRun, isFrame⟩ (shouldCascade_success _ _ _ _) graph (telling.inMain plain.hosts.placed)
      emit mem
    distinct rfl ((telling.unsaid _).trans (plain.silent _)) not_mem_nil

theorem PlainSuccess.heard_of_unchanged (same : diffAttributesData prior bag = []) :
    Heard (plain.settled.signalsTo acq.nodeRunId node.id)
      (fires args spec acq.nodeType t.successSignal node.nodeType) t.successSignal := by
  rcases plain.heard_told isRun isFrame distinct mem with ⟨settled, heard, -⟩
  have complete := plain.complete
  unfold completeFresh at complete
  rw [bind_of_ok plain.tell, bind_of_ok (emitAttributeChangesForRun_of_unchanged plain.data
    plain.baseline same _ _)] at complete
  rcases bind_eq_ok.mp complete with ⟨_, drained, drain, last⟩
  have silent := Steps.run (footprint.drainWaitSetOnSettled
    (reaching args acq.nodeRunId node.id plain.fuel).gate _ _) drain
  injection last with _ stored
  rw [← stored, (silent.signalsTo settled).2]
  exact heard

end

end Plain

section Held

variable {args : RunArgs} {acq : Acquisition} {t : TerminalEvent} {prior bag : Bag}
  {spec : TemplateSpec} {nodes : List Node} {node : Node} {fuel : Nat}

/-- In stores with the given graph, the node is told nothing on behalf of the run at rest. -/
def Untold (instanceId : Id) (spec : TemplateSpec) (nodes : List Node) (runId nodeId : Id)
    (s s' : Store) : Prop :=
  s.HasGraph instanceId spec nodes →
    s'.HasGraph instanceId spec nodes ∧ Silent runId (Delivery.reaches runId nodeId) s s'

instance (instanceId : Id) (spec : TemplateSpec) (nodes : List Node) (runId nodeId : Id) :
    IsPreorder Store (Untold instanceId spec nodes runId nodeId) where
  refl s := fun graph => ⟨graph, refl s⟩
  trans _ _ _ first second := fun graph => by
    rcases first graph with ⟨mid, silent⟩
    rcases second mid with ⟨last, silent'⟩
    exact ⟨last, IsTrans.trans _ _ _ silent silent'⟩

theorem untold_of_silent {α : Type} {instanceId nodeId : Id} {m : Tx α}
    (silent : Steps (Silent runId (Delivery.reaches runId nodeId)) m) (fixed : Steps Fixed m) :
    Steps (Untold instanceId spec nodes runId nodeId) m := fun s graph =>
  ⟨graph.fixed (fixed s), silent s⟩

theorem untold_emitSignalWithFilter (mem : node ∈ nodes) (distinct : (nodes.map (·.id)).Nodup)
    (kept : filter node.nodeType = false) (sig : Signal) (visited : List Id) :
    Steps (Untold sender.instanceId spec nodes sender.nodeRunId node.id)
      (emitSignalWithFilter args (knot args fuel) sender sig visited filter) := by
  refine steps_check fun _ => steps_ite (fun _ => ?_) fun _ => steps_pure _
  refine steps_unless fun _ => steps_read_bind fun s graph => ?_
  have notTold : ¬node.id ∈ (walkTargets args spec nodes sender.nodeType sig filter).map
      (·.2.id) := by
    rw [mem_walkTargets mem distinct, kept]
    simp
  dsimp only [id]
  rw [graph.1, graph.2]
  cases s.scopeOf? sender.nodeRunId with
  | none => exact refl (r := Untold _ spec nodes _ _) s graph
  | some scope =>
    refine (steps_foldlM fun visited target among => untold_of_silent
      (Silent.footprint.walkReceiver (Silent.reaching args _ _ fuel).gate _ _ _
        (Silent.logDelivery ?_))
      (Fixed.footprint.walkReceiver (Fixed.knot args fuel).gate _ _ _
        (Fixed.blind.logDelivery _))) s graph
    have other : target.2.id ≠ node.id := fun same => notTold (mem_map.mpr ⟨target, among, same⟩)
    simp [Delivery.reaches, other]

theorem untold_emitAttributeChangesForRun (mem : node ∈ nodes) (distinct : (nodes.map (·.id)).Nodup)
    (kept : filter node.nodeType = false) (visited : List Id) :
    Steps (Untold sender.instanceId spec nodes sender.nodeRunId node.id)
      (emitAttributeChangesForRun args (knot args fuel) sender visited filter) := by
  refine steps_reads fun current => ?_
  cases current with
  | none => exact steps_pure _
  | some current =>
    refine steps_bind (Walking.attributeBaseline _) fun prior => ?_
    exact steps_foldlM fun _ _ _ => untold_emitSignalWithFilter mem distinct kept _ _

/-- Until it is moved, nothing of a held success is told outside its sub-graphs. -/
theorem HeldSuccess.signalsTo_announced (held : HeldSuccess args acq t bag spec nodes)
    (mem : node ∈ nodes) (distinct : (nodes.map (·.id)).Nodup)
    (outside : subgraphNonMemberFilter spec acq.nodeType node.nodeType) :
    held.announced.signalsTo acq.nodeRunId node.id = [] := by
  have kept : subgraphMemberFilter spec acq.nodeType node.nodeType = false := by
    simpa [subgraphNonMemberFilter, subgraphMemberFilter] using outside
  have announce := held.announce
  rcases bind_eq_ok.mp announce with ⟨_, moved, move, announce⟩
  have fixed := Fixed.blind.updateState acq.nodeRunId .held .handlerHeld (some "terminal/success")
    held.running
  rw [move] at fixed
  have graph := held.hosts.graph.fixed fixed
  have resting : moved.atRest acq.nodeRunId := isIn_updateState held.hosts.known (.inl rfl) move
  have untold : Untold acq.instanceId spec nodes acq.nodeRunId node.id moved held.announced := by
    refine Steps.run ?_ announce
    refine steps_bind (untold_of_silent (removeForNode _ _ _) (Fixed.blind.removeForNode _ _ _))
      fun _ s graph => ?_
    rw [bind_of_ok (loadTemplateSpec_of_found graph.1)]
    refine (steps_bind (untold_emitSignalWithFilter mem distinct kept _ _) fun visited =>
      ?_) s graph
    refine steps_bind (untold_emitAttributeChangesForRun mem distinct kept _) fun _ => ?_
    exact untold_of_silent
      (footprint.drainWaitSetOnSettled (reaching args _ _ held.fuel).gate _ _)
      (Fixed.footprint.drainWaitSetOnSettled (Fixed.knot args held.fuel).gate _ _)
  have silent := (untold graph).2
  rcases silent.resting resting with settled | ⟨_, same⟩
  · rcases Option.map_eq_some_iff.mp held.waits with ⟨row, found, state⟩
    have terminal := settled.2 row (Store.mem_of_run? found).1 (Store.mem_of_run? found).2
    rw [state] at terminal
    cases terminal
  · have unsaid := held.silent node.id
    unfold Store.signalsTo at unsaid ⊢
    rw [same, Nodes.updateState_eq_ok move]
    exact unsaid

def deferredSignal (bag : Bag) : Signal :=
  buildTerminalSuccessSignal false bag "auto-terminal/Commit" []

section

variable (held : HeldSuccess args acq t bag spec nodes)

include held

theorem HeldSuccess.transition (runId : acq.nodeRunId ≠ 0) :
    transitionHolderIfFullyResolved args (knot args held.fuel) acq.nodeRunId held.resolved =
      settleHolder args (knot args held.fuel) held.holder
        (.fresh, .autoTerminalCommit, deferredSignal bag) held.resolved := by
  have committed : held.resolved.AllCommitted acq.nodeRunId := held.committed
  rw [committed.transition runId held.found held.held held.leaf, held.data]
  rfl

theorem HeldSuccess.heard_settled (runId : acq.nodeRunId ≠ 0) (frameId : acq.frameId ≠ 0)
    (mem : node ∈ nodes) (distinct : (nodes.map (·.id)).Nodup)
    (outside : subgraphNonMemberFilter spec acq.nodeType node.nodeType) :
    Heard (held.settled.signalsTo acq.nodeRunId node.id)
      (fires args spec acq.nodeType (deferredSignal bag) node.nodeType) (deferredSignal bag) := by
  have same : held.holder.id = acq.nodeRunId := (Store.mem_of_run? held.found).2
  have move := held.move
  rw [held.transition runId] at move
  have found : held.resolved.run? held.holder.id = some held.holder := same ▸ held.found
  rcases settleHolder_eq_ok found held.held move with ⟨moved, updated, move⟩
  have known : held.holder.id < held.resolved.nextId := same ▸ held.hostsStill.known
  rcases bind_eq_ok.mp move with ⟨_, recorded, record, move⟩
  have telling := (telling_updateState known rfl updated).record rfl record
  have nodeFound : recorded.node? held.holder.nodeId = some held.node := by
    unfold Store.node?
    rw [telling.fixed.nodes]
    exact held.ofNode
  have graph : recorded.HasGraph held.node.instanceId spec nodes := by
    rw [held.ofInstance]
    exact held.hostsStill.graph.fixed telling.fixed
  rw [read_bind, nodeFound] at move
  dsimp only at move
  rw [bind_of_ok (loadTemplateSpec_of_found graph.1)] at move
  rcases bind_eq_ok.mp move with ⟨visited, told, emit, move⟩
  rcases bind_eq_ok.mp move with ⟨_, drained, drain, last⟩
  injection last with _ stored
  have untold : recorded.signalsTo held.holder.id node.id = [] := by
    rw [telling.unsaid, same, held.between, held.signalsTo_announced mem distinct outside]
  rcases heard_emitSignalWithFilter telling.settled ⟨same ▸ runId, held.ofFrame ▸ frameId⟩
    (shouldCascade_success _ _ _ _) graph (telling.inMain (same ▸ held.hostsStill.placed)) emit mem
    distinct (held.ofType ▸ outside) untold not_mem_nil with ⟨settled, heard, -⟩
  have silent := Steps.run (footprint.drainWaitSetOnSettled
    (reaching args held.holder.id node.id held.fuel).gate _ _) drain
  rw [stored] at silent
  have said := (silent.signalsTo settled).2
  rw [← same, said, ← held.ofType]
  exact heard

end

end Held

theorem fires_of_subscribes_success {args : RunArgs} {spec : TemplateSpec}
    (subscribes : Subscribes spec nodeType receiverType "terminal/success")
    (type : sig.type = "terminal/success") : fires args spec nodeType sig receiverType := by
  rcases subscribes with ⟨edge, mem, receiver, pattern, noPredicate⟩
  unfold fires
  rw [type, any_eq_true]
  refine ⟨edge, ?_, by simp [noPredicate, receiver]⟩
  have plain : isWildcard "terminal/success" = false := by decide +kernel
  refine mem_append.mpr (.inr (mem_filter.mpr ⟨?_, ?_⟩))
  · exact mem_map.mpr ⟨(nodeType, edge), mem_filter.mpr ⟨mem, by simp⟩, rfl⟩
  · simp [pattern, plain, patternSegments]

theorem fires_of_subscribes_attributes {args : RunArgs} {spec : TemplateSpec}
    (subscribes : Subscribes spec nodeType receiverType "attribute/*") {key : String}
    (type : sig.type = "attribute/" ++ key ++ "/changed") :
    fires args spec nodeType sig receiverType := by
  rcases subscribes with ⟨edge, mem, receiver, pattern, noPredicate⟩
  unfold fires
  rw [type, any_eq_true]
  refine ⟨edge, ?_, by simp [noPredicate, receiver]⟩
  have wild : isWildcard "attribute/*" = true := by decide +kernel
  have segments : patternSegments "attribute/*" = ["attribute".toList] := by
    decide +kernel
  rcases splitSegments_attributePath key with ⟨rest, split⟩
  refine mem_append.mpr (.inl (mem_flatMap.mpr ⟨["attribute".toList], ?_, ?_⟩))
  · rw [split, mem_inits]
    exact ⟨rest, rfl⟩
  · refine mem_filter.mpr ⟨?_, by simp [pattern, wild, segments]⟩
    exact mem_map.mpr ⟨(nodeType, edge), mem_filter.mpr ⟨mem, by simp⟩, rfl⟩

section Compare

variable {args : RunArgs} {acq : Acquisition} {t : TerminalEvent} {prior bag : Bag}
  {spec : TemplateSpec} {nodes : List Node}

theorem withoutSummary_eq_iff (t : TerminalEvent) (bag : Bag) :
    (deferredSignal bag).withoutSummary = t.successSignal.withoutSummary ↔
      t.changed = false ∧ t.tags = [] ∧ ∀ key, t.attributesDel.get? key = bag.get? key := by
  rw [← Bag.canonical_eq_iff]
  simp only [deferredSignal, TerminalEvent.successSignal, buildTerminalSuccessSignal,
    Signal.withoutSummary, SignalPayload.withoutSummary, Signal.mk.injEq, true_and,
    SignalPayload.terminalSuccess.injEq]
  constructor
  · rintro ⟨changed, delta, tags⟩
    exact ⟨changed.symm, tags.symm, delta.symm⟩
  · rintro ⟨changed, tags, delta⟩
    exact ⟨changed.symm, delta.symm, tags.symm⟩

section

variable (ignores : args.IgnoresSummary) (isRun : acq.nodeRunId ≠ 0) (isFrame : acq.frameId ≠ 0)
  (distinct : (nodes.map (·.id)).Nodup) (held : HeldSuccess args acq t bag spec nodes)
  (plain : PlainSuccess args acq t prior bag spec nodes)

include ignores isRun isFrame distinct

theorem toldAlike_of_bare (bare : t.Bare prior bag) : ToldAlike held plain := by
  intro node mem outside
  have same := (withoutSummary_eq_iff t bag).mpr ⟨bare.unchanged, bare.untagged, bare.whole⟩
  have unchanged := (diffAttributesData_eq_nil_iff prior bag).mpr bare.same
  unfold Store.toldBy
  rw [(held.heard_settled isRun isFrame mem distinct outside).eraseDups,
    (plain.heard_of_unchanged isRun isFrame distinct mem unchanged).eraseDups,
    fires_congr ignores same, same]

omit ignores distinct isRun isFrame in
theorem PlainSuccess.grows : AppendOnly plain.told plain.settled := by
  have complete := plain.complete
  unfold completeFresh at complete
  rw [bind_of_ok plain.tell] at complete
  have gate := (AppendOnly.knot args plain.fuel).gate
  refine Steps.run (steps_bind (AppendOnly.footprint.emitAttributeChangesForRun gate
    (fun _ _ => AppendOnly.blind.logDelivery _) _ _) fun _ => ?_) complete
  exact steps_bind (AppendOnly.footprint.drainWaitSetOnSettled gate _ _) fun _ =>
    steps_pure _

omit ignores in
/-- A node that only the attributes concern is told of the first one that changed. -/
theorem PlainSuccess.told_change {change : String × Json} {rest : Bag} (mem : node ∈ nodes)
    (quiet : fires args spec acq.nodeType t.successSignal node.nodeType = false)
    (attributes : Subscribes spec acq.nodeType node.nodeType "attribute/*")
    (changes : diffAttributesData prior bag = change :: rest) :
    attributeChangedSignal prior change ∈ plain.settled.signalsTo acq.nodeRunId node.id := by
  rcases plain.heard_told isRun isFrame distinct mem with ⟨settled, ⟨times, said, -, none⟩, seen⟩
  rw [none quiet, replicate_zero] at said
  have complete := plain.complete
  unfold completeFresh at complete
  rw [bind_of_ok plain.tell] at complete
  rcases bind_eq_ok.mp complete with ⟨_, announced, announce, complete⟩
  unfold emitAttributeChangesForRun at announce
  rw [read_bind, show plain.told.data? acq.sender.nodeRunId = some bag from plain.data] at announce
  dsimp only at announce
  rw [bind_of_ok plain.baseline, changes, foldlM_cons] at announce
  rcases bind_eq_ok.mp announce with ⟨visited, first, emit, announce⟩
  have fixed := Steps.run (fixed_tellSuccess args acq t plain.fuel) plain.tell
  have graph := plain.hosts.graph.fixed fixed
  have cascades : shouldCascade (attributeChangedSignal prior change).type := by
    unfold shouldCascade
    rw [show topLevel (attributeChangedSignal prior change).type = .attribute from
      topLevel_attributePath _]
    rfl
  rcases heard_emitSignalWithFilter (show plain.told.isSettled acq.sender.nodeRunId from settled)
    ⟨isRun, isFrame⟩ cascades graph plain.placed emit mem distinct rfl said
    (fun visited => by simp [quiet] at seen; exact seen visited) with ⟨-, heard, -⟩
  rw [show fires args spec acq.sender.nodeType _ node.nodeType = true from
    fires_of_subscribes_attributes attributes rfl] at heard
  have gate := (AppendOnly.knot args plain.fuel).gate
  have signal := fun sig receiverId => AppendOnly.blind.logDelivery
    { senderRunId := acq.nodeRunId, signal := sig, receiverId }
  have more : AppendOnly first announced := Steps.run (steps_foldlM fun _ _ _ =>
    AppendOnly.footprint.emitSignalWithFilter gate signal _ _ _) announce
  have drained : AppendOnly announced plain.settled := Steps.run (steps_bind
    (AppendOnly.footprint.drainWaitSetOnSettled gate _ _) fun _ => steps_pure _) complete
  have grows := IsTrans.trans _ _ _ more drained
  exact (grows.signalsTo _ _).subset heard.mem

/--
With a node outside that subscribes to the success of the run, and one outside that subscribes
to its attributes and is not concerned by the success, being told alike comes down to the success
being bare.
-/
theorem toldAlike_iff (listener observer : Node) (listens : listener ∈ nodes)
    (observes : observer ∈ nodes)
    (outside : subgraphNonMemberFilter spec acq.nodeType listener.nodeType)
    (outside' : subgraphNonMemberFilter spec acq.nodeType observer.nodeType)
    (success : Subscribes spec acq.nodeType listener.nodeType "terminal/success")
    (attributes : Subscribes spec acq.nodeType observer.nodeType "attribute/*")
    (quiet : fires args spec acq.nodeType t.successSignal observer.nodeType = false) :
    ToldAlike held plain ↔ t.Bare prior bag := by
  constructor
  · intro alike
    have deferred := (held.heard_settled isRun isFrame listens distinct outside).eraseDups
    rw [if_pos (fires_of_subscribes_success success rfl)] at deferred
    rcases plain.heard_told isRun isFrame distinct listens with ⟨-, heard, -⟩
    rw [show fires args spec acq.nodeType t.successSignal listener.nodeType = true from
      fires_of_subscribes_success success rfl] at heard
    have told : t.successSignal.withoutSummary ∈ plain.settled.toldBy acq.nodeRunId listener.id :=
      mem_eraseDups.mpr (mem_map_of_mem ((plain.grows.signalsTo _ _).subset heard.mem))
    rw [← alike listener listens outside, Store.toldBy, deferred, mem_singleton] at told
    have terms := (withoutSummary_eq_iff t bag).mp told.symm
    refine ⟨terms.1, terms.2.1, terms.2.2, (diffAttributesData_eq_nil_iff prior bag).mp ?_⟩
    -- the deferred signal does not concern the observer, so no change may be told to it
    have silent := (held.heard_settled isRun isFrame observes distinct outside').eraseDups
    rw [fires_congr ignores told.symm, quiet] at silent
    cases changes : diffAttributesData prior bag with
    | nil => rfl
    | cons change rest =>
      have told : (attributeChangedSignal prior change).withoutSummary ∈
          plain.settled.toldBy acq.nodeRunId observer.id :=
        mem_eraseDups.mpr (mem_map_of_mem
          (plain.told_change isRun isFrame distinct observes quiet attributes changes))
      rw [← alike observer observes outside', Store.toldBy, silent] at told
      exact absurd told not_mem_nil
  · exact toldAlike_of_bare ignores isRun isFrame distinct held plain

end

end Compare

namespace Load

def args : RunArgs := .plain "supervisor"

def spec : TemplateSpec where
  nodes := [
    { type := "load", executor := "sql", claimProducers := [{ name := "table" }] },
    { type := "report", executor := "sql"
      subscribes := [{ node := "load", type := "terminal/success" },
        { node := "load", type := "attribute/*" }] },
    { type := "audit", executor := "sql"
      subscribes := [{ node := "load", type := "attribute/*" }] }]

def report : Node := { id := 2, instanceId := 5, nodeType := "report", executor := "sql" }

def audit : Node := { id := 3, instanceId := 5, nodeType := "audit", executor := "sql" }

def nodes : List Node :=
  [{ id := 1, instanceId := 5, nodeType := "load", executor := "sql" }, report, audit]

def scope : RunScope := { id := 4, graphName := "main", instanceId := 5 }

def acq : Acquisition where
  nodeRunId := 11
  nodeId := 1
  instanceId := 5
  nodeType := "load"
  executor := "sql"
  runScopeId := 4
  frameId := 6

def bag : Bag := [("rows", .num "3")]

/-- The second run of the node ends with the bag of the first, and its claim is committed. -/
def store : Store where
  instances := [{ id := 5, template := spec }]
  nodes := nodes
  runScopes := [scope]
  runs := [
    { id := 10, nodeId := 1, enqueuedAt := 0, state := .fresh, creationReason := .cascade
      sequence := 1, frameId := 6, runScopeId := 4 },
    { id := 11, nodeId := 1, enqueuedAt := 0, state := .running, creationReason := .cascade
      sequence := 2, frameId := 6, runScopeId := 4, claimedBy := some "supervisor" }]
  attributes := [{ nodeRunId := 10, nodeId := 1, data := bag, updatedAt := 0 },
    { nodeRunId := 11, nodeId := 1, data := bag, updatedAt := 0 }]
  claimHandles := [
    { id := 12, lockKind := .claimScope, producerName := some "table", holderSupervisorId := none
      holderNodeId := 1, claimedAt := 0, expiresAt := 9, nodeRunId := some 11, state :=
        .committed }]
  nextId := 20

def holder : NodeRun where
  id := 11
  nodeId := 1
  enqueuedAt := 0
  state := .held
  creationReason := .cascade
  sequence := 2
  frameId := 6
  runScopeId := 4
  settlingSignalType := some "terminal/success"

def announced (t : TerminalEvent) : Store := (announceHeld args (knot args 2) acq t store).2

def moved (t : TerminalEvent) : Store :=
  (transitionHolderIfFullyResolved args (knot args 2) 11 (announced t)).2

def told (t : TerminalEvent) : Store := (tellSuccess args (knot args 2) acq t store).2

def completed (t : TerminalEvent) : Store := (completeFresh args (knot args 2) acq t [] store).2

theorem hosts : store.Hosts acq spec nodes :=
  ⟨rfl, by decide +kernel, by decide, scope, by decide +kernel, ⟨rfl, rfl⟩, rfl⟩

def HeldRuns (t : TerminalEvent) : Prop :=
  (announceHeld args (knot args 2) acq t store).1 = .ok () ∧
  (announced t).run? 11 = some holder ∧
  (announced t).template? 5 = some spec ∧
  (announced t).instanceNodes 5 = nodes ∧
  (announced t).node? 1 = nodes.head? ∧
  11 < (announced t).nextId ∧
  (announced t).scopeOf? 11 = some scope ∧
  (announced t).data? 11 = some bag ∧
  (∀ h ∈ (announced t).portfolio 11, h.state = .committed) ∧
  (announced t).children 11 = [] ∧
  (transitionHolderIfFullyResolved args (knot args 2) 11 (announced t)).1 = .ok [.propagate 11]

instance (t : TerminalEvent) : Decidable (HeldRuns t) := inferInstanceAs (Decidable (_ ∧ _))

def PlainRuns (t : TerminalEvent) : Prop :=
  (tellSuccess args (knot args 2) acq t store).1 = .ok [2] ∧
  (told t).scopeOf? 11 = some scope ∧
  (told t).data? 11 = some bag ∧
  (attributeBaseline args acq.sender (told t)).1 = .ok bag ∧
  (completeFresh args (knot args 2) acq t [] store).1 = .ok { post := [.propagate 11] }

instance (t : TerminalEvent) : Decidable (PlainRuns t) := inferInstanceAs (Decidable (_ ∧ _))

def held (t : TerminalEvent) (runs : HeldRuns t) : HeldSuccess args acq t bag spec nodes where
  fuel := 2
  running := store
  announced := announced t
  resolved := announced t
  settled := moved t
  holder := holder
  node := { id := 1, instanceId := 5, nodeType := "load", executor := "sql" }
  post := [.propagate 11]
  hosts := hosts
  silent _ := rfl
  announce := Prod.ext runs.1 rfl
  waits := by
    rw [show (announced t).run? acq.nodeRunId = some holder from runs.2.1]
    rfl
  between _ := rfl
  hostsStill := ⟨runs.2.2.1, runs.2.2.2.1, runs.2.2.2.2.2.1, scope, runs.2.2.2.2.2.2.1,
    ⟨rfl, rfl⟩, rfl⟩
  found := runs.2.1
  held := rfl
  ofNode := runs.2.2.2.2.1
  ofType := rfl
  ofInstance := rfl
  ofFrame := rfl
  data := runs.2.2.2.2.2.2.2.1
  committed := runs.2.2.2.2.2.2.2.2.1
  leaf := runs.2.2.2.2.2.2.2.2.2.1
  move := Prod.ext runs.2.2.2.2.2.2.2.2.2.2 rfl

def plain (t : TerminalEvent) (runs : PlainRuns t) :
    PlainSuccess args acq t bag bag spec nodes where
  fuel := 2
  running := store
  told := told t
  settled := completed t
  visited := [2]
  before := []
  settlement := { post := [.propagate 11] }
  hosts := hosts
  silent _ := rfl
  tell := Prod.ext runs.1 rfl
  placed := ⟨scope, runs.2.1, ⟨rfl, rfl⟩, rfl⟩
  data := runs.2.2.1
  baseline := Prod.ext runs.2.2.2.1 (Walking.attributeBaseline (R := Eq) _ (told t)).symm
  complete := Prod.ext runs.2.2.2.2 rfl

def bareEvent : TerminalEvent := { kind := .complete, attributesDel := bag }

def changedEvent : TerminalEvent := { kind := .complete, changed := true, attributesDel := bag }

theorem heldRuns_bareEvent : HeldRuns bareEvent := by decide +kernel

theorem plainRuns_bareEvent : PlainRuns bareEvent := by decide +kernel

theorem heldRuns_changedEvent : HeldRuns changedEvent := by decide +kernel

theorem plainRuns_changedEvent : PlainRuns changedEvent := by decide +kernel

theorem toldAlike_bareEvent :
    ToldAlike (held bareEvent heldRuns_bareEvent) (plain bareEvent plainRuns_bareEvent) := by
  refine (toldAlike_iff (fun _ _ => rfl) (by decide) (by decide)
    (by decide +kernel) _ _ report audit
    (by decide +kernel) (by decide +kernel) (by decide +kernel) (by decide +kernel) ?_ ?_
    (by decide +kernel)).mpr ⟨rfl, rfl, fun _ => rfl, fun _ => rfl⟩
  · exact ⟨{ receiverNodeType := "report", typePattern := "terminal/success" }, by decide +kernel,
      rfl, rfl, rfl⟩
  · exact ⟨{ receiverNodeType := "audit", typePattern := "attribute/*" }, by decide +kernel,
      rfl, rfl, rfl⟩

/-- The report is not told that the load changed something. -/
theorem not_toldAlike_changedEvent :
    ¬ToldAlike (held changedEvent heldRuns_changedEvent)
      (plain changedEvent plainRuns_changedEvent) := by
  intro alike
  have same := alike report (by decide +kernel) (by decide +kernel)
  have differs : (moved changedEvent).toldBy 11 2 ≠ (completed changedEvent).toldBy 11 2 := by
    decide +kernel
  exact differs same

end Load

end Rimsky
