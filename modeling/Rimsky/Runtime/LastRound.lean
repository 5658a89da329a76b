import Rimsky.Runtime.RunSteps

/-!
# The last round of a most-recent node

Of the queued runs of a node in most-recent mode only the last one is needed, and gates drop or
delete the others. A deletion also takes the scopes below the deleted run with all their runs.
As long as no run is put back into the queue while there is a scope below it, what is removed
has a successor.
-/

namespace Rimsky

open Transaction List Store NodeRun

def NodeRun.isQueued (r : NodeRun) : Bool :=
  (r.state = .pending || r.state = .stale) && r.creationReason = .cascade && r.claimedBy.isNone

namespace Store

structure LastRound (s : Store) (h : NodeRun) : Prop where
  mem : h ∈ s.runs
  queued : h.isQueued
  last : ∀ q ∈ s.runs, q.sameNodeAndScope h → q.isQueued → q.sequence ≤ h.sequence

/-- There is a later cascade run of the node and scope that is not claimed. -/
def HasLaterRound (s : Store) (r : NodeRun) : Prop :=
  ∃ q ∈ s.runs, q.sameNodeAndScope r ∧ r.sequence < q.sequence ∧ q.creationReason = .cascade ∧
    q.claimedBy = none

/-- The runs with scopes below them neither wait for their gate nor in the queue. -/
def ScopesUnderway (s : Store) : Prop :=
  ∀ scope ∈ s.runScopes, ∀ parentId, scope.parentNodeRunId = some parentId →
    parentId < s.nextId ∧ s.Underway parentId

def isChildless (s : Store) (runId : Id) : Bool :=
  s.runScopes.all fun scope => scope.parentNodeRunId ≠ some runId

end Store

variable {s mid s' : Store} {args : RunArgs}

theorem RunChange.scopesUnderway (change : RunChange anytime args s s')
    (underway : s.ScopesUnderway) :
    s'.ScopesUnderway := by
  have carry : ∀ parentId, parentId < s.nextId ∧ s.Underway parentId →
      parentId < s'.nextId ∧ s'.Underway parentId :=
    fun parentId before => ⟨Nat.lt_of_lt_of_le before.1 change.later,
      change.underway before.1 before.2⟩
  have kept : (∀ scope' ∈ s'.runScopes, ∃ scope ∈ s.runScopes,
      scope'.parentNodeRunId = scope.parentNodeRunId) → s'.ScopesUnderway := by
    intro back scope' mem parentId parent
    rcases back scope' mem with ⟨scope, old, same⟩
    exact carry parentId (underway scope old parentId (same ▸ parent))
  cases change with
  | calm calm =>
    refine kept fun scope' mem => ?_
    rcases calm.scopes scope' mem with ⟨scope, old, -, same⟩
    exact ⟨scope, old, same⟩
  | clears row clears => exact kept fun scope mem => ⟨scope, clears.scopes ▸ mem, rfl⟩
  | keeps row opens _ => exact kept fun scope mem => ⟨scope, opens.scopes ▸ mem, rfl⟩
  | prunes prunes =>
    refine kept fun scope mem => ⟨scope, ?_, rfl⟩
    cases prunes <;> exact (mem_filter.mp mem).1
  | spawns row spawns => exact kept fun scope mem => ⟨scope, spawns.scopes ▸ mem, rfl⟩
  | scopes parentId opens =>
    rcases opens.scopes with ⟨new, below, appended⟩
    intro scope mem id parent
    rw [appended] at mem
    rcases mem_append.mp mem with old | here
    · exact carry id (underway scope old id parent)
    · rw [mem_singleton.mp here, below] at parent
      injection parent with same
      exact same ▸ carry parentId opens.parent

theorem RunChanges.scopesUnderway (changes : RunChanges anytime args s s')
    (underway : s.ScopesUnderway) :
    s'.ScopesUnderway := by
  induction changes with
  | refl => exact underway
  | tail _ change ih => exact change.scopesUnderway ih

theorem Store.ScopesUnderway.map (underway : s.ScopesUnderway) {f : NodeRun → NodeRun}
    (rows : ∀ r ∈ s.runs, (f r).id = r.id ∧ ((f r).state = r.state ∨ s.isChildless r.id ∨
      (f r).state = .running)) : ({ s with runs := s.runs.map f } : Store).ScopesUnderway := by
  intro scope mem parentId parent
  rcases underway scope mem parentId parent with ⟨known, before⟩
  refine ⟨known, fun r' here same => ?_⟩
  rcases mem_map.mp here with ⟨r, old, rfl⟩
  rcases rows r old with ⟨id, kept | childless | running⟩
  · rw [kept]
    exact before r old (id ▸ same)
  · have other := all_eq_true.mp childless scope mem
    rw [parent, ← same, id] at other
    simp at other
  · exact .inl running

theorem deletionClosure_of_childless {ids : List Id} (childless : ∀ id ∈ ids, s.isChildless id)
    (fuel : Nat) : s.deletionClosure ids fuel = ids := by
  have scopes : s.runScopes.filter (fun scope => scope.parentNodeRunId.any ids.contains) = [] := by
    rw [filter_eq_nil_iff]
    intro scope mem below
    cases parent : scope.parentNodeRunId with
    | none => simp [parent] at below
    | some id =>
      have listed : id ∈ ids := by simpa [parent] using below
      have other := all_eq_true.mp (childless id listed) scope mem
      simp [parent] at other
  cases fuel with
  | zero => rfl
  | succ fuel =>
    rw [deletionClosure, scopes]
    simp

variable {r : NodeRun}

theorem Store.ScopesUnderway.isChildless (underway : s.ScopesUnderway) (mem : r ∈ s.runs)
    (waits : r.state = .pending ∨ r.state = .stale) : s.isChildless r.id := by
  refine all_eq_true.mpr fun scope here => ?_
  by_contra below
  have parent : scope.parentNodeRunId = some r.id := by simpa using below
  have state := (underway scope here r.id parent).2 r mem rfl
  rcases waits with waits | waits <;> simp [waits, NodeState.isTerminal] at state

theorem mem_deleteRuns_of_childless {ids : List Id} (childless : ∀ id ∈ ids, s.isChildless id)
    (mem : r ∈ s.runs) (other : r.id ∉ ids) :
    ∃ r' ∈ (s.deleteRuns ids).runs, r'.core = r.core := by
  refine ⟨_, mem_map_of_mem (mem_filter.mpr ⟨mem, ?_⟩), ?_⟩
  · rw [deletionClosure_of_childless childless]
    simpa using other
  · split <;> rfl

theorem Store.cascadeModeOf_congr {r' : NodeRun} (nodes : s'.nodes = s.nodes)
    (node : r'.nodeId = r.nodeId) :
    s'.cascadeModeOf r' = s.cascadeModeOf r := by
  simp only [cascadeModeOf, node?, nodes, node]

variable {row : NodeRun}

theorem NodeRun.isQueued_of_pending (sound : s.RunsSound) (mem : row ∈ s.runs)
    (pending : row.state = .pending) :
    row.isQueued := by
  rcases sound.queued row mem pending with ⟨cascade, unclaimed⟩
  simp [isQueued, pending, cascade, unclaimed]

theorem Store.mem_priorCascadeStales {id : Id} (mem : id ∈ s.priorCascadeStales row) :
    ∃ r ∈ s.runs, r.id = id ∧ r.sameNodeAndScope row ∧ r.sequence < row.sequence ∧
      r.state = .stale := by
  rcases mem_map.mp mem with ⟨r, here, rfl⟩
  rcases mem_filter.mp here with ⟨old, fits⟩
  simp only [Bool.and_eq_true, decide_eq_true_eq] at fits
  rcases fits with ⟨⟨⟨⟨⟨node, scope⟩, before⟩, stale⟩, -⟩, -⟩
  exact ⟨r, old, rfl, (sameNodeAndScope_iff _ _).mpr ⟨node, scope⟩, before, stale⟩

theorem Store.ScopesUnderway.pending_childless (underway : s.ScopesUnderway)
    (known : s.run? row.id = some row)
    (pending : row.state = .pending) : ∀ id ∈ [row.id], s.isChildless id := by
  intro id only
  rw [mem_singleton.mp only]
  exact underway.isChildless (mem_of_find?_eq_some known) (.inl pending)

/--
What the rule of a cascade mode removes in a store where no queued run has scopes below it: runs
of a node in another mode, or runs before a queued one that stays.
-/
theorem Prunes.removed (prunes : Prunes s s') (sound : s.RunsSound) (underway : s.ScopesUnderway)
    (mem : r ∈ s.runs) : (∃ r' ∈ s'.runs, r'.core = r.core) ∨
      s.cascadeModeOf r ≠ .mostRecent ∨
      ∃ q ∈ s.runs, q.isQueued ∧ q.sameNodeAndScope r ∧ r.sequence < q.sequence ∧
        ∃ q' ∈ s'.runs, q'.core = q.core := by
  cases prunes with
  | superseded row q known pending mode later =>
    have childless := underway.pending_childless known pending
    by_cases this : r.id = row.id
    · rcases later with ⟨here, node, scope, after, state, cascade, unclaimed⟩
      have other : q.id ∉ [row.id] := by
        intro same
        have both := sound.eq_of_id here known (mem_singleton.mp same)
        rw [both] at after
        exact Nat.lt_irrefl _ after
      rw [sound.eq_of_id mem known this]
      refine .inr (.inr ⟨q, here, ?_, (sameNodeAndScope_iff _ _).mpr ⟨node, scope⟩, after,
        mem_deleteRuns_of_childless childless here other⟩)
      simpa [isQueued, cascade, unclaimed] using state
    · exact .inl (mem_deleteRuns_of_childless childless mem (by simpa using this))
  | duplicate row known pending mode =>
    have childless := underway.pending_childless known pending
    by_cases this : r.id = row.id
    · rw [sound.eq_of_id mem known this]
      refine .inr (.inl ?_)
      rcases mode with mode | mode <;> simp [mode]
    · exact .inl (mem_deleteRuns_of_childless childless mem (by simpa using this))
  | prior row known pending mode =>
    have here := mem_of_find?_eq_some known
    have childless : ∀ id ∈ s.priorCascadeStales row, s.isChildless id := by
      intro id listed
      rcases mem_priorCascadeStales listed with ⟨q, old, rfl, -, -, stale⟩
      exact underway.isChildless old (.inr stale)
    by_cases listed : r.id ∈ s.priorCascadeStales row
    · rcases mem_priorCascadeStales listed with ⟨q, old, same, place, before, -⟩
      have this : q = r := Option.some.inj
        ((sound.run?_of_mem old).symm.trans (same ▸ sound.run?_of_mem mem))
      rw [this] at place before
      have stays : row.id ∉ s.priorCascadeStales row := by
        intro gone
        rcases mem_priorCascadeStales gone with ⟨q, old, same, -, -, stale⟩
        rw [sound.eq_of_id old known same, pending] at stale
        cases stale
      refine .inr (.inr ⟨row, here, isQueued_of_pending sound here pending, ?_, before,
        mem_deleteRuns_of_childless childless here stays⟩)
      rw [sameNodeAndScope_iff] at place ⊢
      exact ⟨place.1.symm, place.2.symm⟩
    · exact .inl (mem_deleteRuns_of_childless childless mem listed)

theorem Prunes.keeps_lastRound (prunes : Prunes s s') (sound : s.RunsSound)
    (underway : s.ScopesUnderway)
    {h : NodeRun} (last : s.LastRound h) (mode : s.cascadeModeOf h = .mostRecent) :
    ∃ h' ∈ s'.runs, h'.id = h.id := by
  rcases prunes.removed sound underway last.mem with
    ⟨h', stays, core⟩ | other | ⟨q, here, queued, place, after, -⟩
  · exact ⟨h', stays, congrArg (·.id) core⟩
  · exact absurd mode other
  · exact absurd (last.last q here place queued) (Nat.not_le.mpr after)

def KeepsRuns (s s' : Store) : Prop := ∀ r ∈ s.runs, ∃ r' ∈ s'.runs, r'.id = r.id

instance : IsPreorder Store KeepsRuns where
  refl _ r mem := ⟨r, mem, rfl⟩
  trans _ _ _ first second r mem := by
    rcases first r mem with ⟨r1, mem1, same1⟩
    rcases second r1 mem1 with ⟨r2, mem2, same2⟩
    exact ⟨r2, mem2, same2.trans same1⟩

theorem KeepsRuns.clearGate (row : NodeRun) (resolved : Bag) :
    Steps KeepsRuns (clearGate row resolved) := by
  have upsert :
      ∀ (fresh : Store → NodeAttributes) (change : Store → NodeAttributes → NodeAttributes),
      Steps KeepsRuns (write fun s => s.upsertAttributes (fresh s) (change s) : Tx Unit) := by
    intro fresh change
    refine steps_write fun s => ?_
    rcases s.upsertAttributes_eq (fresh s) (change s) with ⟨attributes, stored⟩
    rw [stored]
    exact fun r mem => ⟨r, mem, rfl⟩
  have passes : ∀ enqueuedAt, Steps KeepsRuns
      (Nodes.transitionPendingToStale row.id enqueuedAt) := by
    intro enqueuedAt s
    rcases transitionPendingToStale_store row.id enqueuedAt s with same | passed
    · rw [same]
      exact refl s
    · rw [passed]
      exact fun r mem => ⟨_, mem_map_of_mem mem, r.passed_id _ _⟩
  refine steps_bind (upsert _ _) fun _ => steps_bind (upsert _ _) fun _ => ?_
  exact steps_reads fun _ => passes _

theorem passGate_keeps_lastRound (sound : s.RunsSound) (underway : s.ScopesUnderway)
    (known : s.run? row.id = some row) (pending : row.state = .pending) (resolved : Bag)
    {h : NodeRun} (last : s.LastRound h) (mode : s.cascadeModeOf h = .mostRecent) :
    ∃ h' ∈ (passGate args row resolved s).2.runs, h'.id = h.id := by
  rcases passGate_cases args known pending resolved with ⟨mid, rule, ends⟩
  have kept : ∃ h1 ∈ mid.runs, h1.id = h.id := by
    rcases rule with rfl | prunes
    · exact ⟨h, last.mem, rfl⟩
    · exact prunes.keeps_lastRound sound underway last mode
  rcases ends with stays | ⟨-, clears⟩
  · rw [stays]
    exact kept
  · rw [clears]
    rcases kept with ⟨h1, mem1, same1⟩
    rcases KeepsRuns.clearGate row resolved mid h1 mem1 with ⟨h2, mem2, same2⟩
    exact ⟨h2, mem2, same2.trans same1⟩

def Store.StillHas (s : Store) (r : NodeRun) : Prop :=
  ∃ r' ∈ s.runs, r'.origin = r.origin ∧ (r.claimedBy = none → r'.claimedBy = none)

theorem Store.HasLaterRound.of_origin {r' : NodeRun} (later : s.HasLaterRound r')
    (origin : r'.origin = r.origin) :
    s.HasLaterRound r := by
  have node : r'.nodeId = r.nodeId := congrArg (·.nodeId) origin
  have scope : r'.runScopeId = r.runScopeId := congrArg (·.runScopeId) origin
  have sequence : r'.sequence = r.sequence := congrArg (·.sequence) origin
  rcases later with ⟨q, mem, place, after, kind⟩
  rw [sameNodeAndScope_iff, node, scope] at place
  exact ⟨q, mem, (sameNodeAndScope_iff _ _).mpr place, sequence ▸ after, kind⟩

/-- Every run of a node in most-recent mode is still there or has a later one. -/
def Store.Covers (s s' : Store) : Prop :=
  ∀ r ∈ s.runs, s.cascadeModeOf r = .mostRecent → s'.StillHas r ∨ s'.HasLaterRound r

theorem Store.Covers.trans (nodes : mid.nodes = s.nodes) (first : s.Covers mid)
    (second : mid.Covers s') :
    s.Covers s' := by
  intro r mem mode
  rcases first r mem mode with
    ⟨r1, mem1, origin, claim⟩ | ⟨q, here, place, after, cascade, unclaimed⟩
  · have node : r1.nodeId = r.nodeId := congrArg (·.nodeId) origin
    rcases second r1 mem1 ((cascadeModeOf_congr nodes node).trans mode) with
      ⟨r2, mem2, origin2, claim2⟩ | later
    · exact .inl ⟨r2, mem2, origin2.trans origin, fun free => claim2 (claim free)⟩
    · exact .inr (later.of_origin origin)
  · -- the later run is still there, or has a later one in turn
    have at' := (sameNodeAndScope_iff _ _).mp place
    rcases second q here ((cascadeModeOf_congr nodes at'.1).trans mode) with
      ⟨q2, mem2, origin, claim⟩ | ⟨q2, mem2, place2, after2, kind⟩
    · have node : q2.nodeId = q.nodeId := congrArg (·.nodeId) origin
      have scope : q2.runScopeId = q.runScopeId := congrArg (·.runScopeId) origin
      have sequence : q2.sequence = q.sequence := congrArg (·.sequence) origin
      have reason : q2.creationReason = q.creationReason := congrArg (·.creationReason) origin
      refine .inr ⟨q2, mem2, ?_, sequence ▸ after, reason.trans cascade, claim unclaimed⟩
      rw [sameNodeAndScope_iff, node, scope]
      exact at'
    · rw [sameNodeAndScope_iff] at place2
      refine .inr ⟨q2, mem2, ?_, Nat.lt_trans after after2, kind⟩
      exact (sameNodeAndScope_iff _ _).mpr ⟨place2.1.trans at'.1, place2.2.trans at'.2⟩

theorem Store.Covers.of_forth
    (forth : ∀ r ∈ s.runs, ∃ r' ∈ s'.runs, r'.origin = r.origin ∧
      (r'.claimedBy = r.claimedBy ∨ r'.claimedBy = none)) : s.Covers s' := by
  intro r mem _
  rcases forth r mem with ⟨r', here, origin, claim⟩
  refine .inl ⟨r', here, origin, fun free => ?_⟩
  rcases claim with same | none
  · rw [same, free]
  · exact none

theorem Calm.covers (calm : Calm s s') : s.Covers s' :=
  .of_forth fun r mem => by
    rcases calm.forth r mem with ⟨r', here, evolves⟩
    exact ⟨r', here, evolves.origin, evolves.claimedBy⟩

theorem Opens.covers (opens : Opens row s s') : s.Covers s' := by
  rcases opens.runs with ⟨t, runs⟩
  refine .of_forth fun r mem => ⟨r.passed row.id t, ?_, ?_⟩
  · rw [runs]
    exact mem_map_of_mem mem
  · unfold passed
    split <;> exact ⟨rfl, .inl rfl⟩

theorem RunChange.covers (change : RunChange anytime args s s') (sound : s.RunsSound)
    (underway : s.ScopesUnderway) : s.Covers s' := by
  cases change with
  | calm calm => exact calm.covers
  | clears row clears => exact clears.toOpens.covers
  | keeps row opens _ => exact opens.covers
  | prunes prunes =>
    intro r mem mode
    rcases prunes.removed sound underway mem with
      ⟨r', here, core⟩ | other | ⟨q, -, queued, place, after, q', here, core⟩
    · have claimedBy : r'.claimedBy = r.claimedBy := congrArg (·.claimedBy) core
      exact .inl ⟨r', here, congrArg (·.origin) core, fun free => claimedBy.trans free⟩
    · exact absurd mode other
    · simp only [isQueued, Bool.and_eq_true, decide_eq_true_eq,
        Option.isNone_iff_eq_none] at queued
      have node : q'.nodeId = q.nodeId := congrArg (·.nodeId) core
      have scope : q'.runScopeId = q.runScopeId := congrArg (·.runScopeId) core
      have sequence : q'.sequence = q.sequence := congrArg (·.sequence) core
      have reason : q'.creationReason = q.creationReason := congrArg (·.creationReason) core
      have claimedBy : q'.claimedBy = q.claimedBy := congrArg (·.claimedBy) core
      refine .inr ⟨q', here, ?_, sequence ▸ after, reason.trans queued.1.2,
        claimedBy.trans queued.2⟩
      rw [sameNodeAndScope_iff] at place ⊢
      rw [node, scope]
      exact place
  | spawns row spawns =>
    refine .of_forth fun r mem => ⟨r, ?_, rfl, .inl rfl⟩
    rw [spawns.runs]
    exact mem_append_left _ mem
  | scopes parentId opens => exact .of_forth fun r mem => ⟨r, opens.runs ▸ mem, rfl, .inl rfl⟩

theorem RunChanges.covers (changes : RunChanges anytime args s s') (sound : s.RunsSound)
    (underway : s.ScopesUnderway) : s'.nodes = s.nodes ∧ s.Covers s' := by
  induction changes with
  | refl => exact ⟨rfl, .of_forth fun r mem => ⟨r, mem, rfl, .inl rfl⟩⟩
  | tail before change ih =>
    have covers := change.covers (RunChanges.sound before sound)
      (RunChanges.scopesUnderway before underway)
    exact ⟨change.static.1.trans ih.1, ih.2.trans ih.1 covers⟩

theorem Calm.scopesUnderway (calm : Calm s s') (underway : s.ScopesUnderway) :
    s'.ScopesUnderway := by
  have change : RunChange anytime Chain.args s s' := .calm calm
  exact change.scopesUnderway underway

theorem Store.ScopesUnderway.reopened (underway : s.ScopesUnderway) (runId : Id) (changed : Bool) :
    (s.reopened runId changed).ScopesUnderway := by
  refine underway.map fun r _ => ?_
  unfold setOn
  split
  · exact ⟨rfl, .inr (.inr rfl)⟩
  · exact ⟨rfl, .inl rfl⟩

namespace RunAction

/-- A run is put back into the queue or parked only while there is no scope below it. -/
def keepsScopes (s : Store) (a : RunAction) : Bool :=
  match a.step with
  | .queue call => call.requeued?.all s.isChildless
  | .terminal acq _ _ t => t.kind ≠ .park || s.isChildless acq.nodeRunId
  | _ => true

variable {a : RunAction}

theorem Effect.scopesUnderway (effect : a.Effect anytime s s') (keeps : a.keepsScopes s)
    (underway : s.ScopesUnderway) :
    s'.ScopesUnderway := by
  unfold keepsScopes at keeps
  cases effect with
  | tidy changes => exact changes.scopesUnderway underway
  | handles call step handles =>
    rcases handles with ⟨f, rfl, rows⟩
    refine underway.map fun r mem => ⟨(rows r mem).id, ?_⟩
    rcases (rows r mem).state with same | ⟨-, running⟩ | ⟨-, -, requeued⟩
    · exact .inl same
    · exact .inr (.inr running)
    · rw [step] at keeps
      exact .inr (.inl (by simpa [requeued] using keeps))
  | creates input row step node scope reason adds =>
    intro scope mem parentId parent
    rw [adds.scopes] at mem
    rcases underway scope mem parentId parent with ⟨known, before⟩
    refine ⟨Nat.lt_trans (Nat.lt_of_lt_of_le known adds.fresh) adds.known, fun r here same => ?_⟩
    rw [adds.runs] at here
    rcases mem_append.mp here with old | new
    · exact before r old same
    · rw [mem_singleton.mp new] at same
      exact absurd (same ▸ known) (Nat.not_lt.mpr adds.fresh)
  | parks acq _ _ t step mid row park calm found running parked =>
    rw [step] at keeps
    have childless : s.isChildless acq.nodeRunId := by simpa [park] using keeps
    have childless : mid.isChildless acq.nodeRunId := by
      refine all_eq_true.mpr fun scope mem => ?_
      rcases calm.scopes scope mem with ⟨old, here, -, same⟩
      rw [same]
      exact all_eq_true.mp childless old here
    rw [parked]
    refine (calm.scopesUnderway underway).map fun r _ => ?_
    unfold setOn
    split
    case isTrue this => exact ⟨rfl, .inr (.inl (this ▸ childless))⟩
    case isFalse => exact ⟨rfl, .inl rfl⟩
  | reopens acq _ _ t step mid complete delegates calm changes =>
    exact changes.scopesUnderway ((calm.scopesUnderway underway).reopened _ _)
  | claims same later free =>
    intro scope mem parentId parent
    rw [same.2.2.1] at mem
    rcases underway scope mem parentId parent with ⟨known, before⟩
    refine ⟨Nat.lt_of_lt_of_le known later, ?_⟩
    unfold Store.Underway
    rw [same.1]
    exact before

inductive Between (a : RunAction) (s : Store) : Store → Store → Prop where
  | whole (s' : Store) : Between a s s s'
  | inside {mid s' : Store} (before : RunChanges anytime a.args s mid)
    (after : RunChanges anytime a.args mid s') :
      Between a s mid s'
  | reopened {first mid s' : Store} (runId : Id) (changed : Bool) (calm : Calm s first)
      (before : RunChanges anytime a.args (first.reopened runId changed) mid)
      (after : RunChanges anytime a.args mid s') : Between a s mid s'

theorem Between.sound (between : a.Between s mid s') (sound : s.RunsSound)
    (underway : s.ScopesUnderway) :
    mid.RunsSound ∧ mid.ScopesUnderway := by
  cases between with
  | whole => exact ⟨sound, underway⟩
  | inside before _ => exact ⟨before.sound sound, before.scopesUnderway underway⟩
  | reopened runId changed calm before _ =>
    exact ⟨before.sound (reopened_sound (calm.sound sound) _ _),
      before.scopesUnderway ((calm.scopesUnderway underway).reopened _ _)⟩

theorem Effect.removed (effect : a.Effect anytime s s') (sound : s.RunsSound)
    (underway : s.ScopesUnderway) (mem : r ∈ s.runs) (mode : s.cascadeModeOf r = .mostRecent) :
    (∃ r' ∈ s'.runs, r'.id = r.id) ∨ s'.HasLaterRound r := by
  have still : ∀ {s' : Store} {r : NodeRun}, s'.StillHas r → ∃ r' ∈ s'.runs, r'.id = r.id := by
    rintro s' r ⟨r', here, origin, -⟩
    exact ⟨r', here, congrArg (·.id) origin⟩
  cases effect with
  | tidy changes => exact ((changes.covers sound underway).2 r mem mode).imp still id
  | handles call step handles =>
    rcases handles with ⟨f, rfl, rows⟩
    exact .inl ⟨f r, mem_map_of_mem mem, (rows r mem).id⟩
  | creates input row step node scope reason adds =>
    refine .inl ⟨r, ?_, rfl⟩
    rw [adds.runs]
    exact mem_append_left _ mem
  | parks acq _ _ t step mid row park calm found running parked =>
    rcases calm.forth r mem with ⟨r1, mem1, evolves⟩
    rw [parked]
    refine .inl ⟨_, mem_map_of_mem mem1, ?_⟩
    exact (setOn_id (movedTo .parked _) (fun _ => rfl) _ r1).trans evolves.id
  | reopens acq _ _ t step mid complete delegates calm changes =>
    rcases calm.forth r mem with ⟨r1, mem1, evolves⟩
    let again := recordedAs .running (some "terminal/success") t.changed
    have origin : (r1.setOn acq.nodeRunId again).origin = r.origin := by
      unfold setOn
      split
      · exact evolves.origin
      · exact evolves.origin
    have sound' := reopened_sound (calm.sound sound) acq.nodeRunId t.changed
    have underway' := (calm.scopesUnderway underway).reopened acq.nodeRunId t.changed
    have here : r1.setOn acq.nodeRunId again ∈ (mid.reopened acq.nodeRunId t.changed).runs :=
      mem_map_of_mem mem1
    have node : (r1.setOn acq.nodeRunId again).nodeId = r.nodeId := congrArg (·.nodeId) origin
    have mode' : (mid.reopened acq.nodeRunId t.changed).cascadeModeOf
        (r1.setOn acq.nodeRunId again) = .mostRecent :=
      (cascadeModeOf_congr calm.nodes node).trans mode
    rcases (changes.covers sound' underway').2 _ here mode' with kept | later
    · rcases still kept with ⟨r', left, same⟩
      exact .inl ⟨r', left, same.trans (congrArg (·.id) origin)⟩
    · exact .inr (later.of_origin origin)
  | claims same later free => exact .inl ⟨r, same.1 ▸ mem, rfl⟩

/--
Along every run whose steps all meet the condition, and at every store inside the transaction of a
further step: no gate removes the last queued run of a node in most-recent mode, and every run of
such a node that is removed has a later cascade run that is there, unclaimed, after the
transaction.
-/
theorem mostRecent_keeps_lastRound {s₀ : Store} (sound : s₀.RunsSound)
    (underway : s₀.ScopesUnderway)
    (run : Reaches next (fun s a => a.Enabled s ∧ a.keepsScopes s) s₀ s) {a : RunAction}
    (enabled : a.Enabled s) (taken : a.next s = some s') (between : a.Between s mid s') :
    (∀ (row : NodeRun) (resolved : Bag), mid.run? row.id = some row → row.state = .pending →
      ∀ h, mid.LastRound h → mid.cascadeModeOf h = .mostRecent →
        ∃ h' ∈ (passGate a.args row resolved mid).2.runs, h'.id = h.id) ∧
    ∀ r ∈ mid.runs, mid.cascadeModeOf r = .mostRecent →
      (∃ r' ∈ s'.runs, r'.id = r.id) ∨ s'.HasLaterRound r := by
  have invariant : s.RunsSound ∧ s.ScopesUnderway := by
    refine run.invariant (I := fun s => s.RunsSound ∧ s.ScopesUnderway) ?_ ⟨sound, underway⟩
    rintro s a s' ⟨sound, underway⟩ ⟨enabled, keeps⟩ taken
    have effect := next_effect sound enabled taken
    exact ⟨effect.sound sound, effect.scopesUnderway keeps underway⟩
  rcases between.sound invariant.1 invariant.2 with ⟨soundMid, underwayMid⟩
  refine ⟨fun row resolved known pending h last mode =>
    passGate_keeps_lastRound soundMid underwayMid known pending resolved last mode, ?_⟩
  intro r mem mode
  have covered : RunChanges anytime a.args mid s' → (∃ r' ∈ s'.runs, r'.id = r.id) ∨
      s'.HasLaterRound r := by
    intro after
    rcases (after.covers soundMid underwayMid).2 r mem mode with ⟨r', here, origin, -⟩ | later
    · exact .inl ⟨r', here, congrArg (·.id) origin⟩
    · exact .inr later
  cases between with
  | whole => exact (next_effect soundMid enabled taken).removed soundMid underwayMid mem mode
  | inside _ after => exact covered after
  | reopened _ _ _ _ after => exact covered after

end RunAction

namespace Chain

def twoRounds : List RunAction :=
  [start 2 .messageDelivery] ++ dispatch 10 ++ [start 1 .messageDelivery] ++ dispatch 11 ++
    [succeed 11 [("total", .num "4")], start 1 .messageDelivery] ++ dispatch 13

/-- The source succeeds once more; the report that waits is dropped for the one after it. -/
theorem mostRecent_keeps_lastRound_report :
    ∃ s s', Reaches RunAction.next (fun s a => a.Enabled s ∧ a.keepsScopes s)
      (store (report [])) s ∧ (succeed 13 [("total", .num "5")]).next s = some s' ∧
      ∃ r, s.run? 12 = some r ∧ s'.run? 12 = none ∧ s'.HasLaterRound r := by
  have run : (runAll RunAction.next (fun s a => a.Enabled s ∧ a.keepsScopes s) twoRounds
      (store (report []))).any (fun s =>
        (s.run? 12).any (fun r => s.cascadeModeOf r = .mostRecent) &&
        decide ((succeed 13 [("total", .num "5")]).Enabled s) &&
        ((succeed 13 [("total", .num "5")]).next s).any fun s' => (s'.run? 12).isNone) := by
    decide +kernel
  rcases exists_reaches_of_runAll run with ⟨s, reached, fits⟩
  simp only [Bool.and_eq_true, decide_eq_true_eq, Option.any_eq_true] at fits
  rcases fits with ⟨⟨⟨r, found, mode⟩, enabled⟩, s', taken, gone⟩
  have gone : s'.run? 12 = none := by simpa using gone
  refine ⟨s, s', reached, taken, r, found, gone, ?_⟩
  have underway : (store (report [])).ScopesUnderway := by
    intro scope mem parentId parent
    rw [mem_singleton.mp mem] at parent
    cases parent
  have kept := (RunAction.mostRecent_keeps_lastRound (store_sound _) underway reached enabled taken
    (.whole s')).2 r (mem_of_find?_eq_some found) mode
  have id : r.id = 12 := by simpa using find?_some found
  rcases kept with ⟨r', here, same⟩ | later
  · have absent := find?_eq_none.mp gone r' here
    simp [same, id] at absent
  · exact later

end Chain

namespace Delegating

def caller : TemplateNodeDef where
  type := "caller"
  delegate := "work"
  isSubgraphEntryAbsorbed := true
  subscribes := [{ node := "source", type := "terminal/success" }]

def worker : TemplateNodeDef := { type := "worker", isSubgraphExit := true }

def store : Store where
  instances := [{
    id := 1
    template := {
      nodes := [{ type := "source" }, caller, worker]
      graphs := [{ name := "work", entry := "caller", exit := "worker", nodes := [caller, worker] }]
        } }]
  nodes := [{ id := 1, instanceId := 1, nodeType := "source" },
    { id := 2, instanceId := 1, nodeType := "caller" },
      { id := 3, instanceId := 1, nodeType := "worker" }]
  runScopes := [{ id := 1, graphName := "main", instanceId := 1 }]
  nextId := 10

def handOver (runId : Id) : RunAction :=
  Chain.act (.terminal { nodeRunId := runId, nodeId := 2, instanceId := 1, nodeType := "caller"
                         runScopeId := 1, frameId := 1, nodeDef := some caller } [] none
    { kind := .complete })

/-- The conductor puts the run of a supervisor that is gone back into the queue. -/
def sweep (runId : Id) : RunAction :=
  Chain.act (.queue (.releaseClaimWithDisposition runId "supervisor" "stale_recovery"))

def requeued : List RunAction :=
  [Chain.start 1 .messageDelivery] ++ Chain.dispatch 10 ++ [Chain.succeed 10 []] ++
    Chain.dispatch 11 ++
    [handOver 11, sweep 11, Chain.start 1 .messageDelivery] ++ Chain.dispatch 14

/--
The caller is put back into the queue after it handed over. Its next run deletes the one in the
queue, and with it the scope below and the worker that was the last queued there.
-/
theorem last_worker_removed :
    store.RunsSound ∧ store.ScopesUnderway ∧
    ∃ s s', Reaches RunAction.next (fun s a => a.Enabled s) store s ∧
      (Chain.succeed 14 []).Enabled s ∧ (Chain.succeed 14 []).next s = some s' ∧
      ∃ h, s.LastRound h ∧ s.cascadeModeOf h = .mostRecent ∧
        (∀ h' ∈ s'.runs, h'.id ≠ h.id) ∧ ¬s'.HasLaterRound h := by
  have run : (runAll RunAction.next (fun s a => a.Enabled s) requeued store).any (fun s =>
      decide ((Chain.succeed 14 []).Enabled s) && (s.run? 13).any (fun h => h.isQueued &&
        s.runs.all (fun q => !(q.sameNodeAndScope h && q.isQueued) || q.sequence ≤ h.sequence) &&
        s.cascadeModeOf h = .mostRecent &&
        ((Chain.succeed 14 []).next s).any fun s' =>
          s'.runs.all fun q => q.id ≠ h.id && !q.sameNodeAndScope h)) := by decide +kernel
  have sound : store.RunsSound :=
    ⟨by simp [store], by simp [store], by simp [store], by simp [store], by simp [store], by
      simp [store]⟩
  have underway : store.ScopesUnderway := by
    intro scope mem parentId parent
    rw [mem_singleton.mp mem] at parent
    cases parent
  rcases exists_reaches_of_runAll run with ⟨s, reached, fits⟩
  simp only [Bool.and_eq_true, decide_eq_true_eq, Option.any_eq_true, all_eq_true] at fits
  rcases fits with ⟨enabled, h, found, ⟨⟨queued, last⟩, mode⟩, s', taken, gone⟩
  refine ⟨sound, underway, s, s', reached, enabled, taken, h,
    ⟨mem_of_find?_eq_some found, queued, ?_⟩, mode, fun h' mem => (gone h' mem).1, ?_⟩
  · intro q mem place waits
    simpa [place, waits] using last q mem
  · rintro ⟨q, mem, place, -⟩
    simpa [place] using (gone q mem).2

end Delegating

end Rimsky
