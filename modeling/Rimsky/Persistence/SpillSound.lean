import Rimsky.Persistence.SpillReads

/-!
# No row loses what was spilled for it

Every operation leaves each handle that a row refers to with one row and out of the ledger, so
that sweeps take nothing a row still needs.
-/

namespace Rimsky

open List Store Option Function

namespace Store

variable {s : Store}

theorem hasRow_of_mem_attributes {a : NodeAttributes} (mem : a ∈ s.attributes) :
    s.hasRow (.value, a.nodeRunId) :=
  find?_isSome.mpr ⟨a, mem, by simp⟩

theorem hasRow_of_mem_runs {r : NodeRun} (mem : r ∈ s.runs) : s.hasRow (.scratch, r.id) :=
  find?_isSome.mpr ⟨r, mem, by simp⟩

variable {o : HandleColumn × Id}

theorem hasRow_mono {s' : Store} (here : s.hasRow o)
    (attributes : ∀ a ∈ s.attributes, ∃ a' ∈ s'.attributes, a'.nodeRunId = a.nodeRunId)
    (runs : ∀ r ∈ s.runs, ∃ r' ∈ s'.runs, r'.id = r.id) : s'.hasRow o := by
  rcases o with ⟨column, id⟩
  cases column with
  | value =>
    rcases find?_isSome.mp here with ⟨a, mem, same⟩
    rcases attributes a mem with ⟨a', mem', same'⟩
    have is : a'.nodeRunId = id := same'.trans (by simpa using same)
    exact is ▸ hasRow_of_mem_attributes mem'
  | scratch =>
    rcases find?_isSome.mp here with ⟨r, mem, same⟩
    rcases runs r mem with ⟨r', mem', same'⟩
    have is : r'.id = id := same'.trans (by simpa using same)
    exact is ▸ hasRow_of_mem_runs mem'

theorem mem_map_keeping {α κ : Type} {rows : List α} {change : α → α} {key : α → κ}
    (keeps : ∀ a, key (change a) = key a) {a : α} (mem : a ∈ rows) :
    ∃ a' ∈ rows.map change, key a' = key a :=
  ⟨change a, mem_map_of_mem mem, keeps a⟩

theorem hasRow_upsertAttributes {fresh : NodeAttributes} {change : NodeAttributes → NodeAttributes}
    (keeps : ∀ a, (change a).nodeRunId = a.nodeRunId)
    (here : s.hasRow o ∨ o = (.value, fresh.nodeRunId)) :
    (s.upsertAttributes fresh change).hasRow o := by
  unfold upsertAttributes
  split
  · next known =>
      have there : s.hasRow o := by
        rcases here with here | rfl
        · exact here
        · rcases any_eq_true.mp known with ⟨a, mem, same⟩
          exact find?_isSome.mpr ⟨a, mem, same⟩
      refine hasRow_mono there (fun a mem => ?_) fun r mem => ⟨r, mem, rfl⟩
      refine mem_map_keeping (fun a => ?_) mem
      split
      · exact keeps a
      · rfl
  · rcases here with here | rfl
    · exact hasRow_mono here (fun a mem => ⟨a, mem_append_left _ mem, rfl⟩) fun r mem =>
        ⟨r, mem, rfl⟩
    · exact hasRow_of_mem_attributes (s := { s with attributes := s.attributes ++ [fresh] })
        (mem_append_right _ (mem_singleton_self _))

variable {ids : List Id}

theorem hasRow_deleteRuns {column : HandleColumn} {id : Id}
    (here : (s.deleteRuns ids).hasRow (column, id)) :
    s.hasRow (column, id) ∧ id ∉ s.deletionClosure ids s.runs.length := by
  cases column with
  | value =>
    rcases find?_isSome.mp here with ⟨a, mem, same⟩
    rcases mem_filter.mp mem with ⟨old, stays⟩
    have is : a.nodeRunId = id := by simpa using same
    exact ⟨find?_isSome.mpr ⟨a, old, same⟩, by simpa [is] using stays⟩
  | scratch =>
    rcases find?_isSome.mp here with ⟨r, mem, same⟩
    rcases mem_map.mp mem with ⟨old, left, rfl⟩
    rcases mem_filter.mp left with ⟨there, stays⟩
    have is : old.id = id := by
      have same' : (if old.priorDispatchId.any (s.deletionClosure ids s.runs.length).contains
        then { old with priorDispatchId := none } else old).id = id := by simpa using same
      split at same' <;> exact same'
    exact ⟨find?_isSome.mpr ⟨old, there, by simpa using is⟩, by simpa [is] using stays⟩

theorem hasRow_deleteRuns_of_notMem (here : s.hasRow o)
    (stays : o.2 ∉ s.deletionClosure ids s.runs.length) :
    (s.deleteRuns ids).hasRow o := by
  rcases o with ⟨column, id⟩
  cases column with
  | value =>
    rcases find?_isSome.mp here with ⟨a, mem, same⟩
    have is : a.nodeRunId = id := by simpa using same
    exact find?_isSome.mpr ⟨a, mem_filter.mpr ⟨mem, by simpa [is] using stays⟩, same⟩
  | scratch =>
    rcases find?_isSome.mp here with ⟨r, mem, same⟩
    have is : r.id = id := by simpa using same
    refine find?_isSome.mpr ⟨_, mem_map_of_mem (mem_filter.mpr ⟨mem, by simpa [is] using stays⟩),
      ?_⟩
    split <;> simpa using is

theorem hasRow_deleteFrames {column : HandleColumn} {id : Id}
    (here : (s.deleteFrames ids).hasRow (column, id)) :
    s.hasRow (column, id) ∧ ∀ r ∈ s.runs, r.id = id → r.frameId ∉ ids := by
  have first := (hasRow_deleteRuns (s := s.deleteFrameRows ids) here).1
  have second := hasRow_deleteRuns (s := s) first
  refine ⟨second.1, fun r mem same pruned => second.2 (subset_deletionClosure _ ?_)⟩
  exact mem_map.mpr ⟨r, mem_filter.mpr ⟨mem, by simpa using pruned⟩, same⟩

theorem hasRow_proceed {change : Store → Store} (here : s.hasRow o) :
    (s.proceed change).hasRow o := by
  refine hasRow_mono here (fun a mem => ⟨a, mem, rfl⟩) fun r mem => ?_
  exact ⟨_, mem_map_of_mem mem, rfl⟩

end Store

namespace Spill

variable {s : Spill}

/--
Runs are deleted whose bags are not spilled, and by foreign keys only runs without spilled scratch.
-/
def BagsInline (s : Spill) (ids : List Id) : Prop :=
  ∀ id ∈ s.store.deletionClosure ids s.store.runs.length,
    s.handles.ref (.value, id) = none ∧ (id ∈ ids ∨ s.handles.ref (.scratch, id) = none)

def Enrolls (s : Spill) : Act → Prop
  | .snapshotBagForNewRun newRunId _ _ => s.store.attributes? newRunId = none
  | .deletePriorCascadeStales nodeId runScopeId beforeSeq =>
    s.BagsInline (s.store.cascadeStales nodeId runScopeId beforeSeq)
  | .dropPendingRun runId => s.BagsInline [runId]
  | .pruneTraceForRetention recentFramesKept cutoff =>
    let frameIds := s.store.prunableFrames recentFramesKept cutoff
    ∀ o, (s.handles.ref o).isSome → (s.store.deleteFrames frameIds).hasRow o = false →
      ∃ r ∈ s.store.runs, r.id = o.2 ∧ r.frameId ∈ frameIds
  | _ => True

/-- What an operation does to handles, and what it can lose sight of if it is not tidy. -/
inductive Touches (cfg : BlobConfig) (tidy : Prop) (s : Spill) : Spill → Prop where
  | keep {store : Store} (rows : ∀ {o}, s.store.hasRow o → store.hasRow o) :
    Touches cfg tidy s { s with store }
  | put {store : Store} (rows : ∀ {o}, s.store.hasRow o → store.hasRow o) {o : HandleColumn × Id}
    {b : Blob}
      (kind : b.column = o.1) (here : store.hasRow o) (r : Nat)
      (spills : (∃ size, cfg.shouldSpillBlob size) ∨ ∃ o', (s.handles.ref o').isSome) :
      Touches cfg tidy s { store, handles := s.handles.put o b r }
  | clear {store : Store} (rows : ∀ {o}, s.store.hasRow o → store.hasRow o) (o : HandleColumn × Id)
    (r : Nat) :
      Touches cfg tidy s { store, handles := s.handles.assign o none r }
  | leak {store : Store} (rows : ∀ {o}, s.store.hasRow o → store.hasRow o) (b : Blob)
    (untidy : ¬tidy) :
      Touches cfg tidy s { store, handles := s.handles.write b }
  | delete {left : Store} {enrolled : List Nat}
      (own : ∀ k ∈ enrolled, ∃ o, s.handles.ref o = some k ∧ left.hasRow o = false)
      (listed : tidy → ∀ o k, s.handles.ref o = some k → left.hasRow o = false → k ∈ enrolled) :
      Touches cfg tidy s (s.deleteRows cfg left enrolled)
  | sweep (now limit : Nat) (deletes forgets : Nat → Bool) :
      Touches cfg tidy s (s.sweepOrphanedBlobs now limit deletes forgets)

section Touches

variable {cfg : BlobConfig} {tidy : Prop} {s' : Spill} {runId : Id} {nodeId : Id}

theorem upsert_touches {data : Bag} (taken : s.upsert cfg runId nodeId data = some s') :
    Touches cfg tidy s s' := by
  unfold upsert at taken
  split_ifs at taken with may spills
  · cases taken
    exact .put (fun here => hasRow_upsertAttributes (by simp) (.inl here)) rfl
      (hasRow_upsertAttributes (by simp) (.inr rfl)) _ (.inl ⟨_, spills⟩)
  · cases taken
    exact .clear (fun here => hasRow_upsertAttributes (by simp) (.inl here)) _ _

theorem mergeDelta_touches {delta : Option Bag} (taken : s.mergeDelta cfg runId delta = some s') :
    Touches cfg tidy s s' := by
  have changed : ∀ change : NodeAttributes → NodeAttributes,
      (∀ a, (change a).nodeRunId = a.nodeRunId) →
      Touches cfg tidy s { s with
        store := { s.store with attributes := s.store.attributes.map fun a =>
        if a.nodeRunId = runId then { change a with updatedAt := s.store.clock } else a } } := by
    intro change keeps
    refine .keep fun here => hasRow_mono here (fun a mem => ?_) fun r mem => ⟨r, mem, rfl⟩
    refine mem_map_keeping (fun a => ?_) mem
    split
    · exact keeps a
    · rfl
  unfold mergeDelta at taken
  cases found : s.store.attributes? runId with
  | none => simp [found] at taken
  | some row =>
    simp only [found] at taken
    cases delta with
    | none =>
      cases taken
      exact changed id fun _ => rfl
    | some delta =>
      dsimp only at taken
      split_ifs at taken
      · split at taken
        · cases taken
        · exact upsert_touches taken
      · cases taken
        exact changed (fun a => { a with data := a.data.merge delta }) fun _ => rfl

theorem setDispatchInputBag_touches {bag : Bag}
    (taken : s.setDispatchInputBag runId nodeId bag = some s') :
    Touches cfg tidy s s' := by
  unfold setDispatchInputBag at taken
  split_ifs at taken
  · cases taken
    exact .keep fun here => hasRow_upsertAttributes (by simp) (.inl here)

theorem snapshotBagForNewRun_touches (sound : s.Sound) {newRunId runScopeId : Id}
    (taken : s.snapshotBagForNewRun newRunId nodeId runScopeId = some s') :
    Touches cfg (s.Enrolls (.snapshotBagForNewRun newRunId nodeId runScopeId)) s s' := by
  have inserts : ∀ fresh : NodeAttributes, ∀ {o}, s.store.hasRow o →
      (s.store.upsertAttributes fresh id).hasRow o :=
    fun fresh _ here => hasRow_upsertAttributes (fun _ => rfl) (.inl here)
  unfold snapshotBagForNewRun at taken
  cases may : s.store.mayUpsert newRunId with
  | false => simp [may] at taken
  | true =>
  simp only [may, Bool.not_true, Bool.false_eq_true, if_false] at taken
  cases prior : s.store.latestAttributes? nodeId runScopeId fun r => r.id ≠ newRunId with
  | none =>
    simp only [prior] at taken
    cases taken
    exact .keep (inserts _)
  | some row =>
    simp only [prior] at taken
    cases ref : s.handles.ref (.value, row.nodeRunId) with
    | none =>
      simp only [ref] at taken
      cases taken
      exact .keep (inserts _)
    | some k =>
      rcases sound.content_bag ref with ⟨data, content⟩
      simp only [ref, content] at taken
      cases found : s.store.attributes? newRunId with
      | some old =>
        simp only [found, isSome_some, if_true] at taken
        cases taken
        refine .leak (inserts _) _ fun absent => ?_
        cases found.symm.trans absent
      | none =>
        simp only [found, isSome_none, Bool.false_eq_true, if_false] at taken
        cases taken
        rw [← Handles.put_of_none (sound.ref_of_absent found) (.bag data) 0]
        exact .put (inserts _) rfl (hasRow_upsertAttributes (fun _ => rfl) (.inr rfl)) _
          (.inr ⟨_, isSome_iff_exists.mpr ⟨k, ref⟩⟩)

theorem writeScratch_touches {scratch : String}
    (taken : s.writeScratch cfg runId scratch = some s') :
    Touches cfg tidy s s' := by
  have sets : ∀ text, ∀ {o}, s.store.hasRow o → (s.store.setScratch runId text).hasRow o := by
    intro text o here
    refine hasRow_mono here (fun a mem => ⟨a, mem, rfl⟩) fun r mem => ?_
    refine mem_map_keeping (fun r => ?_) mem
    split <;> rfl
  unfold writeScratch at taken
  split_ifs at taken with empty missing spills
  · cases taken
    exact .keep fun here => here
  · cases taken
    have here : s.store.hasRow (.scratch, runId) := by
      simpa [isNone_iff_eq_none, isSome_iff_ne_none, hasRow] using missing
    exact .put (sets none) rfl (sets none here) _ (.inl ⟨_, spills⟩)
  · cases taken
    exact .clear (sets _) _ _

theorem insertRun_touches {row : NodeRun} (taken : s.insertRun row = some s') :
    Touches cfg tidy s s' := by
  unfold insertRun at taken
  split_ifs at taken
  · cases taken
    refine .keep fun here => hasRow_mono here (fun a mem => ⟨a, mem, rfl⟩) fun r mem => ?_
    exact ⟨r, mem_append_left _ mem, rfl⟩

theorem enrollScratchOrphans_touches (sound : s.Sound) (ids : List Id) :
    Touches cfg (s.BagsInline ids) s (s.enrollScratchOrphans cfg ids) := by
  refine .delete (fun k mem => ?_) fun tidy o k ref gone => ?_
  · rcases mem_filterMap.mp mem with ⟨id, listed, ref⟩
    refine ⟨_, ref, Bool.eq_false_iff.mpr fun stays => ?_⟩
    exact (hasRow_deleteRuns stays).2 (subset_deletionClosure _ listed)
  · -- a row with a handle that is gone was among those deleted
    have deleted : o.2 ∈ s.store.deletionClosure ids s.store.runs.length := by
      by_contra stays
      have here := sound.rows (isSome_iff_exists.mpr ⟨k, ref⟩)
      rw [hasRow_deleteRuns_of_notMem here stays] at gone
      cases gone
    rcases o with ⟨column, id⟩
    cases column with
    | value => cases (tidy id deleted).1.symm.trans ref
    | scratch =>
      rcases (tidy id deleted).2 with listed | inline
      · exact mem_filterMap.mpr ⟨id, listed, ref⟩
      · cases inline.symm.trans ref

theorem pruneTraceForRetention_touches (sound : s.Sound) (recentFramesKept : Nat)
    (cutoff : Option Nat) :
    Touches cfg (s.Enrolls (.pruneTraceForRetention recentFramesKept cutoff)) s
      (s.pruneTraceForRetention cfg recentFramesKept cutoff) := by
  refine .delete (fun k mem => ?_) fun tidy o k ref gone => ?_
  · rcases mem_append.mp mem with mem | mem
    · rcases mem_filterMap.mp mem with ⟨r, pruned, ref⟩
      rcases mem_filter.mp pruned with ⟨here, pruned⟩
      refine ⟨_, ref, Bool.eq_false_iff.mpr fun stays => ?_⟩
      exact (hasRow_deleteFrames stays).2 r here rfl (by simpa using pruned)
    · rcases mem_filterMap.mp mem with ⟨a, pruned, ref⟩
      rcases any_eq_true.mp (mem_filter.mp pruned).2 with ⟨r, here, both⟩
      simp only [Bool.and_eq_true, decide_eq_true_eq, contains_iff_mem] at both
      refine ⟨_, ref, Bool.eq_false_iff.mpr fun stays => ?_⟩
      exact (hasRow_deleteFrames stays).2 r here both.1 both.2
  · have referred := isSome_iff_exists.mpr ⟨k, ref⟩
    rcases tidy o referred gone with ⟨r, here, same, pruned⟩
    rcases o with ⟨column, id⟩
    cases column with
    | scratch =>
      refine mem_append_left _ (mem_filterMap.mpr ⟨r, mem_filter.mpr ⟨here, ?_⟩, ?_⟩)
      · simpa using pruned
      · rw [same]
        exact ref
    | value =>
      rcases find?_isSome.mp (sound.rows referred) with ⟨a, mem, is⟩
      have is : a.nodeRunId = id := by simpa using is
      refine mem_append_right _ (mem_filterMap.mpr ⟨a, mem_filter.mpr ⟨mem, ?_⟩, ?_⟩)
      · refine any_eq_true.mpr ⟨r, here, ?_⟩
        simpa [is] using ⟨same, pruned⟩
      · rw [is]
        exact ref

theorem next_touches (sound : s.Sound) {act : Act} (taken : s.next cfg act = some s') :
    Touches cfg (s.Enrolls act) s s' := by
  cases act with
  | upsert runId nodeId data => exact upsert_touches taken
  | mergeDelta runId delta => exact mergeDelta_touches taken
  | setDispatchInputBag runId nodeId bag => exact setDispatchInputBag_touches taken
  | snapshotBagForNewRun newRunId nodeId runScopeId =>
    exact snapshotBagForNewRun_touches sound taken
  | writeScratch runId scratch => exact writeScratch_touches taken
  | insertRun row => exact insertRun_touches taken
  | deletePriorCascadeStales nodeId runScopeId beforeSeq =>
    cases taken
    exact enrollScratchOrphans_touches sound _
  | dropPendingRun runId =>
    change (if _ then _ else _) = some s' at taken
    split_ifs at taken
    · cases taken
      exact enrollScratchOrphans_touches sound _
  | pruneTraceForRetention recentFramesKept cutoff =>
    cases taken
    exact pruneTraceForRetention_touches sound _ _
  | sweepOrphanedBlobs now limit deletes forgets =>
    cases taken
    exact .sweep _ _ _ _
  | proceed change =>
    cases taken
    exact .keep hasRow_proceed

end Touches

section Runs

variable {cfg : BlobConfig} {tidy : Prop} {s' : Spill}

theorem Touches.sound (touches : Touches cfg tidy s s') (sound : s.Sound) : s'.Sound := by
  cases touches with
  | keep rows => exact ⟨sound.handles, sound.kinds, fun referred => rows (sound.rows referred)⟩
  | @put store rows o b kind here r spills =>
    refine ⟨sound.handles.put o b r, fun {o' b'} reads => ?_, fun {o'} referred => ?_⟩
    · rw [sound.handles.read_put] at reads
      split at reads
      · next same =>
          cases reads
          rw [same, kind]
      · exact sound.kinds reads
    · by_cases same : o' = o
      · exact same ▸ here
      · have old : ((s.handles.write b).ref o').isSome := by
          simpa [Handles.put, update_of_ne same] using referred
        exact rows (sound.rows old)
  | clear rows o r =>
    refine ⟨sound.handles.clear o r, fun {o' b'} reads => ?_, fun {o'} referred => ?_⟩
    · rw [Handles.read_clear] at reads
      split at reads
      · cases reads
      · exact sound.kinds reads
    · by_cases same : o' = o
      · subst same
        simp at referred
      · refine rows (sound.rows ?_)
        simpa [update_of_ne same] using referred
  | leak rows b untidy =>
    refine ⟨sound.handles.write b, fun {o' b'} reads => ?_, fun referred =>
      rows (sound.rows referred)⟩
    rw [sound.handles.read_write] at reads
    exact sound.kinds reads
  | @delete left enrolled own listed =>
    refine ⟨sound.handles.delete own, fun {o b} reads => ?_, fun {o} referred => ?_⟩
    · change (s.handles.delete _ _ _).read o = some b at reads
      rw [Handles.read_delete] at reads
      split at reads
      · exact sound.kinds reads
      · cases reads
    · change ((s.handles.delete _ _ _).ref o).isSome at referred
      rw [Handles.delete_ref] at referred
      split at referred
      · assumption
      · cases referred
  | sweep now limit deletes forgets =>
    have swept := sweep_handles sound now limit deletes forgets
    refine ⟨swept.1, fun {o b} reads => ?_, fun {o} referred => ?_⟩
    · rw [swept.2.2] at reads
      exact sound.kinds reads
    · rw [swept.2.1] at referred
      exact sound.rows referred

theorem Sound.next (sound : s.Sound) {act : Act} (taken : s.next cfg act = some s') : s'.Sound :=
  (next_touches sound taken).sound sound

theorem Touches.inline (touches : Touches cfg tidy s s') (sound : s.Sound) (off : cfg.threshold = 0)
    (inline : ∀ o, s.handles.ref o = none) (o : HandleColumn × Id) : s'.handles.ref o = none := by
  cases touches with
  | keep rows => exact inline o
  | put rows kind here r spills =>
    rcases spills with ⟨size, spills⟩ | ⟨o', referred⟩
    · simp [BlobConfig.shouldSpillBlob, off] at spills
    · simp [inline] at referred
  | clear rows o' r =>
    rw [Handles.assign_ref]
    by_cases same : o = o'
    · rw [same, update_self]
    · rw [update_of_ne same, inline]
  | leak rows b untidy => exact inline o
  | delete own listed =>
    change (s.handles.delete _ _ _).ref o = none
    rw [Handles.delete_ref, inline, ite_self]
  | sweep now limit deletes forgets =>
    rw [(sweep_handles sound now limit deletes forgets).2.1]
    exact inline o

def execute (cfg : BlobConfig) (acts : List Act) (s : Spill) : Spill :=
  acts.foldl (fun s act => (s.next cfg act).getD s) s

theorem Sound.execute (sound : s.Sound) (acts : List Act) : (execute cfg acts s).Sound := by
  induction acts generalizing s with
  | nil => exact sound
  | cons act acts ih =>
    cases taken : s.next cfg act with
    | none => simpa [Spill.execute, taken] using ih sound
    | some s' => simpa [Spill.execute, taken] using ih (sound.next taken)

theorem inline_execute (sound : s.Sound) (off : cfg.threshold = 0)
    (inline : ∀ o, s.handles.ref o = none)
    (acts : List Act) : ∀ o, (execute cfg acts s).handles.ref o = none := by
  induction acts generalizing s with
  | nil => exact inline
  | cons act acts ih =>
    cases taken : s.next cfg act with
    | none => simpa [execute, taken] using ih sound inline
    | some s' =>
      simpa [execute, taken] using ih (sound.next taken)
        ((next_touches sound taken).inline sound off inline)

theorem resolved_execute (sound : s.Sound) (acts : List Act) :
    (execute cfg acts s).resolved =
      acts.foldl (fun t act => (t.unspilled act).getD t) s.resolved := by
  induction acts generalizing s with
  | nil => rfl
  | cons act acts ih =>
    have step : (s.next cfg act).map resolved = _ := next_resolved sound act
    cases taken : s.next cfg act with
    | none =>
      simpa [execute, taken, ← step] using ih sound
    | some s' =>
      simpa [execute, taken, ← step] using ih (sound.next taken)

/--
Whatever the threshold is, the same operations leave the same runs, and every bag and scratch text
reads the same as if nothing had been spilled; no row refers to a blob that is gone.
-/
theorem spilling_transparent (cfg : BlobConfig) (store : Store) (acts : List Act) :
    let s := execute cfg acts { store }
    let plain := execute { cfg with threshold := 0 } acts { store }
    (∀ o, plain.handles.ref o = none) ∧
      (∀ runId, (s.store.run? runId).isSome = (plain.store.run? runId).isSome ∧
        s.getByRun runId = plain.getByRun runId ∧
          s.getPriorRunData runId = plain.getPriorRunData runId ∧
        s.getDispatchInputBag runId = plain.getDispatchInputBag runId ∧
        s.loadScratch runId = plain.loadScratch runId) ∧
      ∀ o k, s.handles.ref o = some k → (s.handles.content k).isSome := by
  intro s plain
  have start := Sound.start store
  have sound : s.Sound := start.execute acts
  have plainSound : plain.Sound := start.execute acts
  have same : s.resolved = plain.resolved :=
    (resolved_execute start acts).trans (resolved_execute start acts).symm
  refine ⟨inline_execute start rfl (fun _ => rfl) acts, fun runId => ⟨?_, ?_, ?_, ?_, ?_⟩,
    fun o k ref => ?_⟩
  · have there : ∀ t : Spill, (t.resolved.run? runId).isSome = (t.store.run? runId).isSome :=
      fun t => isSome_run?_reread runId
    rw [← there s, ← there plain, same]
  · rw [getByRun_eq sound, getByRun_eq plainSound, same]
  · rw [getPriorRunData_eq sound, getPriorRunData_eq plainSound, same]
  · rw [getDispatchInputBag_eq, getDispatchInputBag_eq, same]
  · rw [loadScratch_eq sound, loadScratch_eq plainSound, same]
  · exact sound.handles.live ref

end Runs

end Spill

end Rimsky
