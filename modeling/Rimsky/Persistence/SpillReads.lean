import Rimsky.Persistence.Spill

/-!
# Spilled values read as if they were never spilled

The store that the readers see has every bag and scratch text in place of its handle. Each
operation changes it the way it changes a store without handles, whatever the threshold is. What
carries this is that a handle a row refers to has no other row and is not in the ledger.
-/

namespace Rimsky

open Transaction List Store Handles Function

namespace Store

theorem map_ite_map {α : Type} {p : α → Prop} [DecidablePred p] {f f' change change' : α → α}
    {xs : List α} (blind : ∀ a, p (f a) ↔ p a)
    (here : ∀ a ∈ xs, p a → f' (change a) = change' (f a)) (there : ∀ a, ¬p a → f' a = f a) :
    (xs.map fun a => if p a then change a else a).map f' =
      (xs.map f).map fun a => if p a then change' a else a := by
  rw [map_map, map_map]
  refine map_congr_left fun a mem => ?_
  by_cases fits : p a
  · simp only [comp_apply, if_pos fits, if_pos ((blind a).mpr fits), here a mem fits]
  · simp only [comp_apply, if_neg fits, if_neg (mt (blind a).mp fits), there a fits]

section Reread

variable (bag : Id → Bag → Bag) (scratch : Id → Option String → Option String) (ids : List Id)

def rereadRow (a : NodeAttributes) : NodeAttributes := { a with data := bag a.nodeRunId a.data }

def rereadRun (r : NodeRun) : NodeRun := { r with scratch := scratch r.id r.scratch }

/-- The store with every bag and scratch text as the functions give it. -/
def reread (s : Store) : Store :=
  { s with attributes := s.attributes.map (rereadRow bag), runs := s.runs.map (rereadRun scratch) }

variable {bag scratch} {s : Store}

theorem attributes?_reread (id : Id) :
    (s.reread bag scratch).attributes? id = (s.attributes? id).map (rereadRow bag) :=
  find?_map

theorem run?_reread (id : Id) : (s.reread bag scratch).run? id =
    (s.run? id).map (rereadRun scratch) :=
  find?_map

theorem isSome_run?_reread (id : Id) : ((s.reread bag scratch).run? id).isSome =
    (s.run? id).isSome := by
  rw [run?_reread, Option.isSome_map]

theorem latestAttributes?_reread (nodeId runScopeId : Id) {fits : NodeRun → Bool}
    (blind : ∀ r, fits (rereadRun scratch r) = fits r) :
    (s.reread bag scratch).latestAttributes? nodeId runScopeId fits =
      (s.latestAttributes? nodeId runScopeId fits).map (rereadRow bag) := by
  have rows : (s.reread bag scratch).runs.filter (fun r => r.nodeId = nodeId &&
      r.runScopeId = runScopeId &&
        fits r && ((s.reread bag scratch).attributes? r.id).isSome) =
      (s.runs.filter fun r => r.nodeId = nodeId && r.runScopeId = runScopeId &&
        fits r && (s.attributes? r.id).isSome).map (rereadRun scratch) := by
    change (s.runs.map (rereadRun scratch)).filter _ = _
    rw [filter_map]
    congr 1
    refine filter_congr fun r _ => ?_
    simp only [comp_apply, blind, attributes?_reread, Option.isSome_map]
    rfl
  unfold latestAttributes? bySequence
  rw [rows, ← map_insertionSort (fun r r' : NodeRun => r.sequence ≤ r'.sequence)
    (fun r r' : NodeRun => r.sequence ≤ r'.sequence) (rereadRun scratch) _ fun _ _ _ _ => Iff.rfl,
    getLast?_map, Option.bind_map, Option.map_bind]
  exact congrArg _ (funext fun r => attributes?_reread r.id)

theorem deletionClosure_reread (fuel : Nat) :
    (s.reread bag scratch).deletionClosure ids fuel = s.deletionClosure ids fuel := by
  induction fuel generalizing ids with
  | zero => rfl
  | succ fuel ih =>
    unfold deletionClosure
    have more : (s.reread bag scratch).runs.filter (fun r =>
          ((s.reread bag scratch).runScopes.filter fun scope =>
            scope.parentNodeRunId.any ids.contains).any
            (fun scope => scope.id = r.runScopeId) && !ids.contains r.id) =
        (s.runs.filter fun r =>
          (s.runScopes.filter fun scope => scope.parentNodeRunId.any ids.contains).any
            (fun scope => scope.id = r.runScopeId) && !ids.contains r.id).map (rereadRun scratch) :=
      filter_map
    dsimp only
    rw [more, isEmpty_map, map_map, ih]
    rfl

theorem deleteRuns_reread :
    (s.reread bag scratch).deleteRuns ids = (s.deleteRuns ids).reread bag scratch := by
  unfold deleteRuns
  have length : (s.reread bag scratch).runs.length = s.runs.length := length_map _
  rw [length, deletionClosure_reread]
  generalize s.deletionClosure ids s.runs.length = gone
  have runs : ∀ runs : List NodeRun,
      ((runs.map (rereadRun scratch)).filter fun r => !gone.contains r.id).map (fun r =>
          if r.priorDispatchId.any gone.contains then { r with priorDispatchId := none } else r) =
        ((runs.filter fun r => !gone.contains r.id).map fun r =>
          if r.priorDispatchId.any gone.contains then { r with priorDispatchId := none } else r).map
            (rereadRun scratch) := by
    intro runs
    rw [filter_map]
    symm
    exact map_ite_map (fun _ => Iff.rfl) (fun _ _ _ => rfl) fun _ _ => rfl
  have attributes : (s.attributes.map (rereadRow bag)).filter (fun a =>
      !gone.contains a.nodeRunId) =
      (s.attributes.filter fun a => !gone.contains a.nodeRunId).map (rereadRow bag) := filter_map
  simp only [reread, runs, attributes]

theorem scopesBelow_reread (fuel : Nat) :
    (s.reread bag scratch).scopesBelow ids fuel = s.scopesBelow ids fuel := by
  induction fuel generalizing ids with
  | zero => rfl
  | succ fuel ih =>
    unfold scopesBelow
    dsimp only
    rw [ih]
    rfl

theorem map_id_filter_reread (p : NodeRun → Bool) (blind : ∀ r, p (rereadRun scratch r) = p r) :
    ((s.reread bag scratch).runs.filter p).map (·.id) = (s.runs.filter p).map (·.id) := by
  change ((s.runs.map (rereadRun scratch)).filter p).map _ = _
  rw [filter_map, map_map]
  have same : p ∘ rereadRun scratch = p := funext blind
  rw [same]
  rfl

theorem deleteScopes_reread :
    (s.reread bag scratch).deleteScopes ids = (s.deleteScopes ids).reread bag scratch := by
  unfold deleteScopes
  rw [runScopes, scopesBelow_reread]
  dsimp only
  rw [map_id_filter_reread _ fun _ => rfl, deleteRuns_reread]
  rfl

theorem deleteFrameRows_reread :
    (s.reread bag scratch).deleteFrameRows ids = (s.deleteFrameRows ids).reread bag scratch := by
  unfold deleteFrameRows
  rw [map_id_filter_reread _ fun _ => rfl, deleteRuns_reread]
  rfl

theorem deleteFrames_reread :
    (s.reread bag scratch).deleteFrames ids = (s.deleteFrames ids).reread bag scratch := by
  unfold deleteFrames
  rw [deleteFrameRows_reread, deleteScopes_reread]
  have inScope : ∀ root, ((s.deleteFrameRows ids).reread bag scratch).runs.any
      (·.runScopeId = root) =
      (s.deleteFrameRows ids).runs.any (·.runScopeId = root) := fun root => any_map
  simp only [inScope]
  rfl

theorem bare_reread : (s.reread bag scratch).bare = s.bare := by
  unfold bare reread
  simp only [map_map]
  rfl

/-- What others do to a store does not depend on the values that may be spilled. -/
theorem proceed_reread (change : Store → Store) :
    (s.reread bag scratch).proceed change = (s.proceed change).reread bag scratch := by
  unfold proceed
  rw [bare_reread]
  generalize change s.bare = t
  have runs : (s.reread bag scratch).runs.map (fun r =>
        { (t.run? r.id).getD r with id := r.id, scratch := r.scratch }) =
      (s.runs.map fun r => { (t.run? r.id).getD r with id := r.id, scratch := r.scratch }).map
        (rereadRun scratch) := by
    change (s.runs.map (rereadRun scratch)).map _ = _
    rw [map_map, map_map]
    refine map_congr_left fun r _ => ?_
    simp only [comp_apply]
    change ({ (t.run? r.id).getD (rereadRun scratch r) with
      id := r.id, scratch := scratch r.id r.scratch } : NodeRun) = _
    cases t.run? r.id <;> rfl
  dsimp only
  rw [runs]
  rfl

variable {bag' : Id → Bag → Bag}

theorem reread_congr {scratch' : Id → Option String → Option String}
    (bags : ∀ a ∈ s.attributes, bag a.nodeRunId a.data = bag' a.nodeRunId a.data)
    (texts : ∀ r ∈ s.runs, scratch r.id r.scratch = scratch' r.id r.scratch) :
    s.reread bag scratch = s.reread bag' scratch' := by
  have rows : s.attributes.map (rereadRow bag) = s.attributes.map (rereadRow bag') :=
    map_congr_left fun a mem => by simp only [rereadRow, bags a mem]
  have runs : s.runs.map (rereadRun scratch) = s.runs.map (rereadRun scratch') :=
    map_congr_left fun r mem => by simp only [rereadRun, texts r mem]
  simp only [reread, rows, runs]

theorem map_change_reread {runId : Id} {change change' : NodeAttributes → NodeAttributes}
    (others : ∀ id, id ≠ runId → bag' id = bag id) {rows : List NodeAttributes}
    (changed : ∀ a ∈ rows, a.nodeRunId = runId →
      rereadRow bag' (change a) = change' (rereadRow bag a)) :
    (rows.map fun a => if a.nodeRunId = runId then change a else a).map (rereadRow bag') =
      (rows.map (rereadRow bag)).map fun a => if a.nodeRunId = runId then change' a else a := by
  refine map_ite_map (fun _ => Iff.rfl) changed fun a other => ?_
  simp only [rereadRow, others _ other]

/-- Writing one row and reading all is reading all and writing the row as it is read. -/
theorem upsertAttributes_reread {fresh fresh' : NodeAttributes}
    {change change' : NodeAttributes → NodeAttributes}
    (same : fresh'.nodeRunId = fresh.nodeRunId) (others : ∀ id, id ≠ fresh.nodeRunId →
      bag' id = bag id)
    (changed : ∀ a ∈ s.attributes, a.nodeRunId = fresh.nodeRunId →
      rereadRow bag' (change a) = change' (rereadRow bag a))
    (inserted : s.attributes? fresh.nodeRunId = none → rereadRow bag' fresh = fresh') :
    (s.upsertAttributes fresh change).reread bag' scratch =
      (s.reread bag scratch).upsertAttributes fresh' change' := by
  have any : (s.reread bag scratch).attributes.any (·.nodeRunId = fresh'.nodeRunId) =
      s.attributes.any (·.nodeRunId = fresh.nodeRunId) := by
    rw [same]
    exact any_map
  unfold upsertAttributes
  rw [any]
  split
  · simp only [reread, map_change_reread others changed, same]
  · next absent =>
      have none : s.attributes? fresh.nodeRunId = none := by
        refine find?_eq_none.mpr fun a mem here => absent ?_
        exact any_eq_true.mpr ⟨a, mem, here⟩
      have rows : s.attributes.map (rereadRow bag') = s.attributes.map (rereadRow bag) := by
        refine map_congr_left fun a mem => ?_
        have other : a.nodeRunId ≠ fresh.nodeRunId := fun here =>
          absent (any_eq_true.mpr ⟨a, mem, by simpa using here⟩)
        simp only [rereadRow, others _ other]
      simp only [reread, map_append, map_cons, map_nil, rows, inserted none]

theorem setScratch_reread {scratch' : Id → Option String → Option String} {runId : Id}
    {text text' : Option String} (others : ∀ id, id ≠ runId → scratch' id = scratch id)
    (here : scratch' runId text = text') :
    (s.setScratch runId text).reread bag scratch' =
      (s.reread bag scratch).setScratch runId text' := by
  have runs : (s.runs.map fun r => if r.id = runId then { r with scratch := text } else r).map
        (rereadRun scratch') =
      (s.runs.map (rereadRun scratch)).map fun r => if r.id = runId then
        { r with scratch := text' } else r := by
    refine map_ite_map (fun _ => Iff.rfl) (fun r _ same => ?_) fun r other => ?_
    · simp only [rereadRun, same, here]
    · simp only [rereadRun, others _ other]
  simp only [setScratch, reread, runs]

end Reread

def attempt (tx : Tx Unit) (s : Store) : Option Store :=
  match tx s with
  | (.ok _, left) => some left
  | (.error _, _) => none

/-- The operations on a store that holds every value itself. -/
def unspilled (s : Store) : Spill.Act → Option Store
  | .upsert runId nodeId data =>
    if !s.mayUpsert runId then none else attempt (NodeAttributes.upsert runId nodeId data) s
  | .mergeDelta runId delta => attempt (NodeAttributes.mergeDelta runId delta) s
  | .setDispatchInputBag runId nodeId bag =>
    if !s.mayUpsert runId then none else
      attempt (NodeAttributes.setDispatchInputBag runId nodeId bag) s
  | .snapshotBagForNewRun newRunId nodeId runScopeId =>
    if !s.mayUpsert newRunId then none
    else attempt (NodeAttributes.snapshotBagForNewRun newRunId nodeId runScopeId) s
  | .writeScratch runId scratch =>
    if scratch = "" then some s
    else if (s.run? runId).isNone then none else some (s.setScratch runId (some scratch))
  | .insertRun row =>
    if (s.run? row.id).isSome then none else some { s with runs := s.runs ++ [row] }
  | .deletePriorCascadeStales nodeId runScopeId beforeSeq =>
    attempt (Nodes.deletePriorCascadeStales nodeId runScopeId beforeSeq) s
  | .dropPendingRun runId => attempt (Nodes.dropPendingRun runId) s
  | .pruneTraceForRetention recentFramesKept cutoff =>
    some (s.deleteFrames (s.prunableFrames recentFramesKept cutoff))
  | .sweepOrphanedBlobs .. => some s
  | .proceed change => some (s.proceed change)

end Store

namespace Spill

variable {s : Spill}

def bagIn (h : Handles (HandleColumn × Id) Blob) (id : Id) (data : Bag) : Bag :=
  match h.read (.value, id) with
  | some (.bag spilled) => spilled
  | _ => data

def scratchIn (h : Handles (HandleColumn × Id) Blob) (id : Id) (inline : Option String) :
    Option String :=
  match h.read (.scratch, id) with
  | some (.scratch spilled) => some spilled
  | _ => inline

/-- The store as the readers see it, with the spilled values in place. -/
def resolved (s : Spill) : Store := s.store.reread (bagIn s.handles) (scratchIn s.handles)

/-- Columns refer to contents of their kind, and only rows that are there refer to anything. -/
structure Sound (s : Spill) : Prop where
  handles : s.handles.Sound
  kinds : ∀ {o b}, s.handles.read o = some b → b.column = o.1
  rows : ∀ {o}, (s.handles.ref o).isSome → s.store.hasRow o

theorem Sound.start (store : Store) : ({ store } : Spill).Sound :=
  ⟨Handles.Sound.empty, by simp [Handles.read], by simp⟩

section Reads

variable (sound : s.Sound)

include sound

theorem Sound.content_bag {id : Id} {k : Nat} (ref : s.handles.ref (.value, id) = some k) :
    ∃ data, s.handles.content k = some (.bag data) := by
  rcases Option.isSome_iff_exists.mp (sound.handles.live ref) with ⟨b, content⟩
  have reads : s.handles.read (.value, id) = some b := by simp [Handles.read, ref, content]
  cases b with
  | bag data => exact ⟨data, content⟩
  | scratch text => cases sound.kinds reads

theorem Sound.content_scratch {id : Id} {k : Nat} (ref : s.handles.ref (.scratch, id) = some k) :
    ∃ text, s.handles.content k = some (.scratch text) := by
  rcases Option.isSome_iff_exists.mp (sound.handles.live ref) with ⟨b, content⟩
  have reads : s.handles.read (.scratch, id) = some b := by simp [Handles.read, ref, content]
  cases b with
  | bag data => cases sound.kinds reads
  | scratch text => exact ⟨text, content⟩

theorem scanAttributeRow_eq (row : NodeAttributes) :
    s.scanAttributeRow row = .ok (bagIn s.handles row.nodeRunId row.data) := by
  unfold scanAttributeRow bagIn Handles.read
  cases ref : s.handles.ref (.value, row.nodeRunId) with
  | none => rfl
  | some k =>
    rcases sound.content_bag ref with ⟨data, content⟩
    simp [content]

theorem scanAttributes_eq (row : Option NodeAttributes) :
    s.scanAttributes row = .ok ((row.map (Store.rereadRow (bagIn s.handles))).map (·.data)) := by
  cases row with
  | none => rfl
  | some row =>
    change (s.scanAttributeRow row).map some = _
    rw [scanAttributeRow_eq sound]
    rfl

theorem getByRun_eq (runId : Id) : s.getByRun runId = .ok (s.resolved.data? runId) := by
  unfold getByRun data? resolved
  rw [scanAttributes_eq sound, attributes?_reread]

theorem getPriorRunData_eq (runId : Id) :
    s.getPriorRunData runId = (NodeAttributes.getPriorRunData runId s.resolved).1 := by
  unfold getPriorRunData NodeAttributes.getPriorRunData
  rw [scanAttributes_eq sound]
  unfold Transaction.read resolved
  dsimp only
  rw [run?_reread]
  cases s.store.run? runId with
  | none => rfl
  | some cur =>
    change Except.ok (((s.store.latestAttributes? cur.nodeId cur.runScopeId _).map _).map _) =
      Except.ok (((s.store.reread (bagIn s.handles) (scratchIn s.handles)).latestAttributes?
        cur.nodeId cur.runScopeId _).map _)
    rw [latestAttributes?_reread]
    · rfl
    · exact fun _ => rfl

omit sound in
theorem getDispatchInputBag_eq (runId : Id) :
    s.getDispatchInputBag runId = s.resolved.dispatchInputBag? runId := by
  unfold getDispatchInputBag dispatchInputBag? resolved
  rw [attributes?_reread]
  cases s.store.attributes? runId <;> rfl

theorem loadScratch_eq (runId : Id) :
    s.loadScratch runId = .ok ((s.resolved.run? runId).bind (·.scratch)) := by
  unfold loadScratch resolved
  rw [run?_reread]
  cases found : s.store.run? runId with
  | none => rfl
  | some run =>
    have id : run.id = runId := by simpa using find?_some found
    change _ = Except.ok (scratchIn s.handles run.id run.scratch)
    unfold scratchIn Handles.read
    rw [id]
    cases ref : s.handles.ref (.scratch, runId) with
    | none => rfl
    | some k =>
      rcases sound.content_scratch ref with ⟨text, content⟩
      simp [content]

end Reads

section Handles

variable {h h' : Handles (HandleColumn × Id) Blob}

theorem bagIn_congr {id : Id} (same : h'.read (.value, id) = h.read (.value, id)) :
    bagIn h' id = bagIn h id := by
  funext data
  unfold bagIn
  rw [same]

theorem scratchIn_congr {id : Id} (same : h'.read (.scratch, id) = h.read (.scratch, id)) :
    scratchIn h' id = scratchIn h id := by
  funext inline
  unfold scratchIn
  rw [same]

theorem upsertAttributes_resolved {fresh fresh' : NodeAttributes}
    {change change' : NodeAttributes → NodeAttributes} (same : fresh'.nodeRunId = fresh.nodeRunId)
    (others : ∀ c, c ≠ (.value, fresh.nodeRunId) → h.read c = s.handles.read c)
    (changed : ∀ a ∈ s.store.attributes, a.nodeRunId = fresh.nodeRunId →
      rereadRow (bagIn h) (change a) = change' (rereadRow (bagIn s.handles) a))
    (inserted : s.store.attributes? fresh.nodeRunId = none → rereadRow (bagIn h) fresh = fresh') :
    (s.store.upsertAttributes fresh change).reread (bagIn h) (scratchIn h) =
      s.resolved.upsertAttributes fresh' change' := by
  have texts : scratchIn h = scratchIn s.handles :=
    funext fun id => scratchIn_congr (others _ (by simp))
  rw [texts]
  exact upsertAttributes_reread same (fun id other => bagIn_congr (others _ (by simpa using other)))
    changed inserted

theorem save_resolved {runId nodeId : Id} {saved data : Bag}
    (others : ∀ c, c ≠ (.value, runId) → h.read c = s.handles.read c)
    (self : bagIn h runId saved = data) :
    (s.store.upsertAttributes {
      nodeRunId := runId, nodeId, data := saved, updatedAt := s.store.clock }
        fun a => { a with data := saved, updatedAt := s.store.clock }).reread (bagIn h)
          (scratchIn h) =
      s.resolved.upsertAttributes { nodeRunId := runId, nodeId, data, updatedAt := s.store.clock }
        fun a => { a with data, updatedAt := s.store.clock } := by
  refine upsertAttributes_resolved rfl others (fun a mem here => ?_) fun _ => ?_
  · change a.nodeRunId = runId at here
    simp only [rereadRow, here, self]
  · simp only [rereadRow, self]

theorem setScratch_resolved {runId : Id} {saved text : Option String}
    (others : ∀ c, c ≠ (.scratch, runId) → h.read c = s.handles.read c)
    (self : scratchIn h runId saved = text) :
    (s.store.setScratch runId saved).reread (bagIn h) (scratchIn h) =
      s.resolved.setScratch runId text := by
  have bags : bagIn h = bagIn s.handles := funext fun id => bagIn_congr (others _ (by simp))
  rw [bags]
  exact setScratch_reread (fun id other => scratchIn_congr (others _ (by simpa using other))) self

end Handles

section Next

variable {cfg : BlobConfig} (sound : s.Sound)

theorem mayUpsert_resolved (runId : Id) : s.resolved.mayUpsert runId = s.store.mayUpsert runId := by
  unfold mayUpsert resolved
  rw [isSome_run?_reread, attributes?_reread, Option.isSome_map]

theorem isNone_run?_resolved (runId : Id) : (s.resolved.run? runId).isNone =
    (s.store.run? runId).isNone := by
  rw [← Option.not_isSome, ← Option.not_isSome, resolved, isSome_run?_reread]

include sound

/-- A bag is saved in the row or under a new handle, and is read back either way. -/
theorem upsert_resolved (runId nodeId : Id) (data : Bag) :
    (s.upsert cfg runId nodeId data).map resolved =
      s.resolved.unspilled (.upsert runId nodeId data) := by
  unfold upsert unspilled
  dsimp only
  rw [mayUpsert_resolved]
  split
  · rfl
  · split
    · refine congrArg some (save_resolved (fun c other => ?_) ?_)
      · rw [sound.handles.read_put, if_neg other]
      · rw [bagIn, sound.handles.read_put, if_pos rfl]
    · refine congrArg some (save_resolved (fun c other => ?_) ?_)
      · rw [read_clear, if_neg other]
      · rw [bagIn, read_clear, if_pos rfl]

theorem Sound.ref_of_absent {id : Id} (absent : s.store.attributes? id = none) :
    s.handles.ref (.value, id) = none := by
  by_contra spilled
  have here : (s.store.attributes? id).isSome := sound.rows (Option.isSome_iff_ne_none.mpr spilled)
  rw [absent] at here
  cases here

theorem Sound.bagIn_of_absent {id : Id} (absent : s.store.attributes? id = none) (data : Bag) :
    bagIn s.handles id data = data := by
  simp [bagIn, Handles.read, sound.ref_of_absent absent]

theorem setDispatchInputBag_resolved (runId nodeId : Id) (bag : Bag) :
    (s.setDispatchInputBag runId nodeId bag).map resolved =
      s.resolved.unspilled (.setDispatchInputBag runId nodeId bag) := by
  unfold setDispatchInputBag unspilled
  dsimp only
  rw [mayUpsert_resolved]
  split
  · rfl
  · refine congrArg some ?_
    refine upsertAttributes_reread rfl (fun _ _ => rfl) (fun _ _ _ => rfl) fun absent => ?_
    simp only [rereadRow, sound.bagIn_of_absent absent]
    rfl

/-- A spilled bag is merged by a new upsert, one in the row in place. -/
theorem mergeDelta_resolved (runId : Id) (delta : Option Bag) :
    (s.mergeDelta cfg runId delta).map resolved =
      s.resolved.unspilled (.mergeDelta runId delta) := by
  have row : s.resolved.attributes? runId =
      (s.store.attributes? runId).map (Store.rereadRow (bagIn s.handles)) :=
    Store.attributes?_reread runId
  unfold mergeDelta
  cases found : s.store.attributes? runId with
  | none =>
    rw [found] at row
    simp [Store.unspilled, Store.attempt, NodeAttributes.mergeDelta, row]
  | some a =>
    rw [found] at row
    have id : a.nodeRunId = runId := by simpa using find?_some found
    -- with the row there, a merge is a change of rows
    have merges : s.resolved.unspilled (.mergeDelta runId delta) = some { s.resolved with
        attributes := s.resolved.attributes.map fun a => if a.nodeRunId = runId then
          { a with data := a.data.merge (delta.getD []), updatedAt := s.store.clock } else a } := by
      unfold Store.unspilled Store.attempt NodeAttributes.mergeDelta
      dsimp only
      rw [read_bind, row]
      rfl
    rw [merges]
    have rows (delta : Bag) (merged : ∀ saved, bagIn s.handles runId (saved.merge delta) =
          (bagIn s.handles runId saved).merge delta) :
        (s.store.attributes.map fun a => if a.nodeRunId = runId then
          { a with data := a.data.merge delta, updatedAt := s.store.clock } else a).map
            (rereadRow (bagIn s.handles)) =
        s.resolved.attributes.map fun a => if a.nodeRunId = runId then
          { a with data := a.data.merge delta, updatedAt := s.store.clock } else a := by
      refine map_change_reread (fun _ _ => rfl) fun a _ here => ?_
      simp only [rereadRow, here, merged]
    cases delta with
    | none =>
      exact congrArg (fun attributes => some { s.resolved with attributes }) (rows [] fun _ => rfl)
    | some delta =>
      by_cases spilled : (s.handles.ref (.value, runId)).isSome
      · rcases Option.isSome_iff_exists.mp spilled with ⟨k, ref⟩
        rcases sound.content_bag ref with ⟨data, content⟩
        have reads : ∀ saved, bagIn s.handles runId saved = data := by
          simp [bagIn, Handles.read, ref, content]
        dsimp only
        rw [if_pos spilled, scanAttributeRow_eq sound, id, reads]
        rw [upsert_resolved sound]
        have may : s.resolved.mayUpsert runId := by simp [Store.mayUpsert, row]
        have known : s.resolved.attributes.any (·.nodeRunId = runId) := by
          exact any_eq_true.mpr ⟨_, mem_of_find?_eq_some row, decide_eq_true id⟩
        unfold Store.unspilled
        dsimp only
        rw [may]
        change some (s.resolved.upsertAttributes _ _) = _
        unfold Store.upsertAttributes
        rw [if_pos known]
        refine congrArg (fun attributes => some { s.resolved with attributes }) ?_
        refine map_congr_left fun a' mem => ?_
        rcases mem_map.mp mem with ⟨a, -, rfl⟩
        split
        · next here =>
            change a.nodeRunId = runId at here
            simp only [Store.rereadRow, here, reads]
            rfl
        · rfl
      · have reads : ∀ saved, bagIn s.handles runId saved = saved := by
          simp only [Option.isSome_iff_ne_none, ne_eq, not_not] at spilled
          simp [bagIn, Handles.read, spilled]
        dsimp only
        rw [if_neg spilled]
        exact congrArg (fun attributes => some { s.resolved with attributes })
          (rows delta fun saved => by rw [reads, reads])

/-- The new run gets a copy of the content under a handle of its own. -/
theorem snapshotBagForNewRun_resolved (newRunId nodeId runScopeId : Id) :
    (s.snapshotBagForNewRun newRunId nodeId runScopeId).map resolved =
      s.resolved.unspilled (.snapshotBagForNewRun newRunId nodeId runScopeId) := by
  have prior : s.resolved.latestAttributes? nodeId runScopeId (fun r => r.id ≠ newRunId) =
      (s.store.latestAttributes? nodeId runScopeId fun r => r.id ≠ newRunId).map
        (rereadRow (bagIn s.handles)) :=
    latestAttributes?_reread _ _ fun _ => rfl
  -- the row that is inserted has no handle of its own, so readers see what is saved in it
  have inserts : ∀ data : Bag,
      (s.store.upsertAttributes {
        nodeRunId := newRunId, nodeId, data, dispatchInputBag := some data
        updatedAt := s.store.clock } id).reread (bagIn s.handles) (scratchIn s.handles) =
        s.resolved.upsertAttributes {
          nodeRunId := newRunId, nodeId, data, dispatchInputBag := some data
          updatedAt := s.store.clock } id := by
    intro data
    refine upsertAttributes_reread rfl (fun _ _ => rfl) (fun _ _ _ => rfl) fun absent => ?_
    simp only [rereadRow, sound.bagIn_of_absent absent]
  have takes : s.resolved.unspilled (.snapshotBagForNewRun newRunId nodeId runScopeId) =
      if !s.resolved.mayUpsert newRunId then none
      else
        let data := ((s.resolved.latestAttributes? nodeId runScopeId fun r =>
          r.id ≠ newRunId).map (·.data)).getD []
        some (s.resolved.upsertAttributes {
          nodeRunId := newRunId, nodeId, data, dispatchInputBag := some data
          updatedAt := s.store.clock } id) := rfl
  rw [takes, mayUpsert_resolved, prior]
  unfold snapshotBagForNewRun
  split
  · rfl
  · cases s.store.latestAttributes? nodeId runScopeId fun r => r.id ≠ newRunId with
    | none => exact congrArg some (inserts [])
    | some row =>
      dsimp only [Option.map_some, Option.getD_some, rereadRow]
      cases ref : s.handles.ref (.value, row.nodeRunId) with
      | none =>
        have reads : bagIn s.handles row.nodeRunId row.data = row.data := by
          simp [bagIn, Handles.read, ref]
        rw [reads]
        exact congrArg some (inserts row.data)
      | some k =>
        rcases sound.content_bag ref with ⟨data, content⟩
        have reads : bagIn s.handles row.nodeRunId row.data = data := by
          simp [bagIn, Handles.read, ref, content]
        rw [reads]
        dsimp only
        rw [content]
        cases found : s.store.attributes? newRunId with
        | some old =>
          refine congrArg some (upsertAttributes_resolved rfl ?_ (fun _ _ _ => ?_) fun absent => ?_)
          · exact fun c _ => sound.handles.read_write _ c
          · simp only [id, rereadRow, bagIn, sound.handles.read_write]
          · cases found.symm.trans absent
        | none =>
          refine congrArg some ?_
          unfold resolved
          rw [← Handles.put_of_none (sound.ref_of_absent found) (.bag data) 0]
          refine upsertAttributes_resolved rfl (fun c other => ?_)
            (fun a mem here => ?_) fun _ => ?_
          · rw [sound.handles.read_put, if_neg other]
          · have absent := find?_eq_none.mp found a mem
            exact absurd (decide_eq_true here) absent
          · simp only [rereadRow, bagIn, sound.handles.read_put, if_pos]

theorem writeScratch_resolved (runId : Id) (scratch : String) :
    (s.writeScratch cfg runId scratch).map resolved =
      s.resolved.unspilled (.writeScratch runId scratch) := by
  unfold writeScratch unspilled
  dsimp only
  rw [isNone_run?_resolved]
  split
  · rfl
  · split
    · rfl
    · split
      · refine congrArg some (setScratch_resolved (fun c other => ?_) ?_)
        · rw [sound.handles.read_put, if_neg other]
        · rw [scratchIn, sound.handles.read_put, if_pos rfl]
      · refine congrArg some (setScratch_resolved (fun c other => ?_) ?_)
        · rw [read_clear, if_neg other]
        · rw [scratchIn, read_clear, if_pos rfl]

theorem insertRun_resolved (row : NodeRun) :
    (s.insertRun row).map resolved = s.resolved.unspilled (.insertRun row) := by
  have known : (s.resolved.run? row.id).isSome = (s.store.run? row.id).isSome :=
    isSome_run?_reread _
  unfold insertRun unspilled
  dsimp only
  rw [known]
  split
  · rfl
  · next absent =>
      -- a run that is not there has no handle
      have unspilled : s.handles.ref (.scratch, row.id) = none := by
        by_contra spilled
        exact absent (sound.rows (Option.isSome_iff_ne_none.mpr spilled))
      have reads : rereadRun (scratchIn s.handles) row = row := by
        simp [rereadRun, scratchIn, Handles.read, unspilled]
      refine congrArg some ?_
      simp only [resolved, reread, map_append, map_cons, map_nil, reads]

omit sound in
/-- Rows that stay keep their handles, so the readers see the same of them. -/
theorem deleteRows_resolved {left : Store} (enrolled : List Nat) :
    (s.deleteRows cfg left enrolled).resolved = left.reread (bagIn s.handles)
    (scratchIn s.handles) := by
  refine reread_congr (fun a mem => ?_) fun r mem => ?_
  · refine congrFun (bagIn_congr ?_) _
    have here : left.hasRow (.value, a.nodeRunId) := by
      refine find?_isSome.mpr ⟨a, mem, ?_⟩
      simp
    exact (read_delete _).trans (if_pos here)
  · refine congrFun (scratchIn_congr ?_) _
    have here : left.hasRow (.scratch, r.id) := by
      refine find?_isSome.mpr ⟨r, mem, ?_⟩
      simp
    exact (read_delete _).trans (if_pos here)

omit sound in
theorem deletePriorCascadeStales_resolved (nodeId runScopeId : Id) (beforeSeq : Nat) :
    some (s.deletePriorCascadeStales cfg nodeId runScopeId beforeSeq).resolved =
      s.resolved.unspilled (.deletePriorCascadeStales nodeId runScopeId beforeSeq) := by
  have stales : s.resolved.cascadeStales nodeId runScopeId beforeSeq =
      s.store.cascadeStales nodeId runScopeId beforeSeq :=
    map_id_filter_reread _ fun _ => rfl
  change _ = some (s.resolved.deleteRuns (s.resolved.cascadeStales nodeId runScopeId beforeSeq))
  rw [stales]
  refine congrArg some ((deleteRows_resolved _).trans ?_)
  exact (deleteRuns_reread _).symm

omit sound in
theorem dropPendingRun_resolved (runId : Id) :
    (s.dropPendingRun cfg runId).map resolved = s.resolved.unspilled (.dropPendingRun runId) := by
  have pending : (s.resolved.run? runId).any (·.state = .pending) =
      (s.store.run? runId).any (·.state = .pending) := by
    unfold resolved
    rw [Store.run?_reread, Option.any_map]
    rfl
  unfold dropPendingRun Store.unspilled Store.attempt Nodes.dropPendingRun
  dsimp only
  rw [read_bind, pending]
  split
  · refine congrArg some ((deleteRows_resolved _).trans ?_)
    exact (Store.deleteRuns_reread _).symm
  · rfl

omit sound in
theorem pruneTraceForRetention_resolved (recentFramesKept : Nat) (cutoff : Option Nat) :
    some (s.pruneTraceForRetention cfg recentFramesKept cutoff).resolved =
      s.resolved.unspilled (.pruneTraceForRetention recentFramesKept cutoff) := by
  refine congrArg some ((deleteRows_resolved _).trans ?_)
  exact (deleteFrames_reread _).symm

omit sound in
theorem foldl_reap (due : List Orphan) (deletes forgets : Nat → Bool)
    {h : Handles (HandleColumn × Id) Blob} (sound : h.Sound)
    (free : ∀ o ∈ due, ∀ c, h.ref c ≠ some o.handle) :
    let h' := due.foldl (fun h o => h.reap o.handle (deletes o.handle) (forgets o.handle)) h
    h'.Sound ∧ h'.ref = h.ref ∧ ∀ c, h'.read c = h.read c := by
  induction due generalizing h with
  | nil => exact ⟨sound, rfl, fun _ => rfl⟩
  | cons o due ih =>
    have here := free o mem_cons_self
    have rest := ih (sound.reap (deletes o.handle) (forgets o.handle) here) fun o' mem c => by
      rw [reap_ref]
      exact free o' (mem_cons_of_mem _ mem) c
    refine ⟨rest.1, rest.2.1.trans (reap_ref _ _), fun c => ?_⟩
    exact (rest.2.2 c).trans (read_reap _ _ here c)

theorem sweep_handles (now limit : Nat) (deletes forgets : Nat → Bool) :
    let swept := s.sweepOrphanedBlobs now limit deletes forgets
    swept.handles.Sound ∧ swept.handles.ref = s.handles.ref ∧
      ∀ c, swept.handles.read c = s.handles.read c := by
  refine foldl_reap _ _ _ sound.handles fun o mem c => sound.handles.free ?_ c
  have listed := (mem_filter.mp ((mem_insertionSort _).mp (mem_of_mem_take mem))).1
  exact any_eq_true.mpr ⟨o, listed, by simp⟩

theorem sweepOrphanedBlobs_resolved (now limit : Nat) (deletes forgets : Nat → Bool) :
    (s.sweepOrphanedBlobs now limit deletes forgets).resolved = s.resolved := by
  have reads := (sweep_handles sound now limit deletes forgets).2.2
  have bags : bagIn (s.sweepOrphanedBlobs now limit deletes forgets).handles = bagIn s.handles :=
    funext fun id => bagIn_congr (reads _)
  have texts : scratchIn (s.sweepOrphanedBlobs now limit deletes forgets).handles =
      scratchIn s.handles :=
    funext fun id => scratchIn_congr (reads _)
  unfold resolved
  rw [bags, texts]
  rfl

/-- Every operation does to the store that is seen what it does to one without handles. -/
theorem next_resolved (act : Act) : (s.next cfg act).map resolved = s.resolved.unspilled act := by
  cases act with
  | upsert runId nodeId data => exact upsert_resolved sound ..
  | mergeDelta runId delta => exact mergeDelta_resolved sound ..
  | setDispatchInputBag runId nodeId bag => exact setDispatchInputBag_resolved sound ..
  | snapshotBagForNewRun newRunId nodeId runScopeId => exact snapshotBagForNewRun_resolved sound ..
  | writeScratch runId scratch => exact writeScratch_resolved sound ..
  | insertRun row => exact insertRun_resolved sound row
  | deletePriorCascadeStales nodeId runScopeId beforeSeq =>
    exact deletePriorCascadeStales_resolved ..
  | dropPendingRun runId => exact dropPendingRun_resolved runId
  | pruneTraceForRetention recentFramesKept cutoff => exact pruneTraceForRetention_resolved ..
  | sweepOrphanedBlobs now limit deletes forgets =>
    exact congrArg some (sweepOrphanedBlobs_resolved sound ..)
  | proceed change => exact congrArg some (proceed_reread change).symm

end Next

end Spill

end Rimsky
