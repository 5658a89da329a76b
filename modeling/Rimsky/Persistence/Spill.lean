import Rimsky.Lib.Handles
import Rimsky.Lib.Run
import Rimsky.Persistence.Runs

/-!
# Spilling to a blob backend

`blob_spill.go`, `sqlite/node_attributes.go`, `sqlite/queue_park.go`, `sqlite/frames.go`: a bag or a
scratch text that is too long goes to a blob backend, and its row keeps a handle. A handle that a
row gives up is put into a ledger of orphans, which sweeps reap.

There is one backend, whose writes take part in the transaction. As everywhere in the store, a
JSON column is the value it stands for.
-/

namespace Rimsky

/-- The columns that hold handles: `value_handle` and `scratch_handle`. -/
inductive HandleColumn where
  | value
  | scratch
  deriving DecidableEq, Repr

inductive Blob where
  | bag (data : Bag)
  | scratch (text : String)
  deriving DecidableEq

def Blob.column : Blob → HandleColumn
  | .bag _ => .value
  | .scratch _ => .scratch

structure BlobConfig where
  backend : Option String
  threshold : Int
  retention : Nat := 0

namespace BlobConfig

def shouldSpillBlob (cfg : BlobConfig) (size : Nat) : Bool :=
  0 < size && cfg.backend.isSome && 0 < cfg.threshold && cfg.backend ≠ some "inline" &&
    cfg.threshold < size

/-- `QueueBlobOrphan`: when an orphan of now may be reaped. -/
def reapAfter (cfg : BlobConfig) (now : Nat) : Nat :=
  now + if cfg.retention = 0 then 24 * 60 * 60 else cfg.retention

end BlobConfig

def Bag.size (data : Bag) : Nat := (String.ofList (Json.marshal (.obj data.canonical))).utf8ByteSize

/-- The tables, with the columns as they are saved, and what they keep under handles. -/
structure Spill where
  store : Store
  handles : Handles (HandleColumn × Id) Blob := {}

namespace Store

def hasRow (s : Store) : HandleColumn × Id → Bool
  | (.value, id) => (s.attributes? id).isSome
  | (.scratch, id) => (s.run? id).isSome

/-- The foreign key of attribute rows, which is checked when a row is inserted. -/
def mayUpsert (s : Store) (runId : Id) : Bool := (s.attributes? runId).isSome ||
    (s.run? runId).isSome

def setScratch (s : Store) (runId : Id) (scratch : Option String) : Store :=
  { s with runs := s.runs.map fun r => if r.id = runId then { r with scratch } else r }

/-! ## Pruning -/

/-- The rank of an ended frame among those of its instance, the latest first. -/
def frameRank (s : Store) (f : Frame) : Nat :=
  (s.frames.filter fun g => g.instanceId = f.instanceId && g.endedAt.isSome &&
    (f.endedAt.getD 0 < g.endedAt.getD 0 ||
      (f.endedAt = g.endedAt && f.frameId ≤ g.frameId))).length

/-- `prunedFrameIDsSQL`. -/
def prunableFrames (s : Store) (recentFramesKept : Nat) (cutoff : Option Nat) : List Id :=
  (s.frames.filter fun f => f.endedAt.any fun endedAt =>
    (0 < recentFramesKept && recentFramesKept < s.frameRank f) ||
      cutoff.any (endedAt < ·)).map (·.frameId)

def scopesBelow (s : Store) (ids : List Id) : Nat → List Id
  | 0 => ids
  | fuel + 1 =>
    let more := s.runScopes.filter fun scope =>
      scope.parentRunScopeId.any ids.contains && !ids.contains scope.id
    if more.isEmpty then ids else s.scopesBelow (ids ++ more.map (·.id)) fuel

/-- Delete scopes, with what the foreign keys delete along. -/
def deleteScopes (s : Store) (ids : List Id) : Store :=
  let gone := s.scopesBelow ids s.runScopes.length
  let left := s.deleteRuns ((s.runs.filter fun r => gone.contains r.runScopeId).map (·.id))
  { left with runScopes := left.runScopes.filter fun scope => !gone.contains scope.id }

/-- The frames, with what the foreign keys delete or clear along. -/
def deleteFrameRows (s : Store) (ids : List Id) : Store :=
  let left := s.deleteRuns ((s.runs.filter fun r => ids.contains r.frameId).map (·.id))
  { left with
    frames := left.frames.filter fun f => !ids.contains f.frameId
    messages := left.messages.map fun m => if m.frameId.any ids.contains then
      { m with frameId := none } else m
    waitSet := left.waitSet.filter fun w => !ids.contains w.frameId }

/-- The frames, and then their root scopes if nothing else is in them. -/
def deleteFrames (s : Store) (ids : List Id) : Store :=
  let roots := (s.frames.filter fun f => ids.contains f.frameId).map (·.rootRunScopeId)
  let left := s.deleteFrameRows ids
  left.deleteScopes <| roots.filter fun root =>
    !left.frames.any (·.rootRunScopeId = root) && !left.runs.any (·.runScopeId = root)

/-! ## Everything else -/

def bare (s : Store) : Store :=
  { s with attributes := [], runs := s.runs.map fun r => { r with scratch := none } }

/-- What else is written between the operations on bags, scratch and rows. -/
def proceed (s : Store) (change : Store → Store) : Store :=
  let t := change s.bare
  { t with
    attributes := s.attributes
    runs := s.runs.map fun r => { (t.run? r.id).getD r with id := r.id, scratch := r.scratch } }

/-- The runs `DeletePriorCascadeStales` is for. -/
def cascadeStales (s : Store) (nodeId runScopeId : Id) (beforeSeq : Nat) : List Id :=
  (s.runs.filter fun r =>
    r.nodeId = nodeId && r.runScopeId = runScopeId && r.sequence < beforeSeq &&
      r.state = .stale && r.creationReason = .cascade && r.claimedBy.isNone).map (·.id)

end Store

namespace Spill

/-! ## Reading -/

/-- `scanAttributeRow`; a blob that is missing is logged and reads as empty. -/
def scanAttributeRow (s : Spill) (row : NodeAttributes) : Except StoreError Bag :=
  match s.handles.ref (.value, row.nodeRunId) with
  | none => .ok row.data
  | some handle =>
    match s.handles.content handle with
    | none => .ok []
    | some (.bag data) => .ok data
    | some (.scratch _) => .error (.other "node_attributes: unmarshal blob bytes")

def scanAttributes (s : Spill) : Option NodeAttributes → Except StoreError (Option Bag)
  | none => .ok none
  | some row => (s.scanAttributeRow row).map some

def getByRun (s : Spill) (runId : Id) : Except StoreError (Option Bag) :=
  s.scanAttributes (s.store.attributes? runId)

def getPriorRunData (s : Spill) (runId : Id) : Except StoreError (Option Bag) :=
  s.scanAttributes <| (s.store.run? runId).bind fun cur =>
    s.store.latestAttributes? cur.nodeId cur.runScopeId fun r => r.sequence < cur.sequence

def getDispatchInputBag (s : Spill) (runId : Id) : Option Bag := s.store.dispatchInputBag? runId

def loadScratch (s : Spill) (runId : Id) : Except StoreError (Option String) :=
  match s.store.run? runId with
  | none => .ok none
  | some run =>
    match s.handles.ref (.scratch, runId) with
    | none => .ok run.scratch
    | some handle =>
      match s.handles.content handle with
      | none => .error (.other "loadScratch: reading spilled scratch")
      | some (.scratch text) => .ok (some text)
      | some (.bag data) => .ok (some (String.ofList (Json.marshal (.obj data.canonical))))

/-! ## Writing -/

variable (cfg : BlobConfig)

def upsert (s : Spill) (runId nodeId : Id) (data : Bag) : Option Spill :=
  let save (data : Bag) : Store := s.store.upsertAttributes
    { nodeRunId := runId, nodeId, data, updatedAt := s.store.clock }
    fun a => { a with data, updatedAt := s.store.clock }
  let reapAfter := cfg.reapAfter s.store.clock
  if !s.store.mayUpsert runId then none
  else if cfg.shouldSpillBlob data.size then
    some { store := save [], handles := s.handles.put (.value, runId) (.bag data) reapAfter }
  else some { store := save data, handles := s.handles.assign (.value, runId) none reapAfter }

/-- `MergeDelta`; a nil delta only touches the row. -/
def mergeDelta (s : Spill) (runId : Id) (delta : Option Bag) : Option Spill :=
  match s.store.attributes? runId with
  | none => none
  | some row =>
    let change (f : NodeAttributes → NodeAttributes) : Spill := { s with
      store := { s.store with attributes := s.store.attributes.map fun a =>
        if a.nodeRunId = runId then { f a with updatedAt := s.store.clock } else a } }
    match delta with
    | none => some (change id)
    | some delta =>
      if (s.handles.ref (.value, runId)).isSome then
        match s.scanAttributeRow row with
        | .error _ => none
        | .ok prior => s.upsert cfg runId row.nodeId (prior.merge delta)
      else some (change fun a => { a with data := a.data.merge delta })

def setDispatchInputBag (s : Spill) (runId nodeId : Id) (bag : Bag) : Option Spill :=
  let store : Store := s.store.upsertAttributes
    { nodeRunId := runId, nodeId, dispatchInputBag := some bag, updatedAt := s.store.clock }
    fun a => { a with dispatchInputBag := some bag, updatedAt := s.store.clock }
  if !s.store.mayUpsert runId then none else some { s with store }

/-- `SnapshotBagForNewRun` with `CarryForwardBag`: a spilled bag is copied to a blob of its own. -/
def snapshotBagForNewRun (s : Spill) (newRunId nodeId runScopeId : Id) : Option Spill :=
  let insert (data dispatchBag : Bag) : Store := s.store.upsertAttributes
    { nodeRunId := newRunId, nodeId, data, dispatchInputBag := some dispatchBag
      updatedAt := s.store.clock } id
  if !s.store.mayUpsert newRunId then none
  else
    match s.store.latestAttributes? nodeId runScopeId fun r => r.id ≠ newRunId with
    | none => some { s with store := insert [] [] }
    | some prior =>
      match s.handles.ref (.value, prior.nodeRunId) with
      | none => some { s with store := insert prior.data prior.data }
      | some handle =>
        match s.handles.content handle with
        | none => some { s with store := insert [] [] }
        | some (.scratch _) => none
        | some (.bag bytes) =>
          let copied := s.handles.write (.bag bytes)
          -- a row that is already there is left alone
          if (s.store.attributes? newRunId).isSome then
            some { store := insert [] bytes, handles := copied }
          else some {
            store := insert [] bytes
            handles := { copied with
              ref := Function.update copied.ref (.value, newRunId) (some s.handles.next) } }

def writeScratch (s : Spill) (runId : Id) (scratch : String) : Option Spill :=
  let reapAfter := cfg.reapAfter s.store.clock
  if scratch = "" then some s
  else if (s.store.run? runId).isNone then none
  else if cfg.shouldSpillBlob scratch.utf8ByteSize then some {
    store := s.store.setScratch runId none
    handles := s.handles.put (.scratch, runId) (.scratch scratch) reapAfter }
  else some {
    store := s.store.setScratch runId (some scratch)
    handles := s.handles.assign (.scratch, runId) none reapAfter }

def insertRun (s : Spill) (row : NodeRun) : Option Spill :=
  if (s.store.run? row.id).isSome then none
  else some { s with store := { s.store with runs := s.store.runs ++ [row] } }

/-! ## Deleting -/

def deleteRows (s : Spill) (left : Store) (enrolled : List Nat) : Spill where
  store := left
  handles := s.handles.delete left.hasRow enrolled (cfg.reapAfter s.store.clock)

/-- Runs are deleted, and their own scratch handles are put into the ledger. -/
def enrollScratchOrphans (s : Spill) (ids : List Id) : Spill :=
  s.deleteRows cfg (s.store.deleteRuns ids) (ids.filterMap fun id => s.handles.ref (.scratch, id))

def deletePriorCascadeStales (s : Spill) (nodeId runScopeId : Id) (beforeSeq : Nat) : Spill :=
  s.enrollScratchOrphans cfg (s.store.cascadeStales nodeId runScopeId beforeSeq)

def dropPendingRun (s : Spill) (runId : Id) : Option Spill :=
  if (s.store.run? runId).any (·.state = .pending) then
    some (s.enrollScratchOrphans cfg [runId]) else none

def queuePrunedBlobHandles (s : Spill) (frameIds : List Id) : List Nat :=
  ((s.store.runs.filter fun r => frameIds.contains r.frameId).filterMap fun r =>
      s.handles.ref (.scratch, r.id)) ++
    (s.store.attributes.filter fun a => s.store.runs.any fun r =>
      r.id = a.nodeRunId && frameIds.contains r.frameId).filterMap fun a =>
        s.handles.ref (.value, a.nodeRunId)

def pruneTraceForRetention (s : Spill) (recentFramesKept : Nat) (cutoff : Option Nat) : Spill :=
  let frameIds := s.store.prunableFrames recentFramesKept cutoff
  s.deleteRows cfg (s.store.deleteFrames frameIds) (s.queuePrunedBlobHandles frameIds)

/--
`SweepOrphanedBlobs`: the orphans that are due; what a deletion does not do is left to a later
sweep.
-/
def sweepOrphanedBlobs (s : Spill) (now limit : Nat) (deletes forgets : Nat → Bool) : Spill :=
  let due := ((s.handles.orphans.filter (·.reapAfter ≤ now)).insertionSort fun o o' =>
    o.reapAfter ≤ o'.reapAfter).take (if limit = 0 then 100 else limit)
  let reapOne (h : Handles (HandleColumn × Id) Blob) (o : Orphan) :=
    h.reap o.handle (deletes o.handle) (forgets o.handle)
  { s with handles := due.foldl reapOne s.handles }

inductive Act where
  | upsert (runId nodeId : Id) (data : Bag)
  | mergeDelta (runId : Id) (delta : Option Bag)
  | setDispatchInputBag (runId nodeId : Id) (bag : Bag)
  | snapshotBagForNewRun (newRunId nodeId runScopeId : Id)
  | writeScratch (runId : Id) (scratch : String)
  | insertRun (row : NodeRun)
  | deletePriorCascadeStales (nodeId runScopeId : Id) (beforeSeq : Nat)
  | dropPendingRun (runId : Id)
  | pruneTraceForRetention (recentFramesKept : Nat) (cutoff : Option Nat)
  | sweepOrphanedBlobs (now limit : Nat) (deletes forgets : Nat → Bool)
  | proceed (change : Store → Store)

/-- An operation in a transaction of its own; nothing happens if it fails. -/
def next (s : Spill) : Act → Option Spill
  | .upsert runId nodeId data => s.upsert cfg runId nodeId data
  | .mergeDelta runId delta => s.mergeDelta cfg runId delta
  | .setDispatchInputBag runId nodeId bag => s.setDispatchInputBag runId nodeId bag
  | .snapshotBagForNewRun newRunId nodeId runScopeId =>
    s.snapshotBagForNewRun newRunId nodeId runScopeId
  | .writeScratch runId scratch => s.writeScratch cfg runId scratch
  | .insertRun row => s.insertRun row
  | .deletePriorCascadeStales nodeId runScopeId beforeSeq =>
    some (s.deletePriorCascadeStales cfg nodeId runScopeId beforeSeq)
  | .dropPendingRun runId => s.dropPendingRun cfg runId
  | .pruneTraceForRetention recentFramesKept cutoff =>
    some (s.pruneTraceForRetention cfg recentFramesKept cutoff)
  | .sweepOrphanedBlobs now limit deletes forgets =>
    some (s.sweepOrphanedBlobs now limit deletes forgets)
  | .proceed change => some { s with store := s.store.proceed change }

end Spill

end Rimsky
