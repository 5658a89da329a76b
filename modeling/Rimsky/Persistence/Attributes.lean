import Rimsky.Persistence.Store

/-!
# Attribute bags

`sqlite/node_attributes.go`: the bag of a run and the bag it was dispatched with.
-/

namespace Rimsky

open Transaction

namespace Store

def attributes? (s : Store) (nodeRunId : Id) : Option NodeAttributes :=
  s.attributes.find? (·.nodeRunId = nodeRunId)

def data? (s : Store) (nodeRunId : Id) : Option Bag := (s.attributes? nodeRunId).map (·.data)

def dispatchInputBag? (s : Store) (nodeRunId : Id) : Option Bag :=
  (s.attributes? nodeRunId).bind (·.dispatchInputBag)

def upsertAttributes (s : Store) (fresh : NodeAttributes)
    (change : NodeAttributes → NodeAttributes) : Store :=
  if s.attributes.any (·.nodeRunId = fresh.nodeRunId) then
    { s with attributes := s.attributes.map fun a =>
        if a.nodeRunId = fresh.nodeRunId then change a else a }
  else { s with attributes := s.attributes ++ [fresh] }

end Store

def bySequence (runs : List NodeRun) : List NodeRun :=
  runs.insertionSort fun r r' => r.sequence ≤ r'.sequence

/-- The row of the latest run of a node in a scope that fits and has a bag. -/
def Store.latestAttributes? (s : Store) (nodeId runScopeId : Id) (fits : NodeRun → Bool) :
    Option NodeAttributes :=
  ((bySequence <| s.runs.filter fun r =>
    r.nodeId = nodeId && r.runScopeId = runScopeId && fits r &&
      (s.attributes? r.id).isSome).getLast?).bind fun r => s.attributes? r.id

namespace NodeAttributes

def upsert (runId nodeId : Id) (data : Bag) : Tx Unit :=
  write fun s => s.upsertAttributes
    { nodeRunId := runId, nodeId, data, updatedAt := s.clock }
    fun a => { a with data, updatedAt := s.clock }

def setDispatchInputBag (runId nodeId : Id) (bag : Bag) : Tx Unit :=
  write fun s => s.upsertAttributes
    { nodeRunId := runId, nodeId, dispatchInputBag := some bag, updatedAt := s.clock }
    fun a => { a with dispatchInputBag := some bag, updatedAt := s.clock }

/-- `MergeDelta`; a nil delta only touches the row. -/
def mergeDelta (runId : Id) (delta : Option Bag) : Tx Unit := do
  if (← read (·.attributes? runId)).isNone then fail .notFound
  else write fun s => { s with attributes := s.attributes.map fun a =>
    if a.nodeRunId = runId then
      { a with data := a.data.merge (delta.getD []), updatedAt := s.clock }
    else a }

/-- `SnapshotBagForNewRun`: the bag of the previous run, as data and as dispatch bag. -/
def snapshotBagForNewRun (newRunId nodeId runScopeId : Id) : Tx Unit := do
  let prior ← read fun s => s.latestAttributes? nodeId runScopeId fun r => r.id ≠ newRunId
  let data := (prior.map (·.data)).getD []
  write fun s => s.upsertAttributes
    { nodeRunId := newRunId, nodeId, data, dispatchInputBag := some data, updatedAt := s.clock } id

def getPriorRunData (runId : Id) : Tx (Option Bag) :=
  read fun s =>
    (s.run? runId).bind fun cur =>
      (s.latestAttributes? cur.nodeId cur.runScopeId fun r =>
        r.sequence < cur.sequence).map (·.data)

end NodeAttributes

end Rimsky
