import Rimsky.Runtime.Acquire

/-!
# An acquisition that is rolled back

A try to acquire a run opens claims at their producers before its transaction is
committed. If it is rolled back, `abandonPartialLocks` queues an `Abandon` for the locks it
had taken. A lock that was taken over from before the try is among them as well, so the
two sets agree only where nothing is taken over; and a claim that was opened is among the
locks only if its row could be completed.
-/

namespace Rimsky

open Transaction List Store ClaimHandles Json

variable {s s' mid : Store} {runId start rowId : Id} {spec : ClaimSpec} {producerName : String}
  {specs : List LockRequest}

def Store.AbandonQueued (s : Store) (id : Id) : Prop :=
  ∃ row ∈ s.outbox, row.claimHandleId = id ∧ row.verb = .abandon

section Queue

open ProducerVerbOutbox

theorem enqueue_abandon {row : OutboxRow} (abandon : row.verb = .abandon) (s : Store) :
    ∃ s', enqueue row s = (.ok (), s') ∧
      ∀ id, s'.AbandonQueued id ↔ s.AbandonQueued id ∨ id = row.claimHandleId := by
  refine ⟨_, rfl, fun id => ?_⟩
  dsimp only
  split
  case isTrue queued =>
    rcases any_eq_true.mp queued with ⟨o, mem, same⟩
    simp only [abandon, Bool.and_eq_true, decide_eq_true_eq] at same
    refine ⟨.inl, fun either => either.elim (fun old => old) ?_⟩
    rintro rfl
    exact ⟨o, mem, same⟩
  case isFalse =>
    simp only [AbandonQueued, mem_append, mem_singleton, or_and_right, exists_or, exists_eq_left,
      abandon, and_true, eq_comm]

theorem enqueue_abandons {row : AcquiredLock → Nat → OutboxRow}
    (abandons : ∀ lk now,
      (row lk now).verb = .abandon ∧ (row lk now).claimHandleId = lk.claimHandleId)
    (locks : List AcquiredLock) (s : Store) :
    ∃ s', (locks.forM fun lk => read (·.clock) >>= fun now => enqueue (row lk now) : Tx Unit) s =
        (.ok (), s') ∧
      ∀ id, s'.AbandonQueued id ↔ s.AbandonQueued id ∨ id ∈ locks.map (·.claimHandleId) := by
  induction locks generalizing s with
  | nil => exact ⟨s, rfl, by simp⟩
  | cons lk rest ih =>
    rcases enqueue_abandon (abandons lk s.clock).1 s with ⟨mid, enqueued, queued⟩
    rcases ih mid with ⟨s', told, all⟩
    have first : (read (·.clock) >>= fun now => enqueue (row lk now) : Tx Unit) s = (.ok (), mid) :=
      enqueued
    refine ⟨s', (bind_of_ok first).trans told, fun id => ?_⟩
    rw [all, queued, (abandons lk s.clock).2, map_cons, mem_cons, or_assoc]

end Queue

def abandonedIds (locks : List AcquiredLock) : List Id :=
  (locks.filter (·.producer.isSome)).map (·.claimHandleId)

theorem abandonedIds_append (locks locks' : List AcquiredLock) :
    abandonedIds (locks ++ locks') = abandonedIds locks ++ abandonedIds locks' := by
  simp [abandonedIds]

/-- The producers of just the locks that count as abandoned are told, whatever is queued already. -/
theorem abandonPartialLocks_queues (args : RunArgs) (locks : List AcquiredLock) (s : Store)
    (id : Id) : (abandonPartialLocks args locks s).2.AbandonQueued id ↔
      s.AbandonQueued id ∨ id ∈ abandonedIds locks := by
  have abandoning : ∃ s', abandonPartialLocks args locks s = (.ok (), s') ∧
      ∀ id, s'.AbandonQueued id ↔ s.AbandonQueued id ∨ id ∈ abandonedIds locks :=
    enqueue_abandons (fun _ _ => ⟨rfl, rfl⟩) _ s
  rcases abandoning with ⟨s', abandoned, queued⟩
  rw [abandoned]
  exact queued id

/-- The handles whose producer answered an `Open` of the try as available. -/
def openedIds (args : RunArgs) (input : AcquireInput) (run : NodeRun) (s : Store) : List Id :=
  (tryAcquire args input run s).2.opens.drop s.opens.length

/--
A try that is not committed queues an `Abandon` for what it opened and nothing else. The rows are
queued after the rollback, in a store that other transactions may have changed.
-/
def AbandonsOpened (args : RunArgs) (input : AcquireInput) (run : NodeRun) (s : Store) : Prop :=
  match (tryAcquireWithTx args input run s).1 with
  | .acquired _ => True
  | result => ∀ (later : Store) (id : Id),
    (abandonPartialLocks args result.partialLocks later).2.AbandonQueued id ↔
      later.AbandonQueued id ∨ id ∈ openedIds args input run s

section Ids

variable {args : RunArgs} {input : AcquireInput} {run : NodeRun} {s : Store}

def AbandonsIds (args : RunArgs) (input : AcquireInput) (run : NodeRun) (s : Store) : Prop :=
  match (tryAcquireWithTx args input run s).1 with
  | .acquired _ => True
  | result => ∀ id, id ∈ abandonedIds result.partialLocks ↔ id ∈ openedIds args input run s

instance : Decidable (AbandonsIds args input run s) := by
  unfold AbandonsIds
  split
  · exact .isTrue trivial
  · exact decidable_of_iff
      ((∀ id ∈ abandonedIds _, id ∈ openedIds args input run s) ∧
        ∀ id ∈ openedIds args input run s, id ∈ abandonedIds _)
      ⟨fun h id => ⟨h.1 id, h.2 id⟩, fun h => ⟨fun id => (h id).mp, fun id => (h id).mpr⟩⟩

theorem abandonsOpened_iff_ids :
    AbandonsOpened args input run s ↔ AbandonsIds args input run s := by
  unfold AbandonsOpened AbandonsIds
  split
  · exact Iff.rfl
  · simp only [abandonPartialLocks_queues]
    constructor
    · intro queued id
      -- Into an empty outbox just the rows of the try are queued.
      simpa [AbandonQueued] using queued { s with outbox := [] } id
    · intro same later id
      rw [same id]

instance : Decidable (AbandonsOpened args input run s) :=
  decidable_of_iff' _ abandonsOpened_iff_ids

end Ids

/-- Once a producer has answered, the row is completed and the transaction committed. -/
structure Producers.RowUpdatesHold (producers : Producers) : Prop where
  address : ∀ id, producers.fault (.updateAddress id) = none
  claimScope : ∀ id, producers.fault (.updateClaimScope id) = none
  payload : ∀ id, producers.fault (.updatePayload id) = none
  realizedWriteSemantics : ∀ id, producers.fault (.updateRealizedWriteSemantics id) = none
  holder : ∀ id, producers.fault (.insertHolder id) = none
  commit : producers.fault .commit = none

def Store.ownHandleIds (s : Store) (runId : Id) : List Id :=
  (s.handlesByClaimedAt fun h => h.nodeRunId = some runId).map (·.id)

theorem mem_ownHandleIds {id : Id} :
    id ∈ s.ownHandleIds runId ↔ ∃ h ∈ s.claimHandles, h.nodeRunId = some runId ∧ h.id = id := by
  simp [ownHandleIds, handlesByClaimedAt, mem_insertionSort, and_assoc]

def Store.reusable (s : Store) (runId : Id) (taken : List Id) (producerName : String)
    (row : ClaimHandle) : Bool :=
  row.nodeRunId = some runId && row.state = .active && !taken.contains row.id &&
    row.lockKind = .claimScope && row.producerName = some producerName &&
    (row.parentClaimHandleId.isNone ||
      row.parentClaimHandleId.any fun parent => !(s.ownHandleIds runId).contains parent)

def Store.hasReusable (s : Store) (runId : Id) (taken : List Id) (producerName : String) : Bool :=
  s.claimHandles.any (s.reusable runId taken producerName)

/-- One of the claims, up to the first without a producer, takes over a handle of the run. -/
def Store.reuses (s : Store) (args : RunArgs) (runId : Id) : List LockRequest → Bool
  | [] => false
  | .named _ :: rest => s.reuses args runId rest
  | .claim spec :: rest => (args.resolveProducer spec.producerName).isSome &&
      (s.hasReusable runId [] spec.producerName || s.reuses args runId rest)

def Store.Attempted (s : Store) (args : RunArgs) (run : NodeRun) : Prop :=
  ∃ node, s.node? run.nodeId = some node ∧
    ((s.template? node.instanceId).bind (·.lookupNodeDef node.nodeType)).isSome ∧
    run.frameId ≠ 0 ∧ (Queue.claimDispatchRow run.id args.supervisorId s).1 = .ok true

structure Store.HandlesNumbered (s : Store) : Prop where
  distinct : (s.claimHandles.map (·.id)).Nodup
  known : ∀ h ∈ s.claimHandles, h.id < s.nextId
  parents : ∀ h ∈ s.claimHandles, ∀ parent, h.parentClaimHandleId = some parent → parent < s.nextId

def ClaimHandle.shape (h : ClaimHandle) : ClaimHandle := { h with expiresAt := 0 }

def Store.oldRows (s : Store) (start : Id) : List ClaimHandle :=
  (s.claimHandles.filter (·.id < start)).map (·.shape)

theorem mem_oldRows {shape : ClaimHandle} :
    shape ∈ s.oldRows start ↔ ∃ h ∈ s.claimHandles, h.id < start ∧ h.shape = shape := by
  simp [oldRows, and_assoc]

structure Within (start new : Id) (s s' : Store) : Prop where
  grows : s.nextId ≤ s'.nextId
  old : s'.oldRows start = s.oldRows start
  ids : ∀ h ∈ s'.claimHandles, (∃ h' ∈ s.claimHandles, h'.id = h.id) ∨ h.id = new

instance (start new : Id) : IsPreorder Store (Within start new) where
  refl s := ⟨Nat.le_refl _, rfl, fun h mem => .inl ⟨h, mem, rfl⟩⟩
  trans s t u first second := by
    refine ⟨Nat.le_trans first.grows second.grows, second.old.trans first.old, ?_⟩
    intro h mem
    rcases second.ids h mem with ⟨h', mem', same⟩ | added
    · rw [← same]
      exact first.ids h' mem'
    · exact .inr added

theorem Within.of_handles {new : Id} (grows : s.nextId ≤ s'.nextId)
    (same : s'.claimHandles = s.claimHandles) : Within start new s s' := by
  refine ⟨grows, ?_, ?_⟩
  · unfold oldRows
    rw [same]
  · intro h mem
    rw [same] at mem
    exact .inl ⟨h, mem, rfl⟩

theorem Within.of_map {new : Id} {change : ClaimHandle → ClaimHandle} (grows : s.nextId ≤ s'.nextId)
    (changed : s'.claimHandles = s.claimHandles.map change) (sameId : ∀ h, (change h).id = h.id)
    (sameShape : ∀ h, h.id < start → (change h).shape = h.shape) : Within start new s s' := by
  refine ⟨grows, ?_, ?_⟩
  · unfold oldRows
    rw [changed, filter_map, map_map]
    have sameOld : ((fun h : ClaimHandle => decide (h.id < start)) ∘ change) =
        fun h => decide (h.id < start) := by
      funext h
      simp [sameId]
    rw [sameOld]
    apply map_congr_left
    intro h mem
    apply sameShape
    simpa using (mem_filter.mp mem).2
  · intro h mem
    rw [changed] at mem
    rcases mem_map.mp mem with ⟨h', mem', rfl⟩
    exact .inl ⟨h', mem', (sameId h').symm⟩

section Statements

variable {start new : Id}

theorem within_insert (fresh : start ≤ new) {row : ClaimHandle} (rowId : row.id = new) :
    Steps (Within start new) (ClaimHandles.insert row) := by
  apply steps_write
  intro s
  refine ⟨Nat.le_refl _, ?_, ?_⟩
  · have young : ¬row.id < start := by
      rw [rowId]
      exact Nat.not_lt.mpr fresh
    simp [oldRows, young]
  · intro h mem
    rcases mem_append.mp mem with old | added
    · exact .inl ⟨h, old, rfl⟩
    · rw [mem_singleton.mp added]
      exact .inr rowId

theorem within_update (fresh : start ≤ new) {guard : ClaimHandle → Bool}
    {change : Nat → ClaimHandle → ClaimHandle} (sameId : ∀ now h, (change now h).id = h.id) :
    Steps (Within start new) (ClaimHandles.update new guard change) := by
  refine steps_reads fun rows => ?_
  refine steps_ite (fun _ => steps_write fun s => ?_) fun _ => steps_fail _
  refine Within.of_map (Nat.le_refl _) rfl (fun h => ?_) fun h old => ?_
  · split
    · exact sameId _ h
    · rfl
  · have other : ¬h.id = new := Nat.ne_of_lt (Nat.lt_of_lt_of_le old fresh)
    simp [other]

theorem within_renew (runId : Id) (expiry : Nat) :
    Steps (Within start new) (ClaimHandles.renewExpiryForHolderRun runId expiry) := by
  apply steps_write
  intro s
  refine Within.of_map (Nat.le_refl _) rfl (fun h => ?_) fun h old => ?_
  · split <;> rfl
  · split <;> rfl

theorem within_holder (claimHandleId runId : Id) :
    Steps (Within start new) (ClaimHolders.insert claimHandleId runId) := by
  refine steps_bind (fun s => Within.of_handles (Nat.le_succ _) rfl) fun id =>
    steps_write fun s => ?_
  apply Within.of_handles
  · split <;> exact Nat.le_refl _
  · split <;> rfl

variable {R : Store → Store → Prop}

variable [IsPreorder Store R]

theorem steps_checkpoint (producers : Producers) (step : AcquireStep) :
    Steps R (checkpoint producers step) := by
  unfold checkpoint
  split
  · exact steps_pure _
  · exact steps_fail _

theorem steps_checked (producers : Producers) (step : AcquireStep) {m : Tx Unit}
    (along : Steps R m) : Steps R (checked producers step m) :=
  steps_bind (steps_checkpoint producers step) fun _ => along

section Ask

variable {rowId : Id} (args : RunArgs) (producers : Producers) (run : NodeRun) (isHeld : Bool)
  (spec : ClaimSpec) (scope : Option RawMessage) (producer : String)
  (update : ∀ (guard : ClaimHandle → Bool) (change : Nat → ClaimHandle → ClaimHandle),
    (∀ now h, (change now h).id = h.id) → Steps R (ClaimHandles.update rowId guard change))
  (holder : Steps R (ClaimHolders.insert rowId run.id))

include update holder

theorem steps_recordOpened (result : ClaimResult) (semantics : String) :
    Steps R (recordOpened args producers run rowId isHeld scope result semantics) := by
  refine steps_bind (steps_checked _ _ (update _ _ fun _ _ => rfl)) fun _ => ?_
  refine steps_guarded (fun _ => steps_checked _ _ (update _ _ fun _ _ => rfl)) fun _ => ?_
  refine steps_guarded (fun _ => steps_checked _ _ (update _ _ fun _ _ => rfl)) fun _ => ?_
  refine steps_guarded (fun _ => steps_checked _ _ (update _ _ fun _ _ => rfl)) fun _ => ?_
  exact steps_ite (fun _ => steps_checked _ _ holder) fun _ => steps_pure _

theorem steps_askProducer (log : Steps R (logOpen rowId)) :
    Steps R (askProducer args producers run rowId isHeld spec scope producer) := by
  unfold askProducer
  split
  · exact steps_fail _
  · exact steps_pure _
  · exact steps_pure _
  · refine steps_bind log fun _ => ?_
    exact steps_bind (steps_recordOpened _ _ _ _ _ update holder _ _) fun _ => steps_pure _

end Ask

end Statements

def Store.owns (s : Store) (supervisorId : String) (rowId : Id) : Bool :=
  s.claimHandles.any fun h => h.id = rowId && ClaimHandles.claimant supervisorId h

section OneLock

variable {args : RunArgs} {producers : Producers} (run : NodeRun)

theorem checked_eq {step : AcquireStep} (clear : producers.fault step = none) (m : Tx Unit) :
    checked producers step m = m := by
  funext s
  simp only [checked, checkpoint, clear]
  rfl

theorem update_succeeds {change : Nat → ClaimHandle → ClaimHandle}
    (keeps : ∀ now h, (change now h).id = h.id ∧
      (change now h).holderSupervisorId = h.holderSupervisorId) :
    Succeeds (fun s => s.owns args.supervisorId rowId)
      (ClaimHandles.update rowId (ClaimHandles.claimant args.supervisorId) change) := by
  intro s owned
  have found : s.claimHandles.any (fun h =>
    h.id = rowId && claimant args.supervisorId h) := owned
  simp only [update, read_bind, found, ↓reduceIte, write_apply]
  refine ⟨_, rfl, ?_⟩
  rcases any_eq_true.mp found with ⟨h, mem, ours⟩
  rw [owns, any_eq_true]
  refine ⟨change s.clock h, mem_map.mpr ⟨h, mem, by simp only [ours, ↓reduceIte]⟩, ?_⟩
  simpa only [claimant, keeps s.clock h] using ours

theorem holder_succeeds (claimHandleId runId : Id) :
    Succeeds (fun s => s.owns args.supervisorId rowId)
      (ClaimHolders.insert claimHandleId runId) := by
  intro s owned
  refine ⟨_, rfl, ?_⟩
  beta_reduce
  split
  · exact owned
  · exact owned

theorem recordOpened_succeeds (holds : producers.RowUpdatesHold) (rowId : Id) (isHeld : Bool)
    (scope : Option RawMessage) (result : ClaimResult) (semantics : String) :
    Succeeds (fun s => s.owns args.supervisorId rowId)
      (recordOpened args producers run rowId isHeld scope result semantics) := by
  unfold recordOpened
  rw [checked_eq (holds.address rowId), checked_eq (holds.claimScope rowId),
    checked_eq (holds.payload rowId), checked_eq (holds.realizedWriteSemantics rowId),
    checked_eq (holds.holder rowId)]
  refine succeeds_bind (update_succeeds fun _ _ => ⟨rfl, rfl⟩) ?_
  refine succeeds_guarded (fun _ => update_succeeds fun _ _ => ⟨rfl, rfl⟩) ?_
  refine succeeds_guarded (fun _ => update_succeeds fun _ _ => ⟨rfl, rfl⟩) ?_
  refine succeeds_guarded (fun _ => update_succeeds fun _ _ => ⟨rfl, rfl⟩) ?_
  split
  · exact holder_succeeds rowId run.id
  · exact succeeds_pure

def OpensKept (s s' : Store) : Prop := s'.opens = s.opens

instance : IsPreorder Store OpensKept where
  refl _ := rfl
  trans _ _ _ first second := Eq.trans second first

theorem opensKept_update (rowId : Id) (guard : ClaimHandle → Bool)
    (change : Nat → ClaimHandle → ClaimHandle) :
    Steps OpensKept (ClaimHandles.update rowId guard change) :=
  steps_reads fun _ => steps_ite (fun _ => steps_write fun _ => rfl) fun _ => steps_fail _

theorem opensKept_insertHolder (claimHandleId runId : Id) :
    Steps OpensKept (ClaimHolders.insert claimHandleId runId) := by
  refine steps_bind (fun s => rfl) fun id => steps_write fun s => ?_
  split <;> rfl

section Ask

variable {rowId : Id} {isHeld : Bool} {spec : ClaimSpec} {scope : Option RawMessage}
  {producer : String} {s s' : Store} {result : Except StoreError OpenResult}

theorem askProducer_cases (holds : producers.RowUpdatesHold)
    (owned : s.owns args.supervisorId rowId)
    (asking : askProducer args producers run rowId isHeld spec scope producer s = (result, s')) :
    (∃ lock, result = .ok (.acquired lock) ∧ lock.claimHandleId = rowId ∧
      lock.producer = some producer ∧ s'.opens = s.opens ++ [rowId]) ∨
    ((∀ lock, result ≠ .ok (.acquired lock)) ∧ s'.opens = s.opens) := by
  unfold askProducer at asking
  cases answer : producers.openClaim rowId spec with
  | broken | faulted | unavailable =>
    simp only [answer] at asking
    cases asking
    exact .inr ⟨by simp, rfl⟩
  | available claim semantics =>
    have logged : owns { s with opens := s.opens ++ [rowId] } args.supervisorId rowId := owned
    rcases recordOpened_succeeds run holds rowId isHeld scope claim semantics _ logged with
      ⟨recorded, recording, -⟩
    have kept := steps_recordOpened (R := OpensKept) args producers run isHeld scope
      (fun guard change _ => opensKept_update rowId guard change)
      (opensKept_insertHolder rowId run.id) claim semantics { s with opens := s.opens ++ [rowId] }
    rw [recording] at kept
    simp only [answer, logOpen, write_bind, bind_of_ok recording, pure_apply] at asking
    cases asking
    exact .inl ⟨_, rfl, rfl, rfl, kept⟩

end Ask

/-- Since the try began, old rows only had their expiry renewed, and new rows became locks. -/
structure Taken (start : Id) (s₀ s : Store) (acquired : List AcquiredLock) : Prop where
  fresh : start ≤ s.nextId
  old : s.oldRows start = s₀.oldRows start
  new : ∀ h ∈ s.claimHandles, start ≤ h.id → h.id ∈ acquired.map (·.claimHandleId)

theorem Taken.lock {s₀ : Store} {acquired : List AcquiredLock} (taken : Taken start s₀ s acquired)
    {lock : AcquiredLock} (within : Within start lock.claimHandleId s s') :
    Taken start s₀ s' (acquired ++ [lock]) := by
  refine ⟨Nat.le_trans taken.fresh within.grows, within.old.trans taken.old, ?_⟩
  intro h mem young
  rw [map_append, mem_append]
  rcases within.ids h mem with ⟨h', mem', same⟩ | added
  · left
    rw [← same] at young ⊢
    exact taken.new h' mem' young
  · right
    simp [added]

/--
A lock that was asked for is new, and an `Open` of it was answered if a producer has it; or it was
taken over, which is possible only if `reuse` holds, and nothing was opened.
-/
def LockOutcome (start : Id) (s₀ : Store) (acquired : List AcquiredLock) (reuse : Prop) (s : Store)
    (out : Except StoreError OpenResult × Store) : Prop :=
  match out.1 with
  | .ok (.acquired lock) => Taken start s₀ out.2 (acquired ++ [lock]) ∧
      (out.2.opens = s.opens ++ abandonedIds [lock] ∧ (∀ id ∈ abandonedIds [lock], start ≤ id) ∨
        out.2.opens = s.opens ∧ reuse)
  | _ => out.2.opens = s.opens

theorem lockOutcome_iff {s₀ : Store} {acquired : List AcquiredLock} {reuse : Prop}
    {out : Except StoreError OpenResult × Store} (noLock : ∀ lock, out.1 ≠ .ok (.acquired lock)) :
    LockOutcome start s₀ acquired reuse s out ↔ out.2.opens = s.opens := by
  unfold LockOutcome
  split
  case h_1 lock result => exact (noLock lock result).elim
  case h_2 => rfl

def Store.retained (s : Store) (runId : Id) (taken : List Id) (producerName : String) :
    List ClaimHandle :=
  ((s.handlesByClaimedAt fun h => h.nodeRunId = some runId).filter fun row =>
    row.state = .active && !taken.contains row.id).filter fun row =>
      row.lockKind = .claimScope && row.parentClaimHandleId.isNone &&
        row.producerName = some producerName

/-- The handle that `reuseHeldRunClaim` takes over of those the run kept. -/
def chosenRow (producers : Producers) (spec : ClaimSpec) (scope : Option RawMessage)
    (rows : List ClaimHandle) : Option ClaimHandle :=
  (rows.find? (·.scopeBytes = RawMessage.bytes scope)).or
    (pickScopeMatch producers spec.producerName scope rows)

/-- The handle that `reuseLinkedSubClaim` takes over. -/
def Store.linked? (s : Store) (runId : Id) (taken : List Id) (producerName : String) :
    Option ClaimHandle :=
  ((s.handlesByClaimedAt fun h => h.nodeRunId = some runId).filter fun row =>
    row.state = .active && !taken.contains row.id).find? fun row =>
      row.parentClaimHandleId.any (fun parent =>
          !(s.ownHandleIds runId).contains parent) &&
        row.lockKind = .claimScope && row.producerName = some producerName

def Store.renewed (s : Store) (runId : Id) (expiry : Nat) : Store :=
  { s with claimHandles := s.claimHandles.map fun h =>
      if h.nodeRunId = some runId && h.state = .active then { h with expiresAt := expiry } else h }

theorem reusableHandles_apply (acquired : List AcquiredLock) (s : Store) :
    reusableHandles run.id acquired s =
      (.ok ((s.handlesByClaimedAt fun h => h.nodeRunId = some run.id).filter fun row =>
        row.state = .active && !(acquired.map (·.claimHandleId)).contains row.id), s) := rfl

theorem reuseHeldRunClaim_eq (producers : Producers) (spec : ClaimSpec) (scope : Option RawMessage)
    (producer : String) (acquired : List AcquiredLock) (s : Store) :
    reuseHeldRunClaim producers run spec scope producer acquired s =
      match chosenRow producers spec scope
        (s.retained run.id (acquired.map (·.claimHandleId)) spec.producerName) with
      | none => (.ok none, s)
      | some row => (.ok (some (row.reused spec producer "")),
          s.renewed run.id (claimExpiry producers s.clock)) := by
  unfold reuseHeldRunClaim chosenRow retained
  rw [bind_of_ok (reusableHandles_apply run acquired s)]
  split
  case h_1 choice =>
    simp only [choice, pure_apply]
  case h_2 row choice =>
    simp only [choice]
    rfl

theorem reuseLinkedSubClaim_eq (producers : Producers) (spec : ClaimSpec) (producer : String)
    (acquired : List AcquiredLock) (s : Store) :
    reuseLinkedSubClaim producers run spec producer acquired s =
      match s.linked? run.id (acquired.map (·.claimHandleId)) spec.producerName with
      | none => (.ok none, s)
      | some row => (.ok (some (row.reused spec producer row.producerLeaseToken)),
          s.renewed run.id (claimExpiry producers s.clock)) := by
  unfold reuseLinkedSubClaim listByNodeRun linked? ownHandleIds
  rw [read_bind, bind_of_ok (reusableHandles_apply run acquired s)]
  split
  case h_1 choice =>
    simp only [choice, pure_apply]
  case h_2 row choice =>
    simp only [choice]
    rfl

theorem reuseHeldNamedLock_cases (producers : Producers) (name : String)
    (acquired : List AcquiredLock) (s : Store) :
    reuseHeldNamedLock producers run name acquired s = (.ok none, s) ∨
    ∃ row ∈ s.claimHandles, row.id ∉ acquired.map (·.claimHandleId) ∧ row.lockKind = .named ∧
      reuseHeldNamedLock producers run name acquired s =
        (.ok (some { claimHandleId := row.id, spec := .named name }),
          s.renewed run.id (claimExpiry producers s.clock)) := by
  unfold reuseHeldNamedLock
  rw [bind_of_ok (reusableHandles_apply run acquired s)]
  cases choice : find? _ _ with
  | none =>
    left
    rfl
  | some row =>
    right
    have mem := mem_of_find?_eq_some choice
    have named := find?_some choice
    simp only [handlesByClaimedAt, mem_filter, mem_insertionSort, Bool.and_eq_true,
      Bool.not_eq_true', contains_eq_mem, decide_eq_false_iff_not] at mem
    simp only [Bool.and_eq_true, decide_eq_true_eq] at named
    exact ⟨row, mem.1.1, mem.2.2, named.1, rfl⟩

theorem acquireNamedLock_cases (args : RunArgs) (producers : Producers) (name : String)
    (s : Store) :
    acquireNamedLock args producers run name s = (.ok none, s) ∨
    ∃ s', acquireNamedLock args producers run name s =
        (.ok (some { claimHandleId := s.nextId, spec := .named name }), s') ∧
      s'.opens = s.opens ∧ ∀ start ≤ s.nextId, Within start s.nextId s s' := by
  unfold acquireNamedLock countByNamedLock
  rw [read_bind]
  split
  case isTrue =>
    left
    rfl
  case isFalse =>
    right
    refine ⟨_, rfl, rfl, fun start fresh => ?_⟩
    have numbered : Within start s.nextId s { s with nextId := s.nextId + 1 } :=
      Within.of_handles (Nat.le_succ _) rfl
    exact IsTrans.trans _ _ _ numbered (within_insert fresh rfl _)

section Reusable

variable {s : Store} {runId : Id} {taken : List Id} {producerName : String} {row : ClaimHandle}

theorem free_of_reusable (reusable : s.reusable runId taken producerName row) : row.id ∉ taken := by
  simp only [Store.reusable, Bool.and_eq_true, Bool.not_eq_true', contains_eq_mem,
    decide_eq_false_iff_not] at reusable
  exact reusable.1.1.1.2

theorem mem_retained : row ∈ s.retained runId taken producerName ↔
    row ∈ s.claimHandles ∧ s.reusable runId taken producerName row ∧
      row.parentClaimHandleId = none := by
  simp only [retained, handlesByClaimedAt, reusable, mem_filter,
    mem_insertionSort, Bool.and_eq_true, Bool.or_eq_true, decide_eq_true_eq,
    Option.isNone_iff_eq_none]
  tauto

theorem linked?_reusable (found : s.linked? runId taken producerName = some row) :
    row ∈ s.claimHandles ∧ s.reusable runId taken producerName row := by
  have mem := mem_of_find?_eq_some found
  have fits := find?_some found
  simp only [mem_filter, handlesByClaimedAt, mem_insertionSort, Bool.and_eq_true,
    decide_eq_true_eq] at mem
  simp only [Bool.and_eq_true, decide_eq_true_eq] at fits
  simp only [reusable, Bool.and_eq_true, decide_eq_true_eq, Bool.or_eq_true]
  rcases mem with ⟨⟨mem, ofRun⟩, active, free⟩
  rcases fits with ⟨⟨notOwn, claim⟩, producer⟩
  exact ⟨mem, ⟨⟨⟨⟨ofRun, active⟩, free⟩, claim⟩, producer⟩, .inr notOwn⟩

theorem linked?_isSome (mem : row ∈ s.claimHandles)
    (reusable : s.reusable runId taken producerName row)
    (hasParent : row.parentClaimHandleId.isSome) :
    (s.linked? runId taken producerName).isSome := by
  simp only [Store.reusable, Bool.and_eq_true, decide_eq_true_eq, Bool.or_eq_true] at reusable
  rcases reusable with ⟨⟨⟨⟨⟨ofRun, active⟩, free⟩, claim⟩, producer⟩, noParent | notOwn⟩
  · rw [Option.isNone_iff_eq_none.mp noParent] at hasParent
    simp at hasParent
  · simp only [Store.linked?, find?_isSome, mem_filter, Store.handlesByClaimedAt,
      mem_insertionSort, Bool.and_eq_true, decide_eq_true_eq]
    exact ⟨row, ⟨⟨mem, ofRun⟩, active, free⟩, ⟨notOwn, claim⟩, producer⟩

theorem mem_of_chosenRow {producers : Producers} {scope : Option RawMessage}
    {rows : List ClaimHandle} (chosen : chosenRow producers spec scope rows = some row) :
    row ∈ rows := by
  rcases Option.or_eq_some_iff.mp chosen with same | ⟨-, picked⟩
  · exact mem_of_find?_eq_some same
  · unfold pickScopeMatch at picked
    split at picked
    · cases picked
    · cases picked
      exact mem_singleton_self _
    · exact mem_of_find?_eq_some picked

end Reusable

/-- A claim takes over a handle the run may reuse, or its conflicts decide whether it is opened. -/
theorem acquireClaim_cases (producers : Producers) (nodeType : String)
    (heldSubgraphs : List HoldingSubgraph) (acquired : List AcquiredLock) {producer : String}
    (resolved : args.resolveProducer spec.producerName = some producer) (s : Store) :
    (∃ row token, row ∈ s.claimHandles ∧
      s.reusable run.id (acquired.map (·.claimHandleId)) spec.producerName row ∧
      acquireClaim args producers run nodeType heldSubgraphs acquired spec s =
        (.ok (.acquired (row.reused spec producer token)),
          s.renewed run.id (claimExpiry producers s.clock))) ∨
    ∃ scope,
      chosenRow producers spec scope
        (s.retained run.id (acquired.map (·.claimHandleId)) spec.producerName) = none ∧
      s.linked? run.id (acquired.map (·.claimHandleId)) spec.producerName = none ∧
      acquireClaim args producers run nodeType heldSubgraphs acquired spec s =
        (evaluateClaimScopeConflict producers run spec scope >>= fun verdict =>
          if verdict.1 then pure (if verdict.2 then .unavailable "" else .bail)
          else openNewClaim args producers run nodeType heldSubgraphs spec scope producer) s := by
  let scope := some (Json.raw (str spec.selector))
  have held := reuseHeldRunClaim_eq run producers spec scope producer acquired s
  have linked := reuseLinkedSubClaim_eq run producers spec producer acquired s
  simp only [acquireClaim, resolved]
  cases chosen : chosenRow producers spec scope
    (s.retained run.id (acquired.map (·.claimHandleId)) spec.producerName) with
  | some row =>
    rw [chosen] at held
    rw [bind_of_ok held]
    rcases mem_retained.mp (mem_of_chosenRow chosen) with ⟨mem, reusable, -⟩
    exact .inl ⟨row, "", mem, reusable, rfl⟩
  | none =>
    rw [chosen] at held
    rw [bind_of_ok held]
    cases found : s.linked? run.id (acquired.map (·.claimHandleId)) spec.producerName with
    | some row =>
      rw [found] at linked
      simp only [bind_of_ok linked]
      exact .inl ⟨row, _, (linked?_reusable found).1, (linked?_reusable found).2, rfl⟩
    | none =>
      rw [found] at linked
      simp only [bind_of_ok linked]
      exact .inr ⟨scope, chosen, trivial, rfl⟩

theorem reads_evaluateClaimScopeConflict (producers : Producers) (spec : ClaimSpec)
    (scope : Option RawMessage) :
    Steps Eq (evaluateClaimScopeConflict producers run spec scope) := by
  refine steps_reads fun rows => ?_
  exact steps_bind (steps_mapM fun h _ => steps_need _ _) fun verdicts => steps_pure _

section Lock

variable {start : Id} {s₀ s : Store} {acquired : List AcquiredLock}
  (taken : Taken start s₀ s acquired) {nodeType : String} {heldSubgraphs : List HoldingSubgraph}
  {reuse : Prop}

include taken

theorem openNewClaim_outcome (holds : producers.RowUpdatesHold) (spec : ClaimSpec)
    (scope : Option RawMessage) (producer : String) : LockOutcome start s₀ acquired reuse s
      (openNewClaim args producers run nodeType heldSubgraphs spec scope producer s) := by
  simp only [openNewClaim, newId_bind, read_bind]
  cases fault : producers.fault (.insertHandle s.nextId) with
  | some text =>
    simp only [checked, checkpoint, fault, bind_apply, fail_apply]
    exact (lockOutcome_iff (by simp)).mpr rfl
  | none =>
    simp only [checked_eq fault, ClaimHandles.insert, write_bind]
    generalize inserting : ({ s with nextId := _, claimHandles := _ } : Store) = s₁
    have owned : s₁.owns args.supervisorId s.nextId := by
      rw [← inserting]
      simp [owns, ClaimHandles.claimant]
    have sameOpens : s₁.opens = s.opens := by rw [← inserting]
    have within : Within start s.nextId s s₁ := by
      rw [← inserting]
      have numbered : Within start s.nextId s { s with nextId := s.nextId + 1 } :=
        Within.of_handles (Nat.le_succ _) rfl
      exact IsTrans.trans _ _ _ numbered (within_insert taken.fresh rfl _)
    generalize asking : askProducer args producers run s.nextId
      (isAliasHeld heldSubgraphs nodeType spec.claimAlias) spec scope producer s₁ = out
    have along : Within start s.nextId s₁ out.2 := by
      rw [← asking]
      refine steps_askProducer args producers run _ spec scope producer
        (fun _ _ sameId => within_update taken.fresh sameId) (within_holder _ run.id)
        (steps_write fun s => ?_) s₁
      exact Within.of_handles (Nat.le_refl _) rfl
    rcases askProducer_cases run holds owned asking with
      ⟨lock, result, lockId, lockProducer, opened⟩ | ⟨noLock, kept⟩
    · unfold LockOutcome
      rw [result]
      refine ⟨taken.lock ?_, .inl ?_⟩
      · rw [lockId]
        exact IsTrans.trans _ _ _ within along
      · rw [opened, sameOpens]
        simp [abandonedIds, lockProducer, lockId, taken.fresh]
    · exact (lockOutcome_iff noLock).mpr (kept.trans sameOpens)

theorem acquireNamed_outcome (name : String) : LockOutcome start s₀ acquired reuse s
    (acquireOneLock args producers run nodeType heldSubgraphs acquired (.named name) s) := by
  rcases reuseHeldNamedLock_cases run producers name acquired s with none | ⟨row, -, -, -, reused⟩
  · rcases acquireNamedLock_cases run args producers name s with
      refused | ⟨s', locked, kept, within⟩
    · simp only [acquireOneLock, bind_of_ok none, bind_of_ok refused]
      exact (lockOutcome_iff (by simp)).mpr rfl
    · simp only [acquireOneLock, bind_of_ok none, bind_of_ok locked]
      refine ⟨taken.lock (within start taken.fresh), .inl ?_⟩
      simp [abandonedIds, kept]
  · simp only [acquireOneLock, bind_of_ok reused]
    refine ⟨taken.lock (within_renew run.id _ s), .inl ?_⟩
    simp [abandonedIds, renewed]

theorem acquireClaim_outcome (holds : producers.RowUpdatesHold) :
    LockOutcome start s₀ acquired ((args.resolveProducer spec.producerName).isSome ∧
        s.hasReusable run.id (acquired.map (·.claimHandleId)) spec.producerName) s
      (acquireClaim args producers run nodeType heldSubgraphs acquired spec s) := by
  cases resolved : args.resolveProducer spec.producerName with
  | none =>
    simp only [acquireClaim, resolved]
    exact (lockOutcome_iff (by simp)).mpr rfl
  | some producer =>
    rcases acquireClaim_cases run producers nodeType heldSubgraphs acquired resolved s with
      ⟨row, token, mem, reusable, reused⟩ | ⟨scope, -, -, opening⟩
    · rw [reused]
      refine ⟨taken.lock (within_renew run.id _ s), .inr ⟨rfl, rfl, ?_⟩⟩
      exact any_eq_true.mpr ⟨row, mem, reusable⟩
    · have reads := reads_evaluateClaimScopeConflict run producers spec scope s
      rw [opening, bind_apply]
      split
      case h_1 verdict mid evaluated =>
        rw [evaluated] at reads
        cases reads
        split
        · exact (lockOutcome_iff (by split <;> simp)).mpr rfl
        · exact openNewClaim_outcome run taken holds spec scope producer
      case h_2 e mid evaluated =>
        rw [evaluated] at reads
        cases reads
        exact (lockOutcome_iff (by simp)).mpr rfl

/-- A lock can be taken over from before only for a claim whose producer is known. -/
theorem acquireOneLock_outcome (holds : producers.RowUpdatesHold) (request : LockRequest) :
    LockOutcome start s₀ acquired (∃ spec, request = .claim spec ∧
        (args.resolveProducer spec.producerName).isSome ∧
        s.hasReusable run.id (acquired.map (·.claimHandleId)) spec.producerName) s
      (acquireOneLock args producers run nodeType heldSubgraphs acquired request s) := by
  cases request with
  | named name => exact acquireNamed_outcome run taken name
  | claim spec => simpa [acquireOneLock] using acquireClaim_outcome run taken holds

end Lock

end OneLock

section Loop

variable {args : RunArgs} {producers : Producers} (run : NodeRun) {s₀ s : Store}
  {acquired : List AcquiredLock} {nodeType : String} {heldSubgraphs : List HoldingSubgraph}

section

variable (taken : Taken s₀.nextId s₀ s acquired)

include taken

theorem Taken.row_of_lt {row : ClaimHandle} (mem : row ∈ s.claimHandles)
    (old : row.id < s₀.nextId) :
    ∃ row₀ ∈ s₀.claimHandles, row₀.shape = row.shape := by
  have shaped : row.shape ∈ s₀.oldRows s₀.nextId := by
    rw [← taken.old]
    exact mem_oldRows.mpr ⟨row, mem, old, rfl⟩
  rcases mem_oldRows.mp shaped with ⟨row₀, mem₀, -, same⟩
  exact ⟨row₀, mem₀, same⟩

theorem Taken.row {row : ClaimHandle} (mem : row ∈ s.claimHandles)
    (free : row.id ∉ acquired.map (·.claimHandleId)) :
    ∃ row₀ ∈ s₀.claimHandles, row₀.shape = row.shape := by
  refine taken.row_of_lt mem (Nat.lt_of_not_le fun young => ?_)
  exact free (taken.new row mem young)

theorem Taken.row_of_old (numbered : s₀.HandlesNumbered) {row₀ : ClaimHandle}
    (mem₀ : row₀ ∈ s₀.claimHandles) :
    ∃ row ∈ s.claimHandles, row.shape = row₀.shape := by
  have shaped : row₀.shape ∈ s.oldRows s₀.nextId := by
    rw [taken.old]
    exact mem_oldRows.mpr ⟨row₀, mem₀, numbered.known row₀ mem₀, rfl⟩
  rcases mem_oldRows.mp shaped with ⟨row, mem, -, same⟩
  exact ⟨row, mem, same⟩

end

theorem reusable_transfer {taken taken' : List Id} {row row' : ClaimHandle}
    (same : row'.shape = row.shape) (free : row'.id ∉ taken')
    (own : ∀ parent, row.parentClaimHandleId = some parent → parent ∈ s'.ownHandleIds runId →
      parent ∈ s.ownHandleIds runId) (reusable : s.reusable runId taken producerName row) :
    s'.reusable runId taken' producerName row' := by
  have sameRun : row'.nodeRunId = row.nodeRunId := congrArg (·.nodeRunId) same
  have sameState : row'.state = row.state := congrArg (·.state) same
  have sameKind : row'.lockKind = row.lockKind := congrArg (·.lockKind) same
  have sameProducer : row'.producerName = row.producerName := congrArg (·.producerName) same
  have sameParent : row'.parentClaimHandleId = row.parentClaimHandleId :=
    congrArg (·.parentClaimHandleId) same
  simp only [Store.reusable, Bool.and_eq_true, decide_eq_true_eq, Bool.or_eq_true,
    Option.any_eq_true, Bool.not_eq_true', contains_eq_mem, decide_eq_false_iff_not]
    at reusable ⊢
  rcases reusable with ⟨⟨⟨⟨⟨ofRun, active⟩, -⟩, claim⟩, producer⟩, parent⟩
  rw [sameRun, sameState, sameKind, sameProducer, sameParent]
  refine ⟨⟨⟨⟨⟨ofRun, active⟩, free⟩, claim⟩, producer⟩, ?_⟩
  rcases parent with noParent | ⟨parent, isParent, notOwn⟩
  · exact .inl noParent
  · exact .inr ⟨parent, isParent, fun owned => notOwn (own parent isParent owned)⟩

theorem Taken.nothing_reusable (taken : Taken s₀.nextId s₀ s acquired)
    (numbered : s₀.HandlesNumbered) (nothing : s₀.hasReusable runId [] producerName = false) :
    s.hasReusable runId (acquired.map (·.claimHandleId)) producerName = false := by
  rw [hasReusable, any_eq_false]
  intro row mem reusable
  rcases taken.row mem (free_of_reusable reusable) with ⟨row₀, mem₀, same⟩
  refine any_eq_false.mp nothing row₀ mem₀ (reusable_transfer same (by simp) ?_ reusable)
  intro parent _ owned
  rcases mem_ownHandleIds.mp owned with ⟨owner₀, ownerMem, ofRun, ownerId⟩
  rcases taken.row_of_old numbered ownerMem with ⟨owner, ownerMem, sameOwner⟩
  refine mem_ownHandleIds.mpr ⟨owner, ownerMem, ?_, ?_⟩
  · exact (congrArg (·.nodeRunId) sameOwner).trans ofRun
  · exact (congrArg (·.id) sameOwner).trans ownerId

def locksTaken : Except RefusedLocks (List AcquiredLock) → List AcquiredLock
  | .ok locks => locks
  | .error (_, locks) => locks

theorem nothing_later {request : LockRequest} {rest : List LockRequest}
    (nothing : s₀.reuses args run.id (request :: rest) = false) {lock : AcquiredLock}
    (locked : acquireOneLock args producers run nodeType heldSubgraphs acquired request s =
      (.ok (.acquired lock), s')) : s₀.reuses args run.id rest = false := by
  cases request with
  | named name => exact nothing
  | claim spec =>
    cases resolved : args.resolveProducer spec.producerName with
    | none =>
      simp only [acquireOneLock, acquireClaim, resolved] at locked
      cases locked
    | some producer =>
      rw [reuses, resolved, Option.isSome_some, Bool.true_and, Bool.or_eq_false_iff] at nothing
      exact nothing.2

section

variable (producers : Producers) (nodeType : String) (heldSubgraphs : List HoldingSubgraph)
  (acquired : List AcquiredLock)

theorem acquireLocks_cons (request : LockRequest) (rest : List LockRequest) (s : Store) :
    (∃ lock mid, acquireOneLock args producers run nodeType heldSubgraphs acquired request s =
        (.ok (.acquired lock), mid) ∧
      acquireLocks args producers run nodeType heldSubgraphs (request :: rest) acquired s =
        acquireLocks args producers run nodeType heldSubgraphs rest (acquired ++ [lock]) mid) ∨
    ∃ refusal,
      (∀ lock, (acquireOneLock args producers run nodeType heldSubgraphs acquired request s).1 ≠
        .ok (.acquired lock)) ∧
      acquireLocks args producers run nodeType heldSubgraphs (request :: rest) acquired s =
        (.ok (.error (refusal, acquired)),
          (acquireOneLock args producers run nodeType heldSubgraphs acquired request s).2) := by
  simp only [acquireLocks, bind_apply, attempt_apply]
  rcases acquireOneLock args producers run nodeType heldSubgraphs acquired request s with
    ⟨result, mid⟩
  rcases result with e | ⟨lock⟩ | _ | _ | _
  case ok.acquired => exact .inl ⟨lock, mid, rfl, rfl⟩
  all_goals exact .inr ⟨_, by simp, rfl⟩

theorem acquireLocks_extends (specs : List LockRequest) (s : Store) :
    ∃ result s', acquireLocks args producers run nodeType heldSubgraphs specs acquired s =
      (.ok result, s') ∧ acquired <+: locksTaken result := by
  induction specs generalizing acquired s with
  | nil => exact ⟨_, _, rfl, prefix_rfl⟩
  | cons request rest ih =>
    rcases acquireLocks_cons run producers nodeType heldSubgraphs acquired request rest s with
      ⟨lock, mid, -, later⟩ | ⟨refusal, -, refused⟩
    · rcases ih (acquired ++ [lock]) mid with ⟨result, s', rest, kept⟩
      exact ⟨result, s', later.trans rest, (prefix_append _ _).trans kept⟩
    · exact ⟨_, _, refused, prefix_rfl⟩

end

/-- What is opened is new, and it is what the locks count as abandoned if nothing is taken over. -/
theorem acquireLocks_opens (nodeType : String) (heldSubgraphs : List HoldingSubgraph)
    (specs : List LockRequest) (holds : producers.RowUpdatesHold) (numbered : s₀.HandlesNumbered)
    (taken : Taken s₀.nextId s₀ s acquired) {opened : List Id}
    (opens : s.opens = s₀.opens ++ opened) (young : ∀ id ∈ opened, s₀.nextId ≤ id) :
    ∃ result s' new, acquireLocks args producers run nodeType heldSubgraphs specs acquired s =
      (.ok result, s') ∧ s'.opens = s₀.opens ++ new ∧ (∀ id ∈ new, s₀.nextId ≤ id) ∧
      (s₀.reuses args run.id specs = false → opened = abandonedIds acquired →
        new = abandonedIds (locksTaken result)) := by
  induction specs generalizing s acquired opened with
  | nil => exact ⟨_, _, opened, rfl, opens, young, fun _ same => same⟩
  | cons request rest ih =>
    have outcome : LockOutcome s₀.nextId s₀ acquired _ s
        (acquireOneLock args producers run nodeType heldSubgraphs acquired request s) :=
      acquireOneLock_outcome run taken holds request
    rcases acquireLocks_cons run producers nodeType heldSubgraphs acquired request rest s with
      ⟨lock, mid, locking, later⟩ | ⟨refusal, noLock, refused⟩
    · rw [locking] at outcome
      rw [later]
      rcases outcome with ⟨taken', ⟨adds, new⟩ | ⟨kept, spec, rfl, resolved, something⟩⟩
      · have opens' : mid.opens = s₀.opens ++ (opened ++ abandonedIds [lock]) := by
          rw [adds, opens, append_assoc]
        have young' : ∀ id ∈ opened ++ abandonedIds [lock], s₀.nextId ≤ id := by
          intro id mem
          exact (mem_append.mp mem).elim (young id) (new id)
        rcases ih taken' opens' young' with ⟨result, s', new, locked, opens, young, agree⟩
        refine ⟨result, s', new, locked, opens, young, fun nothing same => ?_⟩
        exact agree (nothing_later run nothing locking) (by rw [same, abandonedIds_append])
      · rcases ih taken' (kept.trans opens) young with ⟨result, s', new, locked, opens, young, -⟩
        refine ⟨result, s', new, locked, opens, young, fun nothing _ => ?_⟩
        -- A handle that can be taken over now could be when the try began.
        rw [reuses, resolved, Bool.true_and, Bool.or_eq_false_iff] at nothing
        have none := taken.nothing_reusable numbered nothing.1
        rw [none] at something
        cases something
    · refine ⟨_, _, opened, refused, ?_, young, fun _ same => same⟩
      exact ((lockOutcome_iff noLock).mp outcome).trans opens

end Loop

section Finish

variable {args : RunArgs} {input : AcquireInput} {run : NodeRun} {acq : Acquisition}
  {spec : Option TemplateSpec}

theorem orRefuse_ok {α : Type} {m : Tx α} {a : α} (done : m s = (.ok a, s')) :
    orRefuse acq m s = (.ok (.ok a), s') := by
  simp [orRefuse, bind_apply, done]

theorem orRefuse_error {α : Type} {m : Tx α} {e : StoreError} (failed : m s = (.error e, s')) :
    orRefuse acq m s =
      (.ok (.error { acq, refusal := .failed e, partialLocks := acq.locks }), s') := by
  simp [orRefuse, bind_apply, failed]

theorem opensKept_acquireSubClaim (producers : Producers) (parent : FanOutParentClaim)
    (intent : Intent) (taken : List (Option RawMessage)) (desc : SubClaimScope) :
    Steps OpensKept (acquireSubClaim args producers run parent intent taken desc) := by
  have candidate : ∀ subId, Steps OpensKept (beginCandidate producers
      parent.producerName subId) := by
    intro subId
    unfold beginCandidate
    split
    · exact steps_pure _
    · split
      · exact steps_pure _
      · exact steps_fail _
  refine steps_check fun _ => steps_check fun _ => ?_
  refine steps_bind (fun s => rfl) fun subId => steps_reads fun now => ?_
  refine steps_bind (candidate subId) fun _ => steps_bind (steps_write fun s => rfl) fun _ => ?_
  exact steps_bind (opensKept_update _ _ _) fun _ => steps_pure _

theorem opensKept_acquireSubClaims (producers : Producers) (parent : FanOutParentClaim)
    (policy : AggregationPolicy) :
    Steps OpensKept (acquireSubClaims args producers run parent policy) := by
  refine steps_bind (steps_need _ _) fun intent => steps_bind (steps_need _ _) fun _ => ?_
  split
  · exact steps_fail _
  · refine steps_bind (opensKept_update _ _ _) fun _ => ?_
    refine steps_bind (steps_foldlM fun done desc _ => ?_) fun _ => steps_pure _
    exact steps_bind (opensKept_acquireSubClaim producers parent intent _ desc) fun _ =>
      steps_pure _

theorem opensKept_acquireFanOutIfDeclared (producers : Producers) (request : Except String Unit)
    (spec : TemplateSpec) (nodeDef : TemplateNodeDef) :
    Steps OpensKept (acquireFanOutIfDeclared args producers request acq run spec nodeDef) := by
  unfold acquireFanOutIfDeclared
  split
  · exact steps_pure _
  · refine steps_reads fun s => steps_unless fun _ => ?_
    split
    · exact steps_pure _
    · split
      · exact steps_pure _
      · exact steps_bind (opensKept_acquireSubClaims producers _ _) fun _ => steps_pure _

theorem opensKept_reassign (id : Id) (holder supervisorId : String) :
    Steps OpensKept (ClaimHandles.reassignHolderSupervisor id holder supervisorId) :=
  steps_check fun _ => opensKept_update _ _ _

theorem opensKept_restamp : Steps OpensKept (restampLinkedSubClaimHolders args run.id) := by
  refine steps_reads fun rows => steps_foldlM fun ok entry _ => ?_
  refine steps_unless fun _ => ?_
  refine steps_bind (steps_attempt (opensKept_reassign _ _ _)) fun result => ?_
  split
  · exact steps_pure _
  · exact steps_pure _
  · exact steps_fail _

theorem opensKept_insertCoHolders (instanceId : Id) (spec : TemplateSpec)
    (nodeDef : TemplateNodeDef) :
    Steps OpensKept (insertCoHolderClaimHoldersAtAcquire instanceId run spec nodeDef) := by
  refine steps_bind ?_ fun resolved => steps_forM fun r _ => opensKept_insertHolder _ _
  exact steps_reads fun s => steps_check fun _ => steps_pure _

theorem opensKept_enterAcquired : Steps OpensKept (enterAcquired args input acq run spec) := by
  refine steps_bind (steps_checkpoint _ _) fun _ => steps_bind opensKept_restamp fun ok => ?_
  refine steps_unless fun _ => ?_
  refine steps_bind (steps_checkpoint _ _) fun _ => ?_
  have done : ∀ u : Unit, Steps OpensKept (do
      checkpoint input.producers .scratch
      return true) := fun _ => steps_bind (steps_checkpoint _ _) fun _ => steps_pure _
  split
  · exact steps_bind (opensKept_insertCoHolders _ _ _) done
  · exact done ()

theorem opensKept_acquireFanOut : Steps OpensKept (acquireFanOut args input acq run spec) := by
  refine steps_bind (steps_checkpoint _ _) fun _ => ?_
  split
  · exact opensKept_acquireFanOutIfDeclared _ _ _ _
  · exact steps_pure _

theorem acquireFanOutIfDeclared_refused {producers : Producers} {request : Except String Unit}
    {spec : TemplateSpec} {nodeDef : TemplateNodeDef} {refused : RefusedLocks}
    (refusing : acquireFanOutIfDeclared args producers request acq run spec nodeDef s =
      (.ok (.error refused), s')) : refused.2 = acq.locks := by
  unfold acquireFanOutIfDeclared at refusing
  cases declared : nodeDef.fanOut with
  | none =>
    simp only [declared] at refusing
    cases refusing
  | some fanOut =>
    simp only [declared, read_bind, id_eq] at refusing
    split at refusing
    case isTrue => cases refusing
    case isFalse =>
      cases split : s.fanOutParentClaim? acq.instanceId run.frameId spec nodeDef acq.locks
          fanOut.claim with
      | none =>
        simp only [split] at refusing
        cases refusing
      | some parent =>
        simp only [split] at refusing
        cases request with
        | error text =>
          cases refusing
          rfl
        | ok _ =>
          rcases bind_eq_ok.mp refusing with ⟨subClaims, mid, -, rest⟩
          cases rest

theorem acquireFanOut_refused {refused : RefusedLocks}
    (refusing : acquireFanOut args input acq run spec s = (.ok (.error refused), s')) :
    refused.2 = acq.locks := by
  rcases bind_eq_ok.mp refusing with ⟨_, mid, -, refusing⟩
  cases template : spec with
  | none =>
    simp only [template] at refusing
    cases refusing
  | some spec =>
    cases defined : acq.nodeDef with
    | none =>
      simp only [template, defined] at refusing
      cases refusing
    | some nodeDef =>
      simp only [template, defined] at refusing
      exact acquireFanOutIfDeclared_refused refusing

theorem finishAcquire_refuses (args : RunArgs) (input : AcquireInput) (run : NodeRun)
    (acq : Acquisition) (spec : Option TemplateSpec) (s : Store) : ∃ result s',
    finishAcquire args input acq run spec s = (.ok result, s') ∧ s'.opens = s.opens ∧
      ∀ refused, result = .error refused → refused.acq = acq ∧
        refused.partialLocks = acq.locks := by
  have kept : (acquireFanOut args input acq run spec s).2.opens = s.opens :=
    opensKept_acquireFanOut s
  unfold finishAcquire
  cases splitting : acquireFanOut args input acq run spec s with
  | mk result mid =>
    rw [splitting] at kept
    cases result with
    | error e =>
      rw [bind_of_ok (orRefuse_error splitting)]
      refine ⟨_, _, rfl, kept, ?_⟩
      rintro refused ⟨⟩
      exact ⟨rfl, rfl⟩
    | ok result =>
      rw [bind_of_ok (orRefuse_ok splitting)]
      cases result with
      | error refusedLocks =>
        refine ⟨_, _, rfl, kept, ?_⟩
        rintro refused ⟨⟩
        exact ⟨rfl, acquireFanOut_refused splitting⟩
      | ok subClaims =>
        have entered : (enterAcquired args input acq run spec mid).2.opens = mid.opens :=
          opensKept_enterAcquired mid
        cases entering : enterAcquired args input acq run spec mid with
        | mk result s' =>
          rw [entering] at entered
          cases result with
          | error e =>
            simp only [bind_of_ok (orRefuse_error entering)]
            refine ⟨_, _, rfl, entered.trans kept, ?_⟩
            rintro refused ⟨⟩
            exact ⟨rfl, rfl⟩
          | ok ok =>
            simp only [bind_of_ok (orRefuse_ok entering)]
            cases ok with
            | false =>
              refine ⟨_, _, rfl, entered.trans kept, ?_⟩
              rintro refused ⟨⟩
              exact ⟨rfl, rfl⟩
            | true =>
              refine ⟨_, _, rfl, entered.trans kept, ?_⟩
              rintro refused ⟨⟩

end Finish

section Try

variable {args : RunArgs} {input : AcquireInput} {run : NodeRun} {s : Store}

theorem claimDispatchRow_runs (runId : Id) (supervisorId : String) (s : Store) :
    ∃ runs, (Queue.claimDispatchRow runId supervisorId s).2 = { s with runs } := by
  unfold Queue.claimDispatchRow
  rw [bind_apply, updateRuns_eq]
  split
  case h_1 counted =>
    split at counted
    · cases counted
      exact ⟨_, rfl⟩
    · cases counted
  case h_2 failed =>
    split at failed
    · cases failed
    · cases failed
      exact ⟨s.runs, rfl⟩

def Agrees (s : Store) (out : Except StoreError (Except Refused Acquisition) × Store) : Prop :=
  match out.1 with
  | .error _ => out.2.opens = s.opens
  | .ok (.error refused) => out.2.opens = s.opens ++ abandonedIds refused.partialLocks ∧
      (refused.acq.nodeDef = none → refused.partialLocks = [])
  | .ok (.ok _) => True

theorem refused_partialLocks {refused : Refused}
    (defined : refused.acq.nodeDef = none → refused.partialLocks = []) :
    (AttemptResult.refused refused).partialLocks = refused.partialLocks := by
  simp only [AttemptResult.partialLocks]
  split
  · split
    case isTrue undefined => exact (defined (Option.isNone_iff_eq_none.mp undefined)).symm
    case isFalse => rfl
  · rfl

theorem Agrees.abandonsOpened (agrees : Agrees s (tryAcquire args input run s))
    (commits : input.producers.fault .commit = none) : AbandonsOpened args input run s := by
  rw [abandonsOpened_iff_ids]
  unfold AbandonsIds openedIds tryAcquireWithTx
  cases trying : tryAcquire args input run s with
  | mk result s' =>
    rw [trying] at agrees
    cases result with
    | error e =>
      have kept : s'.opens = s.opens := agrees
      simp [kept, AttemptResult.partialLocks, abandonedIds]
    | ok result =>
      cases result with
      | error refused =>
        have opened : s'.opens = s.opens ++ abandonedIds refused.partialLocks := agrees.1
        simp [opened, refused_partialLocks agrees.2]
      | ok acq => simp [commits]

theorem taken_start {runs : List NodeRun} (claimed : mid = { s with runs })
    (numbered : s.HandlesNumbered) : Taken s.nextId s mid [] := by
  subst claimed
  refine ⟨Nat.le_refl _, rfl, ?_⟩
  intro h mem young
  exact (Nat.not_lt.mpr young (numbered.known h mem)).elim

theorem agrees_of_takeLocks (numbered : s.HandlesNumbered) (holds : input.producers.RowUpdatesHold)
    (nothing : s.reuses args run.id specs = false) {runs : List NodeRun}
    (claimed : mid = { s with runs }) {acq : Acquisition} {spec : Option TemplateSpec}
    (undefined : acq.nodeDef = none → specs = []) :
    Agrees s (takeLocks args input acq run spec specs mid) := by
  have opens : mid.opens = s.opens ++ abandonedIds [] := by
    rw [claimed]
    simp [abandonedIds]
  rcases acquireLocks_opens run acq.nodeType acq.heldSubgraphs specs holds numbered
    (taken_start claimed numbered) opens (by simp [abandonedIds]) with
    ⟨result, s₁, new, locking, opened, -, agree⟩
  rw [agree nothing rfl] at opened
  have empty : acq.nodeDef = none → locksTaken result = [] := by
    intro missing
    rw [undefined missing] at locking
    cases locking
    rfl
  rw [takeLocks, bind_of_ok locking]
  cases result with
  | error refused => exact ⟨opened, empty⟩
  | ok locks =>
    change Agrees s (finishAcquire args input { acq with locks } run spec s₁)
    rcases finishAcquire_refuses args input run { acq with locks } spec s₁ with
      ⟨result, s', finishing, kept, refuses⟩
    rw [finishing]
    cases result with
    | ok acq => trivial
    | error refused =>
      rcases refuses refused rfl with ⟨sameAcq, sameLocks⟩
      refine ⟨?_, ?_⟩
      · rw [kept, opened, sameLocks]
        rfl
      · rw [sameAcq, sameLocks]
        exact empty

theorem lockSpecs_undefined {nodeDef : Option TemplateNodeDef} (undefined : nodeDef = none)
    {requests : List LockRequest} (specified : input.lockSpecs nodeDef = .ok requests) :
    requests = [] := by
  subst undefined
  cases specified
  rfl

theorem lockSpecs_defined {nodeDef : Option TemplateNodeDef} (defined : nodeDef.isSome)
    {requests : List LockRequest} (sameSpecs : input.specs = .ok specs)
    (specified : input.lockSpecs nodeDef = .ok requests) : requests = specs := by
  rcases Option.isSome_iff_exists.mp defined with ⟨nodeDef, rfl⟩
  rw [AcquireInput.lockSpecs, sameSpecs] at specified
  cases specified
  rfl

theorem agrees_of_nothing (numbered : s.HandlesNumbered) (holds : input.producers.RowUpdatesHold)
    (sameSpecs : input.specs = .ok specs)
    (nothing : ¬(s.Attempted args run ∧ s.reuses args run.id specs)) :
    Agrees s (tryAcquire args input run s) := by
  unfold tryAcquire
  simp only [read_bind, id_eq]
  cases known : s.node? run.nodeId with
  | none => rfl
  | some node =>
    simp only
    split
    case isTrue => exact ⟨by simp [abandonedIds], fun _ => rfl⟩
    case isFalse framed =>
      cases specified : input.lockSpecs (run.acquisition node
        (s.template? node.instanceId)).nodeDef with
      | error text =>
        exact ⟨by simp [abandonedIds], fun _ => rfl⟩
      | ok requests =>
        cases fault : input.producers.fault .claimRow with
        | some text =>
          simp only [checkpoint, fault, fail_bind]
          rfl
        | none =>
          simp only [checkpoint, fault, pure_bind]
          rcases claimDispatchRow_runs run.id args.supervisorId s with ⟨runs, claimed⟩
          rw [bind_apply]
          split
          case h_2 e mid claiming =>
            rw [claiming] at claimed
            have claimed : mid = { s with runs } := claimed
            change mid.opens = s.opens
            rw [claimed]
          case h_1 ok mid claiming =>
            rw [claiming] at claimed
            cases ok with
            | false =>
              refine ⟨?_, fun _ => rfl⟩
              simp [claimed, abandonedIds]
            | true =>
              refine agrees_of_takeLocks numbered holds ?_ claimed ?_
              · rw [Bool.eq_false_iff]
                intro reuses
                cases defined : (run.acquisition node (s.template? node.instanceId)).nodeDef with
                | none =>
                  rw [lockSpecs_undefined defined specified] at reuses
                  simp [Store.reuses] at reuses
                | some nodeDef =>
                  have isDefined := Option.isSome_of_eq_some defined
                  rw [lockSpecs_defined isDefined sameSpecs specified] at reuses
                  refine nothing ⟨⟨node, known, isDefined, framed, ?_⟩, reuses⟩
                  rw [claiming]
              · intro undefined
                exact lockSpecs_undefined undefined specified

theorem abandonsOpened_of_nothing (numbered : s.HandlesNumbered)
    (holds : input.producers.RowUpdatesHold) (sameSpecs : input.specs = .ok specs)
    (nothing : ¬(s.Attempted args run ∧ s.reuses args run.id specs)) :
    AbandonsOpened args input run s :=
  (agrees_of_nothing numbered holds sameSpecs nothing).abandonsOpened holds.commit

end Try

/-- Every claim is granted and conflicts with no other producer's; the try fails at the end. -/
def eagerProducers (producerName : String) : Producers where
  openClaim := fun _ _ => .available {} ""
  scopesConflict := fun name => some fun _ _ => name = producerName
  fault := fun step => if step = .restamp then some "restamp failed" else none

theorem eagerProducers_hold (producerName : String) :
    (eagerProducers producerName).RowUpdatesHold where
  address _ := rfl
  claimScope _ := rfl
  payload _ := rfl
  realizedWriteSemantics _ := rfl
  holder _ := rfl
  commit := rfl

section Eager

variable {args : RunArgs} (run : NodeRun) (nodeType : String)
  (heldSubgraphs : List HoldingSubgraph) {s₀ s : Store} {acquired : List AcquiredLock}

/-- The locks leave the run's claims alone: they are new, or named locks from before. -/
def Spares (s₀ : Store) (acquired : List AcquiredLock) : Prop :=
  ∀ id ∈ acquired.map (·.claimHandleId), s₀.nextId ≤ id ∨
    ∃ h ∈ s₀.claimHandles, h.id = id ∧ h.lockKind = .named

theorem Spares.lock (spares : Spares s₀ acquired) {lock : AcquiredLock}
    (spared : s₀.nextId ≤ lock.claimHandleId ∨
      ∃ h ∈ s₀.claimHandles, h.id = lock.claimHandleId ∧ h.lockKind = .named) :
    Spares s₀ (acquired ++ [lock]) := by
  intro id mem
  rw [map_append, mem_append] at mem
  rcases mem with old | new
  · exact spares id old
  · rw [mem_singleton.mp new]
    exact spared

theorem Taken.still_reusable (taken : Taken s₀.nextId s₀ s acquired) (numbered : s₀.HandlesNumbered)
    (spares : Spares s₀ acquired) (something : s₀.hasReusable runId [] producerName) :
    s.hasReusable runId (acquired.map (·.claimHandleId)) producerName := by
  rcases any_eq_true.mp something with ⟨row₀, mem₀, reusable⟩
  rcases taken.row_of_old numbered mem₀ with ⟨row, mem, same⟩
  have sameId : row.id = row₀.id := congrArg (·.id) same
  refine any_eq_true.mpr ⟨row, mem, reusable_transfer same ?_ ?_ reusable⟩
  · rw [sameId]
    intro locked
    rcases spares _ locked with new | ⟨h, hMem, hId, named⟩
    · exact Nat.not_lt.mpr new (numbered.known row₀ mem₀)
    · have sameRow := inj_on_of_nodup_map numbered.distinct hMem mem₀ hId
      subst sameRow
      simp [Store.reusable, named] at reusable
  · intro parent isParent owned
    rcases mem_ownHandleIds.mp owned with ⟨owner, ownerMem, ofRun, ownerId⟩
    have old : owner.id < s₀.nextId := by
      rw [ownerId]
      exact numbered.parents row₀ mem₀ parent isParent
    rcases taken.row_of_lt ownerMem old with ⟨owner₀, ownerMem, sameOwner⟩
    refine mem_ownHandleIds.mpr ⟨owner₀, ownerMem, ?_, ?_⟩
    · exact (congrArg (·.nodeRunId) sameOwner).trans ofRun
    · exact (congrArg (·.id) sameOwner).trans ownerId

theorem chosenRow_eager {rows : List ClaimHandle} (scope : Option RawMessage) (some : rows ≠ []) :
    chosenRow (eagerProducers spec.producerName) spec scope rows ≠ none := by
  intro none
  have none := (Option.or_eq_none_iff.mp none).2
  match rows with
  | [] => exact some rfl
  | [row] => cases none
  | row :: row' :: rest => simp [pickScopeMatch, eagerProducers, Producers.conflict] at none

theorem acquireClaim_reuses {producer : String}
    (resolved : args.resolveProducer spec.producerName = some producer)
    (something : s.hasReusable run.id (acquired.map (·.claimHandleId)) spec.producerName) :
    ∃ lock s' row, acquireClaim args (eagerProducers spec.producerName) run nodeType heldSubgraphs
        acquired spec s = (.ok (.acquired lock), s') ∧ lock.producer = some producer ∧
      lock.claimHandleId = row.id ∧ row ∈ s.claimHandles ∧
      s.reusable run.id (acquired.map (·.claimHandleId)) spec.producerName row := by
  rcases acquireClaim_cases run (eagerProducers spec.producerName) nodeType heldSubgraphs acquired
    resolved s with ⟨row, token, mem, reusable, reused⟩ | ⟨scope, notKept, notLinked, -⟩
  · exact ⟨_, _, row, reused, rfl, rfl, mem, reusable⟩
  · rcases any_eq_true.mp something with ⟨row, mem, reusable⟩
    have hasParent : row.parentClaimHandleId.isSome := by
      rw [Option.isSome_iff_ne_none]
      intro noParent
      refine chosenRow_eager scope ?_ notKept
      exact ne_nil_of_mem (mem_retained.mpr ⟨mem, reusable, noParent⟩)
    have linked := linked?_isSome mem reusable hasParent
    rw [notLinked] at linked
    cases linked

theorem askProducer_opens (owned : s.owns args.supervisorId rowId) (isHeld : Bool)
    (spec : ClaimSpec) (scope : Option RawMessage) (producer : String) :
    ∃ lock s', askProducer args (eagerProducers producerName) run rowId isHeld spec
      scope producer s = (.ok (.acquired lock), s') ∧ lock.claimHandleId = rowId := by
  have logged : owns { s with opens := s.opens ++ [rowId] } args.supervisorId rowId := owned
  rcases recordOpened_succeeds run (eagerProducers_hold producerName) rowId isHeld scope
    {} "" _ logged with ⟨recorded, recording, -⟩
  have answer : (eagerProducers producerName).openClaim rowId spec = .available {} "" := rfl
  simp only [askProducer, answer, logOpen, write_bind, bind_of_ok recording]
  exact ⟨_, _, rfl, rfl⟩

theorem acquireClaim_opens {producer : String}
    (resolved : args.resolveProducer spec.producerName = some producer)
    (nothing : s.hasReusable run.id (acquired.map (·.claimHandleId)) spec.producerName = false)
    (other : spec.producerName ≠ producerName) :
    ∃ lock s', acquireClaim args (eagerProducers producerName) run nodeType heldSubgraphs
      acquired spec s = (.ok (.acquired lock), s') ∧ lock.claimHandleId = s.nextId := by
  rcases acquireClaim_cases run (eagerProducers producerName) nodeType heldSubgraphs acquired
    resolved s with ⟨row, token, mem, reusable, -⟩ | ⟨scope, -, -, opening⟩
  · exact (any_eq_false.mp nothing row mem reusable).elim
  · have noConflict : evaluateClaimScopeConflict (eagerProducers producerName) run spec scope s =
        (.ok (false, false), s) := by
      simp [evaluateClaimScopeConflict, eagerProducers, Producers.conflict, other,
        listByProducerClaimScope]
    rw [opening, bind_of_ok noConflict]
    apply askProducer_opens
    simp [owns, claimant]

theorem acquireOneLock_eager (taken : Taken s₀.nextId s₀ s acquired) (spares : Spares s₀ acquired)
    {request : LockRequest}
    (grantable : ∀ spec, request = .claim spec → (args.resolveProducer spec.producerName).isSome ∧
      s.hasReusable run.id (acquired.map (·.claimHandleId)) spec.producerName = false ∧
      spec.producerName ≠ producerName) :
    ∃ lock s', acquireOneLock args (eagerProducers producerName) run nodeType heldSubgraphs acquired
        request s = (.ok (.acquired lock), s') ∧ Taken s₀.nextId s₀ s' (acquired ++ [lock]) ∧
      Spares s₀ (acquired ++ [lock]) := by
  have outcome : LockOutcome s₀.nextId s₀ acquired _ s (acquireOneLock args
      (eagerProducers producerName) run nodeType heldSubgraphs acquired request s) :=
    acquireOneLock_outcome run taken (eagerProducers_hold producerName) request
  have granted : ∃ lock s', acquireOneLock args (eagerProducers producerName) run nodeType
      heldSubgraphs acquired request s = (.ok (.acquired lock), s') ∧
      (s₀.nextId ≤ lock.claimHandleId ∨
        ∃ h ∈ s₀.claimHandles, h.id = lock.claimHandleId ∧ h.lockKind = .named) := by
    cases request with
    | named name =>
      rcases reuseHeldNamedLock_cases run (eagerProducers producerName) name acquired s with
        none | ⟨row, mem, free, named, reused⟩
      · have locked : ∃ s', acquireNamedLock args (eagerProducers producerName) run name s =
            (.ok (some { claimHandleId := s.nextId, spec := .named name }), s') := ⟨_, rfl⟩
        rcases locked with ⟨s', locked⟩
        simp only [acquireOneLock, bind_of_ok none, bind_of_ok locked]
        exact ⟨_, _, rfl, .inl taken.fresh⟩
      · rcases taken.row mem free with ⟨row₀, mem₀, same⟩
        simp only [acquireOneLock, bind_of_ok reused]
        refine ⟨_, _, rfl, .inr ⟨row₀, mem₀, congrArg (·.id) same, ?_⟩⟩
        exact (congrArg (·.lockKind) same).trans named
    | claim spec =>
      rcases grantable spec rfl with ⟨resolved, nothing, other⟩
      rcases Option.isSome_iff_exists.mp resolved with ⟨producer, resolved⟩
      rcases acquireClaim_opens run nodeType heldSubgraphs resolved nothing other with
        ⟨lock, s', opening, lockId⟩
      refine ⟨lock, s', opening, .inl ?_⟩
      rw [lockId]
      exact taken.fresh
  rcases granted with ⟨lock, s', locking, spared⟩
  rw [locking] at outcome
  exact ⟨lock, s', locking, outcome.1, spares.lock spared⟩

/-- Asking for the locks during a try takes over a claim from before it. -/
def TakesOver (args : RunArgs) (s₀ : Store) (producerName : String) (specs : List LockRequest) :
    Prop :=
  ∀ acquired s, Taken s₀.nextId s₀ s acquired → Spares s₀ acquired →
    ∃ result s', acquireLocks args (eagerProducers producerName) run nodeType heldSubgraphs specs
        acquired s = (.ok result, s') ∧
      ∃ lock ∈ locksTaken result, lock.producer.isSome ∧ lock.claimHandleId < s₀.nextId

variable {run nodeType heldSubgraphs}

theorem TakesOver.cons {request : LockRequest} {rest : List LockRequest}
    (later : TakesOver run nodeType heldSubgraphs args s₀ producerName rest)
    (numbered : s₀.HandlesNumbered) (something : s₀.hasReusable run.id [] producerName)
    (grantable : ∀ spec, request = .claim spec → (args.resolveProducer spec.producerName).isSome ∧
      s₀.hasReusable run.id [] spec.producerName = false) :
    TakesOver run nodeType heldSubgraphs args s₀ producerName (request :: rest) := by
  intro acquired s taken spares
  have grantable : ∀ spec, request = .claim spec →
      (args.resolveProducer spec.producerName).isSome ∧
      s.hasReusable run.id (acquired.map (·.claimHandleId)) spec.producerName = false ∧
      spec.producerName ≠ producerName := by
    intro spec isClaim
    rcases grantable spec isClaim with ⟨resolved, nothing⟩
    refine ⟨resolved, taken.nothing_reusable numbered nothing, ?_⟩
    rintro rfl
    simp [nothing] at something
  rcases acquireOneLock_eager run nodeType heldSubgraphs taken spares grantable with
    ⟨lock, s', locking, taken, spares⟩
  simp only [acquireLocks, bind_apply, attempt_apply, locking]
  exact later _ _ taken spares

theorem takesOver_of_reuses (numbered : s₀.HandlesNumbered) (reuses : s₀.reuses args run.id specs) :
    ∃ producerName, s₀.hasReusable run.id [] producerName ∧
      TakesOver run nodeType heldSubgraphs args s₀ producerName specs := by
  induction specs with
  | nil => simp [Store.reuses] at reuses
  | cons request rest ih =>
    cases request with
    | named name =>
      rcases ih reuses with ⟨producerName, something, later⟩
      exact ⟨producerName, something, later.cons numbered something (by simp)⟩
    | claim spec =>
      rw [Store.reuses, Bool.and_eq_true, Bool.or_eq_true] at reuses
      rcases reuses with ⟨resolved, reuses⟩
      cases something : s₀.hasReusable run.id [] spec.producerName with
      | false =>
        rw [something] at reuses
        rcases ih (reuses.resolve_left (by simp)) with ⟨producerName, somewhere, later⟩
        refine ⟨producerName, somewhere, later.cons numbered somewhere ?_⟩
        rintro _ ⟨⟩
        exact ⟨resolved, something⟩
      | true =>
        refine ⟨spec.producerName, something, fun acquired s taken spares => ?_⟩
        rcases Option.isSome_iff_exists.mp resolved with ⟨producer, resolved⟩
        rcases acquireClaim_reuses run nodeType heldSubgraphs resolved
          (taken.still_reusable numbered spares something) with
          ⟨lock, mid, row, locking, hasProducer, lockId, mem, reusable⟩
        rcases acquireLocks_extends run (eagerProducers spec.producerName) nodeType heldSubgraphs
          (acquired ++ [lock]) rest mid with
          ⟨result, s', later, kept⟩
        rcases taken.row mem (free_of_reusable reusable) with ⟨row₀, mem₀, same⟩
        have sameId : row₀.id = row.id := congrArg (·.id) same
        refine ⟨result, s', ?_, lock, kept.subset (by simp), by simp [hasProducer], ?_⟩
        · simp only [acquireLocks, bind_apply, attempt_apply, acquireOneLock, locking]
          exact later
        · rw [lockId, ← sameId]
          exact numbered.known row₀ mem₀

end Eager

section Main

variable {args : RunArgs} {run : NodeRun} {s : Store}

theorem finishAcquire_fails {input : AcquireInput} {text : String}
    (fault : input.producers.fault .restamp = some text) {acq : Acquisition}
    {spec : Option TemplateSpec} {acquired : Acquisition} :
    finishAcquire args input acq run spec s ≠ (.ok (.ok acquired), s') := by
  intro finishing
  rcases bind_eq_ok.mp finishing with ⟨result, mid, -, finishing⟩
  cases result with
  | error refused => cases finishing
  | ok result =>
    cases result with
    | error refused => cases finishing
    | ok subClaims =>
      have entering : enterAcquired args input acq run spec mid = (.error (.other text), mid) := by
        simp only [enterAcquired, checkpoint, fault, fail_bind]
      simp only [bind_of_ok (orRefuse_error entering)] at finishing
      cases finishing

theorem takeLocks_reuses (numbered : s.HandlesNumbered) (reuses : s.reuses args run.id specs)
    (acq : Acquisition) (spec : Option TemplateSpec) :
    ∃ producerName, ∀ partitionRequest mid runs, mid = { s with runs } →
      ∃ refused s', takeLocks args
          { producers := eagerProducers producerName, specs := .ok specs, partitionRequest }
          acq run spec specs mid = (.ok (.error refused), s') ∧
        refused.acq.nodeDef = acq.nodeDef ∧
        (∃ id ∈ abandonedIds refused.partialLocks, id < s.nextId) ∧
        ∃ new, s'.opens = s.opens ++ new ∧ ∀ id ∈ new, s.nextId ≤ id := by
  rcases takesOver_of_reuses numbered reuses with ⟨producerName, -, locks⟩
  refine ⟨producerName, fun partitionRequest mid runs claimed => ?_⟩
  rcases locks [] mid (taken_start claimed numbered) (by simp [Spares]) with
    ⟨result, s₁, locking, lock, taken, hasProducer, old⟩
  have handedBack : ∃ id ∈ abandonedIds (locksTaken result), id < s.nextId :=
    ⟨lock.claimHandleId, mem_map_of_mem (mem_filter.mpr ⟨taken, hasProducer⟩), old⟩
  have opened : ∃ new, s₁.opens = s.opens ++ new ∧ ∀ id ∈ new, s.nextId ≤ id := by
    have opens : mid.opens = s.opens ++ [] := by simp [claimed]
    rcases acquireLocks_opens run acq.nodeType acq.heldSubgraphs specs
      (eagerProducers_hold producerName) numbered (taken_start claimed numbered) opens (by simp)
      with ⟨_, _, new, opening, opened, young, -⟩
    rw [locking] at opening
    cases opening
    exact ⟨new, opened, young⟩
  simp only [takeLocks, bind_of_ok locking]
  cases result with
  | error refusedLocks => exact ⟨_, _, rfl, rfl, handedBack, opened⟩
  | ok locks =>
    simp only
    rcases finishAcquire_refuses args
      { producers := eagerProducers producerName, specs := .ok specs, partitionRequest } run
      { acq with locks } spec s₁ with ⟨result, s', finishing, kept, refuses⟩
    cases result with
    | ok acquired => exact (finishAcquire_fails rfl finishing).elim
    | error refused =>
      rcases refuses refused rfl with ⟨sameAcq, sameLocks⟩
      refine ⟨refused, s', finishing, ?_, ?_, ?_⟩
      · rw [sameAcq]
      · rw [sameLocks]
        exact handedBack
      · rw [kept]
        exact opened

theorem tryAcquire_attempted {input : AcquireInput} {node : Node}
    (known : s.node? run.nodeId = some node)
    (defined : ((s.template? node.instanceId).bind (·.lookupNodeDef node.nodeType)).isSome)
    (framed : run.frameId ≠ 0) (sameSpecs : input.specs = .ok specs)
    (clear : input.producers.fault .claimRow = none)
    (claiming : Queue.claimDispatchRow run.id args.supervisorId s = (.ok true, mid)) :
    tryAcquire args input run s = takeLocks args input
      { run.acquisition node (s.template? node.instanceId) with
        heldSubgraphs := ((s.template? node.instanceId).map holdingSubgraphsForTemplate).getD [] }
      run (s.template? node.instanceId) specs mid := by
  have specified : input.lockSpecs (run.acquisition node (s.template? node.instanceId)).nodeDef =
      .ok specs := by
    rcases Option.isSome_iff_exists.mp defined with ⟨nodeDef, found⟩
    simp [AcquireInput.lockSpecs, NodeRun.acquisition, found, sameSpecs]
  simp only [tryAcquire, read_bind, id_eq, known, framed, if_false, specified, checkpoint, clear,
    pure_bind, bind_of_ok claiming, Bool.not_true, Bool.false_eq_true]

theorem not_abandonsOpened (numbered : s.HandlesNumbered) (attempted : s.Attempted args run)
    (reuses : s.reuses args run.id specs) :
    ∃ producers partitionRequest, producers.RowUpdatesHold ∧
      ¬AbandonsOpened args { producers, specs := .ok specs, partitionRequest } run s := by
  rcases attempted with ⟨node, known, defined, framed, claims⟩
  rcases claimDispatchRow_runs run.id args.supervisorId s with ⟨runs, claimed⟩
  cases claiming : Queue.claimDispatchRow run.id args.supervisorId s with
  | mk result mid =>
    rw [claiming] at claims claimed
    have claims : result = .ok true := claims
    rw [claims] at claiming
    rcases takeLocks_reuses numbered reuses
      { run.acquisition node (s.template? node.instanceId) with
        heldSubgraphs := ((s.template? node.instanceId).map holdingSubgraphsForTemplate).getD [] }
      (s.template? node.instanceId) with ⟨producerName, handsBack⟩
    refine ⟨eagerProducers producerName, .ok (), eagerProducers_hold producerName, ?_⟩
    rcases handsBack (.ok ()) mid runs claimed with
      ⟨refused, s', taking, sameDef, ⟨id, abandoned, old⟩, new, opened, young⟩
    rw [← tryAcquire_attempted known defined framed rfl rfl claiming] at taking
    have handed : (AttemptResult.refused refused).partialLocks = refused.partialLocks := by
      apply refused_partialLocks
      intro undefined
      rw [sameDef] at undefined
      exact (Option.isSome_iff_ne_none.mp defined undefined).elim
    intro abandons
    rw [abandonsOpened_iff_ids] at abandons
    simp only [AbandonsIds, tryAcquireWithTx, taking, handed, openedIds, opened,
      drop_left] at abandons
    exact Nat.not_lt.mpr (young id ((abandons id).mp abandoned)) old

/--
A try that is rolled back abandons exactly the claims it opened, whatever the producers answer,
if and only if none of its claims takes over a handle from before it.
-/
theorem abandonsOpened_iff (numbered : s.HandlesNumbered) (specs : List LockRequest) :
    (∀ producers partitionRequest, producers.RowUpdatesHold →
      AbandonsOpened args { producers, specs := .ok specs, partitionRequest } run s) ↔
    ¬(s.Attempted args run ∧ s.reuses args run.id specs) := by
  constructor
  · rintro abandons ⟨attempted, reuses⟩
    rcases not_abandonsOpened numbered attempted reuses with
      ⟨producers, partitionRequest, holds, fails⟩
    exact fails (abandons producers partitionRequest holds)
  · intro nothing producers partitionRequest holds
    exact abandonsOpened_of_nothing numbered holds rfl nothing

end Main

def saverSpecs : List LockRequest :=
  [.claim { producerName := "archive" }, .claim { producerName := "vault" }]

def saverRun : NodeRun where
  id := 2
  nodeId := 1
  enqueuedAt := 0
  state := .stale
  creationReason := .cascade
  sequence := 1
  frameId := 3
  runScopeId := 4

def saverStore (claimHandles : List ClaimHandle) : Store where
  instances := [{
    id := 1
    template := { nodes := [{
      type := "saver", executor := "worker"
      claimProducers := [{ name := "archive" }, { name := "vault" }] }] } }]
  nodes := [{ id := 1, instanceId := 1, nodeType := "saver", executor := "worker" }]
  runs := [saverRun]
  claimHandles
  nextId := 10

def keptHandle : ClaimHandle where
  id := 7
  lockKind := .claimScope
  producerName := some "archive"
  holderSupervisorId := some "sup"
  holderNodeId := 1
  claimedAt := 0
  expiresAt := 100
  nodeRunId := some 2

def saverArgs : RunArgs := .plain "sup"

def saverInput (fault : AcquireStep → Option String) (vault : OpenAnswer) : AcquireInput where
  producers := {
    openClaim := fun _ spec => if spec.producerName = "archive" then .available {} "" else vault
    fault }
  specs := .ok saverSpecs
  partitionRequest := .ok ()

/--
A handle kept from before is abandoned with the try; a claim whose row cannot be completed, and
all claims of a try that cannot be committed, are left open.
-/
theorem saver_abandons_wrong :
    ¬AbandonsOpened saverArgs (saverInput (fun _ => none) (.unavailable "")) saverRun
        (saverStore [keptHandle]) ∧
      ¬AbandonsOpened saverArgs
        (saverInput (fun step => if step = .updateAddress 10 then some "deadlock" else none)
          (.available {} "")) saverRun (saverStore []) ∧
      ¬AbandonsOpened saverArgs
        (saverInput (fun step => if step = .commit then some "connection lost" else none)
          (.available {} "")) saverRun (saverStore []) := by
  refine ⟨?_, ?_, ?_⟩ <;> decide +kernel

/-- A run that kept nothing abandons what it opened, here with the vault refusing its claim. -/
theorem saver_abandons_opened :
    (saverStore []).HandlesNumbered ∧
      AbandonsOpened saverArgs (saverInput (fun _ => none) (.unavailable "")) saverRun
        (saverStore []) ∧
      openedIds saverArgs (saverInput (fun _ => none) (.unavailable "")) saverRun (saverStore []) =
        [10] := by
  have numbered : (saverStore []).HandlesNumbered := by
    constructor <;> simp [saverStore]
  have nothing : (saverStore []).reuses saverArgs saverRun.id saverSpecs = false := by
    decide +kernel
  refine ⟨numbered, ?_, by decide +kernel⟩
  refine (abandonsOpened_iff numbered saverSpecs).mpr ?_ _ _ ?_
  · simp [nothing]
  · constructor <;> intros <;> rfl

end Rimsky
