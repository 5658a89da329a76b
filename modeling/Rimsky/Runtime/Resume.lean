import Rimsky.Runtime.AcquireRollback

/-!
# Taking up retained locks again

A run that is parked keeps its handles. When it is acquired again, every lock spec is to get the
handle it opened. A named lock takes the first handle of its name. A claim takes the first handle
of its producer whose scope has the bytes of the marshalled selector; if there is none, the only
handle left, or else the first one whose scope conflicts with the selector. A handle's scope is
what the producer made of the selector and the column gives back, so that a claim may find a handle
that another claim opened, or none.
-/

namespace Rimsky

open Transaction List Function Store

def FirstOf (fits : ClaimHandle → Bool) (rows : List ClaimHandle) (h : ClaimHandle) : Prop :=
  ∃ before after, rows = before ++ h :: after ∧ fits h ∧ ∀ r ∈ before, fits r = false

theorem firstOf_iff {fits : ClaimHandle → Bool} {rows : List ClaimHandle} {h : ClaimHandle} :
    FirstOf fits rows h ↔ rows.find? fits = some h := by
  rw [find?_eq_some_iff_append]
  constructor
  · rintro ⟨before, after, split, here, others⟩
    exact ⟨here, before, after, split, fun r mem => by simp [others r mem]⟩
  · rintro ⟨here, before, after, split, others⟩
    exact ⟨before, after, split, here, fun r mem => by simpa using others r mem⟩

def LockRequest.Opened : LockRequest → ClaimHandle → Prop
  | .named name, h => h.lockKind = .named ∧ h.lockName = some name
  | .claim spec, h =>
    h.lockKind = .claimScope ∧ h.producerName = some spec.producerName ∧
      h.parentClaimHandleId = none

def Store.activeHandles (s : Store) (runId : Id) : List ClaimHandle :=
  (s.handlesByClaimedAt fun h => h.nodeRunId = some runId).filter fun h => h.state = .active

/-- The run has one active handle per request, and no others. -/
structure Store.Retains (s : Store) (runId : Id) (kept : List (LockRequest × ClaimHandle)) :
    Prop where
  rows : (s.activeHandles runId).Perm (kept.map (·.2))
  opened : ∀ p ∈ kept, p.1.Opened p.2
  distinct : (kept.map (·.2.id)).Nodup
  known : ∀ p ∈ kept, p.2.id < s.nextId

section Rebinds

variable (args : RunArgs) (producers : Producers)

/-- Of the handles that are left, the request finds the one it opened. -/
def LockRequest.Finds (left : List ClaimHandle) (h : ClaimHandle) : LockRequest → Prop
  | .named name => FirstOf (fun r => r.lockKind = .named && r.lockName = some name) left h
  | .claim spec =>
    let scope := some (Json.raw (.str spec.selector))
    let rows := left.filter fun r => r.lockKind = .claimScope &&
      r.producerName = some spec.producerName
    (args.resolveProducer spec.producerName).isSome ∧
      (FirstOf (·.scopeBytes = RawMessage.bytes scope) rows h ∨
        (∀ r ∈ rows, r.scopeBytes ≠ RawMessage.bytes scope) ∧
          (rows = [h] ∨ FirstOf (fun r =>
            producers.conflict spec.producerName scope r.claimScopeData) rows h))

/-- Every request finds its own handle among those that it and the later requests opened. -/
def Rebinds (rows : List ClaimHandle) : List (LockRequest × ClaimHandle) → Prop
  | [] => True
  | (request, h) :: rest =>
    request.Finds args producers (rows.filter fun r =>
      (h.id :: rest.map (·.2.id)).contains r.id) h ∧ Rebinds rows rest

end Rebinds

section Renewed

variable {s : Store} {runId : Id} {expiry : Nat}

def ClaimHandle.renewed (h : ClaimHandle) (expiry : Nat) : ClaimHandle :=
  { h with expiresAt := expiry }

theorem activeHandles_renewed :
    (s.renewed runId expiry).activeHandles runId =
      (s.activeHandles runId).map (·.renewed expiry) := by
  have own : (s.renewed runId expiry).claimHandles.filter (fun h => h.nodeRunId = some runId) =
      (s.claimHandles.filter fun h => h.nodeRunId = some runId).map fun h =>
        if h.nodeRunId = some runId && h.state = .active then h.renewed expiry else h := by
    change (s.claimHandles.map _).filter _ = _
    rw [filter_map]
    congr 1
    refine filter_congr fun h _ => ?_
    simp only [comp_apply]
    split <;> rfl
  unfold activeHandles handlesByClaimedAt
  rw [own, ← map_insertionSort (fun h h' : ClaimHandle => h.claimedAt ≤ h'.claimedAt)
    (fun h h' : ClaimHandle => h.claimedAt ≤ h'.claimedAt) _ _ ?sorted, filter_map]
  case sorted =>
    intro h _ h' _
    split <;> split <;> rfl
  generalize sorted : (s.claimHandles.filter fun h => h.nodeRunId = some runId).insertionSort
    (fun h h' => h.claimedAt ≤ h'.claimedAt) = rows
  have ours : ∀ h ∈ rows, h.nodeRunId = some runId := by
    intro h mem
    rw [← sorted, mem_insertionSort, mem_filter] at mem
    simpa using mem.2
  have active : rows.filter ((fun h : ClaimHandle => decide (h.state = .active)) ∘ fun h =>
        if h.nodeRunId = some runId && h.state = .active then h.renewed expiry else h) =
      rows.filter fun h => h.state = .active := by
    refine filter_congr fun h _ => ?_
    simp only [comp_apply]
    split <;> rfl
  rw [active]
  refine map_congr_left fun h mem => ?_
  rcases mem_filter.mp mem with ⟨here, active⟩
  rw [if_pos]
  simp only [ours h here, decide_true, Bool.true_and]
  exact active

theorem renewed_renewed : (s.renewed runId expiry).renewed runId expiry =
    s.renewed runId expiry := by
  unfold renewed
  congr 1
  rw [map_map]
  refine map_congr_left fun h _ => ?_
  simp only [comp_apply]
  by_cases own : h.nodeRunId = some runId && h.state = .active
  · rw [if_pos own]
    exact if_pos own
  · rw [if_neg own, if_neg own]

end Renewed

theorem find?_renewed (fits : ClaimHandle → Bool) (blind : ∀ h e, fits (h.renewed e) = fits h)
    (expiry : ClaimHandle → Nat) (rows : List ClaimHandle) :
    (rows.map fun h => h.renewed (expiry h)).find? fits =
      (rows.find? fits).map fun h => h.renewed (expiry h) := by
  rw [find?_map]
  congr 2
  exact funext fun h => blind h _

theorem filter_renewed (fits : ClaimHandle → Bool) (blind : ∀ h e, fits (h.renewed e) = fits h)
    (expiry : ClaimHandle → Nat) (rows : List ClaimHandle) :
    (rows.map fun h => h.renewed (expiry h)).filter fits =
      (rows.filter fits).map fun h => h.renewed (expiry h) := by
  rw [filter_map]
  congr 2
  exact funext fun h => blind h _

variable {r : ClaimHandle}

section Choice

variable {producers : Producers} {spec : ClaimSpec} {scope : Option RawMessage}

theorem chosenRow_eq_some {rows : List ClaimHandle} {h : ClaimHandle} :
    chosenRow producers spec scope rows = some h ↔
      FirstOf (·.scopeBytes = RawMessage.bytes scope) rows h ∨
        (∀ r ∈ rows, r.scopeBytes ≠ RawMessage.bytes scope) ∧
          (rows = [h] ∨ FirstOf (fun r =>
            producers.conflict spec.producerName scope r.claimScopeData) rows h) := by
  unfold chosenRow
  cases exact : rows.find? (·.scopeBytes = RawMessage.bytes scope) with
  | some r =>
    have mem := mem_of_find?_eq_some exact
    have same : r.scopeBytes = RawMessage.bytes scope := by simpa using find?_some exact
    rw [firstOf_iff, exact, Option.some_or]
    constructor
    · exact fun isRow => .inl isRow
    · rintro (isRow | ⟨none, -⟩)
      · exact isRow
      · exact absurd same (none r mem)
  | none =>
    have none : ∀ r ∈ rows, r.scopeBytes ≠ RawMessage.bytes scope := by
      simpa using find?_eq_none.mp exact
    rw [firstOf_iff, firstOf_iff, exact, Option.none_or]
    match rows with
    | [] => simp [pickScopeMatch]
    | [r] =>
      simp only [pickScopeMatch, Option.some.injEq]
      constructor
      · rintro rfl
        exact .inr ⟨none, .inl rfl⟩
      · rintro (impossible | ⟨-, only | conflicts⟩)
        · cases impossible
        · simpa using only
        · simpa using mem_of_find?_eq_some conflicts |> mem_singleton.mp |> Eq.symm
    | r :: r' :: rest =>
      constructor
      · exact fun conflicts => .inr ⟨none, .inr conflicts⟩
      · rintro (impossible | ⟨-, only | conflicts⟩)
        · cases impossible
        · simp at only
        · exact conflicts

theorem chosenRow_map (expiry : ClaimHandle → Nat) (rows : List ClaimHandle) :
    chosenRow producers spec scope (rows.map fun h => h.renewed (expiry h)) =
      (chosenRow producers spec scope rows).map fun h => h.renewed (expiry h) := by
  have pick : pickScopeMatch producers spec.producerName scope (rows.map fun h =>
      h.renewed (expiry h)) =
      (pickScopeMatch producers spec.producerName scope rows).map fun h =>
        h.renewed (expiry h) := by
    match rows with
    | [] => rfl
    | [r] => rfl
    | r :: r' :: rest =>
      exact find?_renewed (fun r => producers.conflict spec.producerName scope r.claimScopeData)
        (fun _ _ => rfl) expiry (r :: r' :: rest)
  have exact := find?_renewed (fun r => r.scopeBytes = RawMessage.bytes scope)
    (fun _ _ => rfl) expiry rows
  unfold chosenRow
  rw [exact, pick]
  cases rows.find? (·.scopeBytes = RawMessage.bytes scope) <;> rfl

end Choice

section Request

variable {args : RunArgs} {producers : Producers} (run : NodeRun) {s t : Store}

def Resumed (producers : Producers) (s t : Store) : Prop :=
  t = s ∨ t = s.renewed run.id (claimExpiry producers s.clock)

variable {run}

namespace Resumed

variable (resumed : Resumed run producers s t)

include resumed

theorem rows : ∃ expiry : ClaimHandle → Nat,
    t.activeHandles run.id = (s.activeHandles run.id).map fun h => h.renewed (expiry h) := by
  rcases resumed with rfl | rfl
  · refine ⟨(·.expiresAt), ?_⟩
    exact (map_id _).symm
  · exact ⟨_, activeHandles_renewed⟩

theorem nextId : t.nextId = s.nextId := by
  rcases resumed with rfl | rfl <;> rfl

theorem opens : t.opens = s.opens := by
  rcases resumed with rfl | rfl <;> rfl

theorem ids : t.claimHandles.map (·.id) = s.claimHandles.map (·.id) := by
  rcases resumed with rfl | rfl
  · rfl
  · change (s.claimHandles.map _).map _ = _
    rw [map_map]
    refine map_congr_left fun h _ => ?_
    simp only [comp_apply]
    split <;> rfl

theorem renew : t.renewed run.id (claimExpiry producers t.clock) =
    s.renewed run.id (claimExpiry producers s.clock) := by
  rcases resumed with rfl | rfl
  · rfl
  · exact renewed_renewed

end Resumed

theorem Resumed.again : Resumed run producers s
    (s.renewed run.id (claimExpiry producers s.clock)) := .inr rfl

theorem reusable_eq (taken : List Id) (runId : Id) :
    (t.handlesByClaimedAt fun h => h.nodeRunId = some runId).filter
        (fun row => row.state = .active && !taken.contains row.id) =
      (t.activeHandles runId).filter fun row => !taken.contains row.id := by
  unfold activeHandles
  rw [filter_filter]
  exact filter_congr fun _ _ => Bool.and_comm _ _

theorem reuseHeldNamedLock_eq (name : String) (acquired : List AcquiredLock) :
    reuseHeldNamedLock producers run name acquired t =
      match ((t.activeHandles run.id).filter fun row =>
          !(acquired.map (·.claimHandleId)).contains row.id).find?
            fun row => row.lockKind = .named && row.lockName = some name with
      | none => (.ok none, t)
      | some row => (.ok (some { claimHandleId := row.id, spec := .named name }),
          t.renewed run.id (claimExpiry producers t.clock)) := by
  unfold reuseHeldNamedLock
  rw [bind_of_ok (reusableHandles_apply run acquired t), reusable_eq]
  cases choice : find? _ _ <;> rfl

variable {lock : AcquiredLock} {t' : Store}

theorem openNewClaim_id {nodeType : String} {heldSubgraphs : List HoldingSubgraph}
    {spec : ClaimSpec} {scope : Option RawMessage} {producer : String}
    (opened : openNewClaim args producers run nodeType heldSubgraphs spec scope producer t =
      (.ok (.acquired lock), t')) :
    lock.claimHandleId = t.nextId := by
  unfold openNewClaim at opened
  rw [newId_bind, read_bind] at opened
  rcases bind_eq_ok.mp opened with ⟨_, mid, -, asked⟩
  unfold askProducer at asked
  cases answer : producers.openClaim t.nextId spec with
  | broken | faulted | unavailable =>
    simp only [answer] at asked
    cases asked
  | available result semantics =>
    simp only [answer, logOpen, write_bind] at asked
    rcases bind_eq_ok.mp asked with ⟨_, _, -, done⟩
    cases done
    rfl

structure Serving (s : Store) (run : NodeRun) (acquired : List AcquiredLock)
    (rest : List (LockRequest × ClaimHandle)) : Prop where
  opened : ∀ p ∈ rest, p.1.Opened p.2
  distinct : (rest.map (·.2.id)).Nodup
  known : ∀ p ∈ rest, p.2.id < s.nextId
  left : ∀ r ∈ s.activeHandles run.id,
    (!(acquired.map (·.claimHandleId)).contains r.id) = (rest.map (·.2.id)).contains r.id
  rows : ∀ r ∈ s.activeHandles run.id, (rest.map (·.2.id)).contains r.id → r ∈ rest.map (·.2)

variable {acquired : List AcquiredLock} {request : LockRequest} {h : ClaimHandle}
  {rest : List (LockRequest × ClaimHandle)} {nodeType : String}
    {heldSubgraphs : List HoldingSubgraph}

def leftHandles (s : Store) (run : NodeRun) (rest : List (LockRequest × ClaimHandle)) :
    List ClaimHandle :=
  (s.activeHandles run.id).filter fun r => (rest.map (·.2.id)).contains r.id

namespace Serving

variable (serving : Serving s run acquired rest)

include serving

section

variable (mem : r ∈ leftHandles s run rest)

include mem

theorem of_mem : ∃ p ∈ rest, p.2 = r := by
  rcases mem_filter.mp mem with ⟨here, listed⟩
  exact mem_map.mp (serving.rows r here listed)

theorem parent (kind : r.lockKind = .claimScope) :
    r.parentClaimHandleId = none := by
  rcases serving.of_mem mem with ⟨⟨request, _⟩, here, rfl⟩
  have opened := serving.opened _ here
  cases request with
  | named name =>
    have named : _ = LockKind.named := opened.1
    rw [kind] at named
    cases named
  | claim spec => exact opened.2.2

theorem eq_of_id {p : LockRequest × ClaimHandle} (here : p ∈ rest) (same : r.id = p.2.id) :
    r = p.2 := by
  rcases serving.of_mem mem with ⟨q, hq, rfl⟩
  exact congrArg Prod.snd (inj_on_of_nodup_map serving.distinct hq here same)

end

section

variable (resumed : Resumed run producers s t)

include resumed

theorem free_eq : ∃ expiry : ClaimHandle → Nat,
    (t.activeHandles run.id).filter (fun r => !(acquired.map (·.claimHandleId)).contains r.id) =
      (leftHandles s run rest).map fun h => h.renewed (expiry h) := by
  rcases resumed.rows with ⟨expiry, rows⟩
  refine ⟨expiry, ?_⟩
  have filtered := filter_renewed (fun r => !(acquired.map (·.claimHandleId)).contains r.id)
    (fun _ _ => rfl) expiry (s.activeHandles run.id)
  rw [rows, filtered, filter_congr serving.left]
  rfl

theorem retained_eq (producerName : String) :
    ∃ expiry : ClaimHandle → Nat, t.retained run.id (acquired.map (·.claimHandleId)) producerName =
      ((leftHandles s run rest).filter fun r =>
        r.lockKind = .claimScope && r.producerName = some producerName).map fun h =>
          h.renewed (expiry h) := by
  rcases serving.free_eq resumed with ⟨expiry, free⟩
  refine ⟨expiry, ?_⟩
  have filtered := filter_renewed (fun r => r.lockKind = .claimScope &&
    r.parentClaimHandleId.isNone &&
    r.producerName = some producerName) (fun _ _ => rfl) expiry (leftHandles s run rest)
  unfold retained
  rw [reusable_eq, free, filtered]
  congr 1
  refine filter_congr fun r mem => ?_
  by_cases kind : r.lockKind = .claimScope
  · simp [kind, serving.parent mem kind]
  · simp [kind]

theorem linked?_eq_none (producerName : String) :
    t.linked? run.id (acquired.map (·.claimHandleId)) producerName = none := by
  rcases serving.free_eq resumed with ⟨expiry, free⟩
  unfold linked?
  rw [reusable_eq, free]
  refine find?_eq_none.mpr fun r mem fits => ?_
  rcases mem_map.mp mem with ⟨r, here, rfl⟩
  simp only [Bool.and_eq_true, decide_eq_true_eq] at fits
  have kind : r.lockKind = .claimScope := fits.1.2
  have orphan : r.parentClaimHandleId = none := serving.parent here kind
  have still : (r.renewed (expiry r)).parentClaimHandleId = none := orphan
  rw [still] at fits
  simp at fits

theorem reuseNamed_eq (name : String) :
    reuseHeldNamedLock producers run name acquired t =
      match (leftHandles s run rest).find? fun r => r.lockKind = .named &&
        r.lockName = some name with
      | none => (.ok none, t)
      | some r => (.ok (some { claimHandleId := r.id, spec := .named name }),
          s.renewed run.id (claimExpiry producers s.clock)) := by
  rcases serving.free_eq resumed with ⟨expiry, free⟩
  rw [reuseHeldNamedLock_eq, free, find?_renewed _ (fun _ _ => rfl), resumed.renew]
  cases find? _ _ <;> rfl

theorem reuseClaim_eq (spec : ClaimSpec) (scope : Option RawMessage) (producer : String) :
    ∃ expiry : ClaimHandle → Nat, reuseHeldRunClaim producers run spec scope producer acquired t =
      match chosenRow producers spec scope ((leftHandles s run rest).filter fun r =>
        r.lockKind = .claimScope && r.producerName = some spec.producerName) with
      | none => (.ok none, t)
      | some r => (.ok (some ((r.renewed (expiry r)).reused spec producer "")),
          s.renewed run.id (claimExpiry producers s.clock)) := by
  rcases serving.retained_eq resumed spec.producerName with ⟨expiry, retained⟩
  refine ⟨expiry, ?_⟩
  rw [reuseHeldRunClaim_eq, retained, chosenRow_map, resumed.renew]
  cases chosenRow _ _ _ _ <;> rfl

end

end Serving

section

variable (serving : Serving s run acquired ((request, h) :: rest))

include serving

theorem acquireOneLock_finds (resumed : Resumed run producers s t)
    (finds : request.Finds args producers (leftHandles s run ((request, h) :: rest)) h) :
    ∃ lock, acquireOneLock args producers run nodeType heldSubgraphs acquired request t =
      (.ok (.acquired lock), s.renewed run.id (claimExpiry producers s.clock)) ∧
        lock.claimHandleId = h.id := by
  cases request with
  | named name =>
    unfold LockRequest.Finds at finds
    have reused := serving.reuseNamed_eq resumed name
    rw [firstOf_iff.mp finds] at reused
    exact ⟨{ claimHandleId := h.id, spec := .named name }, bind_of_ok reused, rfl⟩
  | claim spec =>
    rcases finds with ⟨resolves, choice⟩
    rcases Option.isSome_iff_exists.mp resolves with ⟨producer, resolves⟩
    rcases serving.reuseClaim_eq resumed spec (some (Json.raw (.str spec.selector))) producer with
      ⟨expiry, reused⟩
    rw [chosenRow_eq_some.mpr choice] at reused
    refine ⟨(h.renewed (expiry h)).reused spec producer "", ?_, rfl⟩
    unfold acquireOneLock acquireClaim
    simp only [resolves]
    exact bind_of_ok reused

theorem finds_of_acquireOneLock (resumed : Resumed run producers s t)
    (locked : acquireOneLock args producers run nodeType heldSubgraphs acquired request t =
      (.ok (.acquired lock), t'))
    (same : lock.claimHandleId = h.id) :
    request.Finds args producers (leftHandles s run ((request, h) :: rest)) h := by
  have older : h.id < t.nextId := by
    rw [resumed.nextId]
    exact serving.known (request, h) mem_cons_self
  cases request with
  | named name =>
    have reused := serving.reuseNamed_eq resumed name
    unfold LockRequest.Finds
    refine firstOf_iff.mpr ?_
    unfold acquireOneLock at locked
    dsimp only at locked
    split at reused
    next none =>
      rw [bind_of_ok reused] at locked
      dsimp only at locked
      rcases acquireNamedLock_cases run args producers name t with atLimit | ⟨t'', inserted, -⟩
      · rw [bind_of_ok atLimit] at locked
        cases locked
      · rw [bind_of_ok inserted] at locked
        cases locked
        exact absurd same (Nat.ne_of_gt older)
    next r choice =>
      rw [bind_of_ok reused] at locked
      cases locked
      cases serving.eq_of_id (mem_of_find?_eq_some choice) mem_cons_self same
      exact choice
  | claim spec =>
    unfold acquireOneLock acquireClaim at locked
    cases resolves : args.resolveProducer spec.producerName with
    | none =>
      simp only [resolves] at locked
      cases locked
    | some producer =>
    simp only [resolves] at locked
    rcases serving.reuseClaim_eq resumed spec (some (Json.raw (.str spec.selector))) producer with
      ⟨expiry, reused⟩
    refine ⟨by simp [resolves], chosenRow_eq_some.mp ?_⟩
    split at reused
    next none =>
      rw [bind_of_ok reused] at locked
      have notLinked := reuseLinkedSubClaim_eq run producers spec producer acquired t
      rw [serving.linked?_eq_none resumed] at notLinked
      dsimp only at locked
      rw [bind_of_ok notLinked] at locked
      rcases bind_eq_ok.mp locked with ⟨⟨conflicted, persistent⟩, mid, evaluated, opened⟩
      have reads : t = (evaluateClaimScopeConflict producers run spec
          (some (Json.raw (.str spec.selector))) t).2 :=
        reads_evaluateClaimScopeConflict run producers spec _ t
      rw [evaluated] at reads
      cases reads
      split at opened
      · split at opened <;> cases opened
      · rw [openNewClaim_id opened] at same
        exact absurd same (Nat.ne_of_gt older)
    next r choice =>
      rw [bind_of_ok reused] at locked
      cases locked
      have mem := (mem_filter.mp (mem_of_chosenRow choice)).1
      cases serving.eq_of_id mem mem_cons_self same
      exact choice

theorem Serving.next (same : lock.claimHandleId = h.id) :
    Serving s run (acquired ++ [lock]) rest := by
  have absent : h.id ∉ rest.map (·.2.id) := (nodup_cons.mp serving.distinct).1
  refine ⟨fun p mem => serving.opened p (mem_cons_of_mem _ mem), (nodup_cons.mp serving.distinct).2,
    fun p mem => serving.known p (mem_cons_of_mem _ mem), fun r mem => ?_, fun r mem listed => ?_⟩
  · have before := serving.left r mem
    rw [map_append, contains_append, Bool.not_or, before, map_cons, contains_cons]
    by_cases isHere : r.id = h.id
    · simp [isHere, same, absent]
    · simp [isHere, same]
  · have inside := serving.rows r mem (by rw [map_cons, contains_cons, listed, Bool.or_true])
    rcases mem_cons.mp inside with rfl | later
    · exact absurd (contains_iff_mem.mp listed) absent
    · exact later

end

theorem acquireLocks_of_rebinds (serving : Serving s run acquired rest)
    (resumed : Resumed run producers s t)
    (rebinds : Rebinds args producers (s.activeHandles run.id) rest) :
    ∃ locks t', acquireLocks args producers run nodeType heldSubgraphs (rest.map (·.1)) acquired t =
        (.ok (.ok locks), t') ∧
      locks.map (·.claimHandleId) = acquired.map (·.claimHandleId) ++ rest.map (·.2.id) ∧
      Resumed run producers s t' := by
  induction rest generalizing acquired t with
  | nil => exact ⟨acquired, t, rfl, by simp, resumed⟩
  | cons p rest ih =>
    rcases p with ⟨request, h⟩
    rcases rebinds with ⟨finds, later⟩
    rcases acquireOneLock_finds serving resumed finds with ⟨lock, one, same⟩
    rcases ih (serving.next same) Resumed.again later with ⟨locks, t', locked, ids, after⟩
    refine ⟨locks, t', ?_, by simpa [same] using ids, after⟩
    simp only [map_cons, acquireLocks, bind_apply, attempt_apply]
    rw [one]
    exact locked

theorem rebinds_of_acquireLocks (serving : Serving s run acquired rest)
    (resumed : Resumed run producers s t) {locks : List AcquiredLock}
    (locked : acquireLocks args producers run nodeType heldSubgraphs (rest.map (·.1)) acquired t =
      (.ok (.ok locks), t'))
    (ids : locks.map (·.claimHandleId) = acquired.map (·.claimHandleId) ++ rest.map (·.2.id)) :
    Rebinds args producers (s.activeHandles run.id) rest := by
  induction rest generalizing acquired t with
  | nil => trivial
  | cons p rest ih =>
    rcases p with ⟨request, h⟩
    rw [map_cons] at locked
    rcases acquireLocks_cons run producers nodeType heldSubgraphs acquired request
      (rest.map (·.1)) t with ⟨lock, mid, one, later⟩ | ⟨refusal, -, refused⟩
    · rw [later] at locked
      -- the lock stands at the place of its request
      have same : lock.claimHandleId = h.id := by
        rcases acquireLocks_extends run producers nodeType heldSubgraphs (acquired ++ [lock])
          (rest.map (·.1)) mid with ⟨_, _, extended, later, appended⟩
        cases locked.symm.trans extended
        have appended : _ = locks := appended
        rw [← appended] at ids
        simp only [map_append, map_cons, append_assoc, append_cancel_left_eq,
          cons_append, nil_append, cons.injEq] at ids
        exact ids.1
      have finds := finds_of_acquireOneLock serving resumed one same
      rcases acquireOneLock_finds serving resumed finds with ⟨lock', one', -⟩
      cases one.symm.trans one'
      exact ⟨finds, ih (serving.next same) Resumed.again locked (by simpa [same] using ids)⟩
    · cases locked.symm.trans refused

end Request

section Main

variable {args : RunArgs} {producers : Producers} {run : NodeRun} {s : Store}
  {kept : List (LockRequest × ClaimHandle)} {nodeType : String}
    {heldSubgraphs : List HoldingSubgraph}

theorem Store.Retains.serving (retains : s.Retains run.id kept) : Serving s run [] kept := by
  have mem : ∀ r, r ∈ s.activeHandles run.id ↔ r ∈ kept.map (·.2) := fun r => retains.rows.mem_iff
  refine ⟨retains.opened, retains.distinct, retains.known, fun r here => ?_, fun r here _ =>
    (mem r).mp here⟩
  rcases mem_map.mp ((mem r).mp here) with ⟨p, listed, rfl⟩
  exact (contains_iff_mem.mpr (mem_map.mpr ⟨p, listed, rfl⟩)).symm

/--
A run that is acquired again gets for each of its lock specs the handle that the spec opened, with
no handle opened or left out, exactly if every spec finds its own handle among those that it and
the later specs opened.
-/
theorem resume_iff (retains : s.Retains run.id kept) :
    (∃ locks t, acquireLocks args producers run nodeType heldSubgraphs (kept.map (·.1)) [] s =
        (.ok (.ok locks), t) ∧
      locks.map (·.claimHandleId) = kept.map (·.2.id) ∧ t.opens = s.opens ∧
      t.claimHandles.map (·.id) = s.claimHandles.map (·.id)) ↔
    Rebinds args producers (s.activeHandles run.id) kept := by
  constructor
  · rintro ⟨locks, t, locked, ids, -, -⟩
    exact rebinds_of_acquireLocks retains.serving (.inl rfl) locked ids
  · intro rebinds
    have start : Resumed run producers s s := .inl rfl
    rcases acquireLocks_of_rebinds retains.serving start rebinds with ⟨locks, t, locked, ids, after⟩
    exact ⟨locks, t, locked, ids, after.opens, after.ids⟩

end Main

namespace Copier

def requests : List LockRequest :=
  [.named "copying", .claim { producerName := "archive", selector := "from", intent := .r },
    .claim { producerName := "archive", selector := "to" }]

def handles (source target : String) : List ClaimHandle :=
  [{ keptHandle with
    id := 7, lockKind := .named, lockName := some "copying", producerName := none },
    { keptHandle with
      id := 8, claimedAt := 1, claimScopeData := some (Json.raw (.str source)), intent := some .r },
    { keptHandle with
      id := 9, claimedAt := 2, claimScopeData := some (Json.raw (.str target))
      intent := some .rw }]

def store (source target : String) : Store := saverStore (handles source target)

def producers : Producers where
  openClaim := fun _ _ => .available {} ""

def kept (source target : String) : List (LockRequest × ClaimHandle) :=
  requests.zip (handles source target)

theorem retains (source target : String) :
    (store source target).Retains saverRun.id (kept source target) := by
  constructor
  · exact List.Perm.refl _
  · simp [kept, requests, handles, LockRequest.Opened, keptHandle]
  · simp [kept, requests, handles]
  · simp [kept, requests, handles, store, saverStore]

/-- An archive that takes the selectors as they are: the run gets its handles again. -/
theorem resumes :
    (store "from" "to").Retains saverRun.id (kept "from" "to") ∧
      ∃ locks t, acquireLocks saverArgs producers saverRun "copier" [] requests []
        (store "from" "to") =
          (.ok (.ok locks), t) ∧
        locks.map (·.claimHandleId) = [7, 8, 9] ∧ t.opens = [] ∧
          t.claimHandles.map (·.id) = [7, 8, 9] := by
  have copying : FirstOf (fun r => r.lockKind = .named && r.lockName = some "copying")
      (((store "from" "to").activeHandles saverRun.id).filter fun r => [7, 8, 9].contains r.id) _ :=
    firstOf_iff.mpr rfl
  refine ⟨retains _ _, (resume_iff (retains _ _)).mpr ⟨copying, ⟨rfl, .inl ?_⟩,
    ⟨rfl, .inl ?_⟩, trivial⟩⟩
  · exact firstOf_iff.mpr (by decide +kernel)
  · exact firstOf_iff.mpr (by decide +kernel)

/--
An archive that makes paths of the selectors and does not compare scopes: neither claim finds its
handle, so both are opened again, and the handles that were kept are left out.
-/
theorem opens_again :
    (store "/from" "/to").Retains saverRun.id (kept "/from" "/to") ∧
      ¬∃ locks t, acquireLocks saverArgs producers saverRun "copier" [] requests []
        (store "/from" "/to") =
          (.ok (.ok locks), t) ∧
        locks.map (·.claimHandleId) = [7, 8, 9] ∧ t.opens = [] ∧
          t.claimHandles.map (·.id) = [7, 8, 9] := by
  refine ⟨retains _ _, ?_⟩
  rintro ⟨locks, t, locked, -, opens, -⟩
  have opened : (acquireLocks saverArgs producers saverRun "copier" [] requests []
      (store "/from" "/to")).2.opens = [10, 11] := by decide +kernel
  rw [locked, opens] at opened
  cases opened

end Copier

end Rimsky
