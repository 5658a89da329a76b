import Rimsky.Lib.Fifo
import Rimsky.Lib.Keyed
import Rimsky.Lib.Run
import Rimsky.Persistence.Claims

/-!
# Delivering producer verbs

`runtime/producer_verb_outbox.go`: verbs for producers wait in a table, numbered as they are
inserted. Dispatchers list the table and deliver row by row; a row that fails or is not due
blocks its scope for the rest of the pass. Before a claim is opened, a barrier delivers the rows
whose scopes conflict with it, in the transaction of the acquisition.

A row has its number from the insert, but others see it only once its transaction commits.
-/

namespace Rimsky

open List Function

variable {pass : Pass} {b : Barrier} {row : OutboxRow} {s' : Outbox} {d : Nat}

namespace VerbOutbox

def producerVerbScopeKey (producerName scope : String) : String := producerName ++ "\x00" ++ scope

/-- `producerVerbBackoff`: doubled with every attempt, up to a limit. -/
def producerVerbBackoff (attemptCount base max : Nat) : Nat :=
  let base := if base = 0 then 1 else base
  let max := if max = 0 then 60 else max
  let backoff := (List.range (attemptCount - 1)).foldl
    (fun backoff _ => if max ≤ backoff then backoff else backoff * 2) base
  min backoff max

inductive PassWrite where
  | record (seq nextAttemptAt : Nat) (lastError : String)
  | delete (seq : Nat)
  deriving DecidableEq

/-- A pass of `DispatchOnce`: the rows of its snapshot that are left, and the blocked scopes. -/
structure Pass where
  rows : List OutboxRow := []
  blocked : List String := []
  now : Nat := 0
  write : Option PassWrite := none
  deriving DecidableEq

/-- A transaction with barriers: the rows still to be delivered, and those deleted in it. -/
structure Barrier where
  rows : List OutboxRow := []
  deleted : List Nat := []
  deriving DecidableEq

/--
The table as it is committed, the rows of transactions that are not, and the dispatchers and
barriers. The tickets of all rows ever committed and of all successful deliveries are recorded.
-/
structure Outbox where
  rows : List OutboxRow := []
  uncommitted : List OutboxRow := []
  nextSeq : Nat := 1
  passes : Nat → Pass := fun _ => {}
  barriers : Nat → Barrier := fun _ => {}
  published : List (Ticket (String × String)) := []
  delivered : List (Ticket (String × String)) := []

inductive Act where
  | enqueue (row : OutboxRow)
  | publish (seq : Nat)
  | discard (seq : Nat)
  | list (dispatcher now : Nat)
  | deliver (dispatcher : Nat) (outcome : Except String Unit)
  | write (dispatcher : Nat) (ok : Bool)
  | barrier (id : Nat) (producerName : String) (conflicts : String → Bool)
  | drain (id : Nat) (outcome : Except String Unit)
  | commit (id : Nat)
  | rollback (id : Nat)

section Steps

variable (bytes : Option RawMessage → String) (base max : Nat)

def scopeOf (row : OutboxRow) : String × String := (row.producerName, bytes row.claimScopeData)

def ticketOf (row : OutboxRow) : Ticket (String × String) := ⟨row.seq, scopeOf bytes row⟩

def bySeq (rows : List OutboxRow) : List OutboxRow := rows.insertionSort fun r r' => r.seq ≤ r'.seq

def enqueue (s : Outbox) (row : OutboxRow) : Outbox :=
  if (s.rows ++ s.uncommitted).any fun r => r.claimHandleId = row.claimHandleId &&
    r.verb = row.verb then s
  else { s with
    uncommitted := s.uncommitted ++ [{ row with seq := s.nextSeq }], nextSeq := s.nextSeq + 1 }

def publish (s : Outbox) (seq : Nat) : Option Outbox :=
  (s.uncommitted.find? (·.seq = seq)).map fun row => { s with
    rows := s.rows ++ [row], uncommitted := s.uncommitted.filter (·.seq ≠ seq)
    published := s.published ++ [ticketOf bytes row] }

/-- One row of a pass, up to what is written after its delivery. -/
def deliver (s : Outbox) (d : Nat) (outcome : Except String Unit) : Option Outbox :=
  let pass := s.passes d
  match pass.write, pass.rows with
  | none, row :: rest =>
    let key := producerVerbScopeKey row.producerName (bytes row.claimScopeData)
    let passOver : Pass := { pass with rows := rest, blocked := key :: pass.blocked }
    if pass.blocked.contains key then
      some { s with passes := Function.update s.passes d { pass with rows := rest } }
    else if pass.now < row.nextAttemptAt then
      some { s with passes := Function.update s.passes d passOver }
    else
      match outcome with
      | .error text =>
        let next := pass.now + producerVerbBackoff (row.attemptCount + 1) base max
        some { s with
          passes := Function.update s.passes d { passOver with
            write := some (.record row.seq next text) } }
      | .ok () => some { s with
          delivered := s.delivered ++ [ticketOf bytes row]
          passes := Function.update s.passes d { pass with
            rows := rest, write := some (.delete row.seq) } }
  | _, _ => none

/-- `RecordAttempt` or `Delete` after a delivery; a pass ends if it cannot delete. -/
def write (s : Outbox) (d : Nat) (ok : Bool) : Option Outbox :=
  let pass := s.passes d
  let go : Nat → Pass := Function.update s.passes d { pass with write := none }
  match pass.write with
  | none => none
  | some (.record seq nextAttemptAt lastError) =>
    some { s with
      passes := go
      rows := if ok then s.rows.map fun r =>
          if r.seq = seq then { r with
            attemptCount := r.attemptCount + 1, nextAttemptAt, lastError } else r
        else s.rows }
  | some (.delete seq) =>
    if ok then some { s with passes := go, rows := s.rows.filter (·.seq ≠ seq) }
    else some { s with passes := Function.update s.passes d {} }

def openBarrier (s : Outbox) (id : Nat) (producerName : String) (conflicts : String → Bool) :
    Option Outbox :=
  let b := s.barriers id
  if b.rows.isEmpty then
    let rows := (bySeq s.rows).filter fun row =>
      row.producerName = producerName && conflicts (bytes row.claimScopeData) &&
        !b.deleted.contains row.seq
    some { s with barriers := Function.update s.barriers id { b with rows } }
  else none

/-- One row of a barrier; a failure rolls its transaction back. -/
def drain (s : Outbox) (id : Nat) (outcome : Except String Unit) : Option Outbox :=
  let b := s.barriers id
  match b.rows with
  | [] => none
  | row :: rest =>
    match outcome with
    | .error _ => some { s with barriers := Function.update s.barriers id {} }
    | .ok () => some { s with
        delivered := s.delivered ++ [ticketOf bytes row]
        barriers := Function.update s.barriers id {
          rows := rest, deleted := b.deleted ++ [row.seq] } }

def commit (s : Outbox) (id : Nat) : Option Outbox :=
  let b := s.barriers id
  if b.rows.isEmpty then some { s with
    rows := s.rows.filter fun r => !b.deleted.contains r.seq
    barriers := Function.update s.barriers id {} }
  else none

def next (s : Outbox) : Act → Option Outbox
  | .enqueue row => some (enqueue s row)
  | .publish seq => publish bytes s seq
  | .discard seq => some { s with uncommitted := s.uncommitted.filter (·.seq ≠ seq) }
  | .list d now => some { s with
    passes := Function.update s.passes d { rows := bySeq s.rows, now } }
  | .deliver d outcome => deliver bytes base max s d outcome
  | .write d ok => write s d ok
  | .barrier id producerName conflicts => openBarrier bytes s id producerName conflicts
  | .drain id outcome => drain bytes s id outcome
  | .commit id => commit s id
  | .rollback id => some { s with barriers := Function.update s.barriers id {} }

/-- A row is committed after all rows of its scope with smaller numbers. -/
def InSeqOrder (s : Outbox) : Act → Prop
  | .publish seq => ∀ row ∈ s.uncommitted, row.seq = seq →
      ∀ t ∈ s.published, t.key = scopeOf bytes row → t.seq < seq
  | _ => True

/-- A table of any content, with nothing going on. -/
structure Outbox.Start (s : Outbox) : Prop where
  distinct : (s.rows.map (·.seq)).Nodup
  bounded : ∀ row ∈ s.rows, row.seq < s.nextSeq
  uncommitted : s.uncommitted = []
  passes : ∀ d, s.passes d = {}
  barriers : ∀ id, s.barriers id = {}
  published : s.published = s.rows.map (ticketOf bytes)
  delivered : s.delivered = []

structure Accounted (s : Outbox) : Prop where
  one : ∀ t ∈ s.published, ∀ u ∈ s.published, t.seq = u.seq → t = u
  bounded : ∀ t ∈ s.published, t.seq < s.nextSeq
  known : ∀ row ∈ s.rows, ticketOf bytes row ∈ s.published
  servedKnown : ∀ t ∈ s.delivered, t ∈ s.published
  left : ∀ t ∈ s.published, t ∈ s.delivered ∨ ∃ row ∈ s.rows, ticketOf bytes row = t
  fresh : ∀ row ∈ s.uncommitted, row.seq < s.nextSeq ∧ ∀ t ∈ s.published, t.seq ≠ row.seq
  freshOnce : (s.uncommitted.map (·.seq)).Nodup
  inOrder : ServedInOrder s.published s.delivered

def Pass.isOpen (pass : Pass) (scope : String × String) : Prop :=
  producerVerbScopeKey scope.1 scope.2 ∉ pass.blocked

section Parties

variable (published delivered : List (Ticket (String × String)))

/-- A party has listed `rows`, and says of the numbers in `finished` that they are served. -/
structure Fits (isOpen : String × String → Prop) (finished : Nat → Prop) (rows : List OutboxRow) :
    Prop where
  known : ∀ row ∈ rows, ticketOf bytes row ∈ published
  ready : Ready published delivered isOpen (rows.map (ticketOf bytes))
  done : ∀ seq, finished seq → ∃ t ∈ delivered, t.seq = seq

abbrev Pass.Fits (pass : Pass) : Prop :=
  VerbOutbox.Fits bytes published delivered pass.isOpen (fun seq => pass.write = some (.delete seq))
    pass.rows

abbrev Barrier.Fits (b : Barrier) : Prop :=
  VerbOutbox.Fits bytes published delivered (fun _ => True) (· ∈ b.deleted) b.rows

end Parties

structure Sound (s : Outbox) : Prop where
  accounted : Accounted bytes s
  passes : ∀ d, (s.passes d).Fits bytes s.published s.delivered
  barriers : ∀ id, (s.barriers id).Fits bytes s.published s.delivered

end Steps

variable {bytes : Option RawMessage → String} {base max : Nat} {s : Outbox}

section Parties

variable {published delivered : List (Ticket (String × String))} {t : Ticket (String × String)}

theorem Pass.Fits.idle : ({} : Pass).Fits bytes published delivered :=
  ⟨by simp, Ready.nil, by simp⟩

theorem Barrier.Fits.idle : ({} : Barrier).Fits bytes published delivered :=
  ⟨by simp, Ready.nil, by simp⟩

variable {isOpen : String × String → Prop} {finished : Nat → Prop} {rows : List OutboxRow}

theorem Fits.serve (fits : Fits bytes published delivered isOpen finished rows) :
    Fits bytes published (delivered ++ [t]) isOpen finished rows := by
  refine ⟨fits.known, fits.ready.serve t, fun seq said => ?_⟩
  rcases fits.done seq said with ⟨u, mem, same⟩
  exact ⟨u, mem_append_left _ mem, same⟩

theorem Fits.publish (fits : Fits bytes published delivered isOpen finished rows)
    (latest : ∀ u ∈ published, u.key = t.key → u.seq < t.seq) :
    Fits bytes (published ++ [t]) delivered isOpen finished rows := by
  refine ⟨fun row mem => mem_append_left _ (fits.known row mem), ?_, fits.done⟩
  refine fits.ready.publish (fun u mem => ?_) latest
  rcases mem_map.mp mem with ⟨row, here, rfl⟩
  exact fits.known row here

theorem Pass.Fits.passOver {pass' : Pass} {rest : List OutboxRow}
    (fits : pass.Fits bytes published delivered) (rows : pass.rows = row :: rest)
    (rows' : pass'.rows = rest)
    (blocks : producerVerbScopeKey row.producerName (bytes row.claimScopeData) ∈ pass'.blocked)
    (more : ∀ key ∈ pass.blocked, key ∈ pass'.blocked)
    (writes : ∀ seq, pass'.write ≠ some (.delete seq)) : pass'.Fits bytes published delivered := by
  refine ⟨fun r mem => ?_, ?_, fun seq write => absurd write (writes seq)⟩
  · rw [rows'] at mem
    exact fits.known r (by simp [rows, mem])
  · have ready := fits.ready
    rw [rows, map_cons] at ready
    rw [rows']
    exact ready.passed_head (fun scope opened blocked => opened (more _ blocked)) fun opened =>
      opened blocks

end Parties

variable {rows : List OutboxRow}

theorem mem_bySeq : row ∈ bySeq rows ↔ row ∈ rows :=
  mem_insertionSort _

theorem bySeq_sorted (rows : List OutboxRow) :
    ((bySeq rows).map (ticketOf bytes)).Pairwise fun t u => t.seq ≤ u.seq := by
  exact pairwise_map.mpr (pairwise_insertionSort _ rows)

namespace Accounted

variable (accounted : Accounted bytes s)

include accounted

theorem ticket_eq (mem : row ∈ s.rows) {t : Ticket (String × String)} (known : t ∈ s.delivered)
    (same : t.seq = row.seq) : ticketOf bytes row = t :=
  accounted.one _ (accounted.known row mem) t (accounted.servedKnown t known) same.symm

theorem rewrite (change : OutboxRow → OutboxRow)
    (sameTicket : ∀ row, ticketOf bytes (change row) = ticketOf bytes row) :
    Accounted bytes { s with rows := s.rows.map change } := by
  refine { accounted with known := fun row mem => ?_, left := fun t mem => ?_ }
  · rcases mem_map.mp mem with ⟨old, here, rfl⟩
    rw [sameTicket]
    exact accounted.known old here
  · rcases accounted.left t mem with done | ⟨row, here, same⟩
    · exact .inl done
    · exact .inr ⟨change row, mem_map_of_mem here, (sameTicket row).trans same⟩

theorem filter {keep : OutboxRow → Bool}
    (delivered : ∀ row ∈ s.rows, keep row = false → ∃ t ∈ s.delivered, t.seq = row.seq) :
    Accounted bytes { s with rows := s.rows.filter keep } := by
  refine { accounted with
    known := fun row mem => accounted.known row (mem_filter.mp mem).1, left := fun t mem => ?_ }
  rcases accounted.left t mem with done | ⟨row, here, same⟩
  · exact .inl done
  · cases kept : keep row with
    | true => exact .inr ⟨row, mem_filter.mpr ⟨here, kept⟩, same⟩
    | false =>
      rcases delivered row here kept with ⟨u, done, seq⟩
      have one := accounted.ticket_eq here done seq
      exact .inl (same ▸ one ▸ done)

theorem serve (known : ticketOf bytes row ∈ s.published)
    (first : ∀ u ∈ s.published, u.key = scopeOf bytes row → u.seq < row.seq → u ∈ s.delivered) :
    Accounted bytes { s with delivered := s.delivered ++ [ticketOf bytes row] } := by
  refine { accounted with
    servedKnown := fun t mem => ?_, left := fun t mem => ?_, inOrder :=
      accounted.inOrder.serve first }
  · rcases mem_append.mp mem with old | new
    · exact accounted.servedKnown t old
    · exact mem_singleton.mp new ▸ known
  · exact (accounted.left t mem).imp_left fun done => mem_append_left _ done

end Accounted

namespace Sound

variable (sound : Sound bytes s)

include sound

theorem setPass (fits : pass.Fits bytes s.published s.delivered) :
    Sound bytes { s with passes := Function.update s.passes d pass } := by
  refine ⟨{ sound.accounted with }, fun d' => ?_, sound.barriers⟩
  by_cases same : d' = d
  · simpa only [same, update_self] using fits
  · simpa only [update_of_ne same] using sound.passes d'

theorem setBarrier {id : Nat} (fits : b.Fits bytes s.published s.delivered) :
    Sound bytes { s with barriers := Function.update s.barriers id b } := by
  refine ⟨{ sound.accounted with }, sound.passes, fun id' => ?_⟩
  by_cases same : id' = id
  · simpa only [same, update_self] using fits
  · simpa only [update_of_ne same] using sound.barriers id'

theorem relist (accounted : Accounted bytes { s with rows }) :
    Sound bytes { s with rows } :=
  ⟨accounted, sound.passes, sound.barriers⟩

theorem serve (known : ticketOf bytes row ∈ s.published)
    (first : ∀ u ∈ s.published, u.key = scopeOf bytes row → u.seq < row.seq → u ∈ s.delivered) :
    Sound bytes { s with delivered := s.delivered ++ [ticketOf bytes row] } :=
  ⟨sound.accounted.serve known first, fun d => (sound.passes d).serve,
    fun id => (sound.barriers id).serve⟩

theorem enqueue (row : OutboxRow) : Sound bytes (enqueue s row) := by
  unfold VerbOutbox.enqueue
  split
  · exact sound
  · have accounted := sound.accounted
    refine ⟨{ accounted with bounded := ?_, fresh := ?_, freshOnce := ?_ }, sound.passes,
      sound.barriers⟩
    · exact fun t mem => Nat.lt_succ_of_lt (accounted.bounded t mem)
    · intro r mem
      rcases mem_append.mp mem with old | new
      · exact ⟨Nat.lt_succ_of_lt (accounted.fresh r old).1, (accounted.fresh r old).2⟩
      · cases mem_singleton.mp new
        exact ⟨Nat.lt_succ_self _, fun t known => Nat.ne_of_lt (accounted.bounded t known)⟩
    · exact nodup_key_concat accounted.freshOnce fun r mem => Nat.ne_of_lt (accounted.fresh r mem).1

theorem publish {seq : Nat} (inOrder : InSeqOrder bytes s (.publish seq))
    (taken : publish bytes s seq = some s') : Sound bytes s' := by
  rcases Option.map_eq_some_iff.mp taken with ⟨row, found, rfl⟩
  have mem : row ∈ s.uncommitted := mem_of_find?_eq_some found
  have same : row.seq = seq := by simpa using find?_some found
  have accounted := sound.accounted
  have latest : ∀ u ∈ s.published, u.key = (ticketOf bytes row).key →
      u.seq < (ticketOf bytes row).seq := by
    intro u known key
    have older := inOrder row mem same u known key
    rwa [← same] at older
  have new : ∀ t ∈ s.published, t.seq ≠ row.seq := (accounted.fresh row mem).2
  refine ⟨⟨?_, ?_, ?_, ?_, ?_, ?_, ?_, ?_⟩, fun d => (sound.passes d).publish latest,
    fun id => (sound.barriers id).publish latest⟩
  · intro t tMem u uMem sameSeq
    rcases mem_append.mp tMem with tOld | tNew <;> rcases mem_append.mp uMem with uOld | uNew
    · exact accounted.one t tOld u uOld sameSeq
    · cases mem_singleton.mp uNew
      exact absurd sameSeq (new t tOld)
    · cases mem_singleton.mp tNew
      exact absurd sameSeq.symm (new u uOld)
    · rw [mem_singleton.mp tNew, mem_singleton.mp uNew]
  · intro t tMem
    rcases mem_append.mp tMem with old | added
    · exact accounted.bounded t old
    · cases mem_singleton.mp added
      exact (accounted.fresh row mem).1
  · intro r rMem
    rcases mem_append.mp rMem with old | added
    · exact mem_append_left _ (accounted.known r old)
    · cases mem_singleton.mp added
      simp
  · exact fun t done => mem_append_left _ (accounted.servedKnown t done)
  · intro t tMem
    rcases mem_append.mp tMem with old | added
    · rcases accounted.left t old with done | ⟨r, here, sameTicket⟩
      · exact .inl done
      · exact .inr ⟨r, mem_append_left _ here, sameTicket⟩
    · exact .inr ⟨row, by simp, (mem_singleton.mp added).symm⟩
  · intro r rMem
    rcases mem_filter.mp rMem with ⟨old, other⟩
    refine ⟨(accounted.fresh r old).1, fun t tMem => ?_⟩
    rcases mem_append.mp tMem with known | added
    · exact (accounted.fresh r old).2 t known
    · cases mem_singleton.mp added
      have apart : r.seq ≠ seq := by simpa using other
      exact fun sameSeq => apart (sameSeq.symm.trans same)
  · exact accounted.freshOnce.sublist (filter_sublist.map _)
  · exact accounted.inOrder.publish accounted.servedKnown latest

theorem discard (seq : Nat) :
    Sound bytes { s with uncommitted := s.uncommitted.filter (·.seq ≠ seq) } := by
  have accounted := sound.accounted
  refine ⟨{ accounted with fresh := ?_, freshOnce := ?_ }, sound.passes, sound.barriers⟩
  · exact fun row mem => accounted.fresh row (mem_filter.mp mem).1
  · exact accounted.freshOnce.sublist (filter_sublist.map _)

theorem ready_of_listed (picked : String × String → Bool) {isOpen : String × String → Prop}
    (sorted : (rows.map (ticketOf bytes)).Pairwise fun t u => t.seq ≤ u.seq)
    (listed : ∀ row ∈ s.rows, picked (scopeOf bytes row) → row ∈ rows ∨
      ∃ t ∈ s.delivered, t.seq = row.seq)
    (only : ∀ row ∈ rows, picked (scopeOf bytes row)) :
    Ready s.published s.delivered isOpen (rows.map (ticketOf bytes)) := by
  refine Ready.of_sorted picked sorted (fun t known => ?_) fun t mem => ?_
  · rcases sound.accounted.left t known with done | ⟨row, here, rfl⟩
    · exact .inl done
    · by_cases chosen : picked (scopeOf bytes row) = true
      · rcases listed row here chosen with inside | ⟨u, done, seq⟩
        · exact .inr fun _ => mem_map_of_mem inside
        · rw [sound.accounted.ticket_eq here done seq]
          exact .inl done
      · exact .inr fun picks => absurd picks chosen
  · rcases mem_map.mp mem with ⟨row, here, rfl⟩
    exact only row here

theorem list (d now : Nat) :
    Sound bytes { s with passes := Function.update s.passes d { rows := bySeq s.rows, now } } := by
  refine sound.setPass ⟨fun row mem => ?_, ?_, by simp⟩
  · exact sound.accounted.known row (mem_bySeq.mp mem)
  · exact sound.ready_of_listed (fun _ => true) (bySeq_sorted _)
      (fun row mem _ => .inl (mem_bySeq.mpr mem)) fun _ _ => rfl

theorem deliver {outcome : Except String Unit}
    (taken : deliver bytes base max s d outcome = some s') : Sound bytes s' := by
  have fits := sound.passes d
  unfold VerbOutbox.deliver at taken
  cases quiet : (s.passes d).write with
  | some _ => simp [quiet] at taken
  | none =>
  cases rows : (s.passes d).rows with
  | nil => simp [quiet, rows] at taken
  | cons row rest =>
    simp only [quiet, rows] at taken
    split_ifs at taken with blocked early
    · cases taken
      refine sound.setPass ?_
      exact fits.passOver rows rfl (by simpa using blocked) (fun _ mem => mem) (by simp)
    · cases taken
      refine sound.setPass ?_
      exact fits.passOver rows rfl (by simp) (fun _ mem => mem_cons_of_mem _ mem) (by simp)
    · cases outcome with
      | error text =>
        cases taken
        refine sound.setPass ?_
        exact fits.passOver rows rfl (by simp) (fun _ mem => mem_cons_of_mem _ mem) (by simp)
      | ok =>
        cases taken
        have ready := fits.ready
        rw [rows, map_cons] at ready
        have known : ticketOf bytes row ∈ s.published := fits.known row (by simp [rows])
        have opened : (s.passes d).isOpen (ticketOf bytes row).key :=
          fun mem => blocked (contains_iff_mem.mpr mem)
        have served := sound.serve known (ready.head opened)
        refine served.setPass ⟨?_, ?_, ?_⟩
        · exact fun r mem => fits.known r (by simp [rows, mem])
        · exact ready.served_head
        · rintro seq ⟨⟩
          exact ⟨ticketOf bytes row, by simp, rfl⟩

theorem write {ok : Bool} (taken : write s d ok = some s') : Sound bytes s' := by
  have fits := sound.passes d
  have resumed : ({ s.passes d with write := none } : Pass).Fits bytes s.published s.delivered :=
    ⟨fits.known, fits.ready, by simp⟩
  unfold VerbOutbox.write at taken
  cases pending : (s.passes d).write with
  | none => simp [pending] at taken
  | some change =>
  simp only [pending] at taken
  cases change with
  | record seq nextAttemptAt lastError =>
    cases taken
    cases ok with
    | false => exact sound.setPass resumed
    | true =>
      refine (sound.relist (sound.accounted.rewrite _ ?_)).setPass resumed
      intro row
      split <;> rfl
  | delete seq =>
    cases ok with
    | true =>
      cases taken
      refine (sound.relist (sound.accounted.filter fun row mem gone => ?_)).setPass resumed
      have same : row.seq = seq := by simpa using gone
      rw [same]
      exact fits.done seq pending
    | false =>
      cases taken
      exact sound.setPass Pass.Fits.idle

theorem openBarrier {id : Nat} {producerName : String} {conflicts : String → Bool}
    (taken : openBarrier bytes s id producerName conflicts = some s') : Sound bytes s' := by
  have fits := sound.barriers id
  unfold VerbOutbox.openBarrier at taken
  dsimp only at taken
  split_ifs at taken
  · cases taken
    refine sound.setBarrier ⟨?_, ?_, fits.done⟩
    · exact fun row mem => sound.accounted.known row (mem_bySeq.mp (mem_filter.mp mem).1)
    · refine sound.ready_of_listed
        (fun scope => scope.1 = producerName && conflicts scope.2) ?_ (fun row mem picks => ?_)
        fun row mem => ?_
      · exact (bySeq_sorted s.rows).sublist (filter_sublist.map _)
      · by_cases gone : row.seq ∈ (s.barriers id).deleted
        · exact .inr (fits.done row.seq gone)
        · refine .inl (mem_filter.mpr ⟨mem_bySeq.mpr mem, ?_⟩)
          have both : (row.producerName = producerName && conflicts (bytes row.claimScopeData)) =
              true := picks
          simpa [gone] using both
      · exact ((Bool.and_eq_true _ _).mp (mem_filter.mp mem).2).1

theorem drain {id : Nat} {outcome : Except String Unit}
    (taken : drain bytes s id outcome = some s') : Sound bytes s' := by
  have fits := sound.barriers id
  unfold VerbOutbox.drain at taken
  cases rows : (s.barriers id).rows with
  | nil => simp [rows] at taken
  | cons row rest =>
    simp only [rows] at taken
    cases outcome with
    | error text =>
      cases taken
      exact sound.setBarrier Barrier.Fits.idle
    | ok =>
      cases taken
      have ready := fits.ready
      rw [rows, map_cons] at ready
      have known : ticketOf bytes row ∈ s.published := fits.known row (by simp [rows])
      have served := sound.serve known (ready.head trivial)
      refine served.setBarrier ⟨?_, ?_, ?_⟩
      · exact fun r mem => fits.known r (by simp [rows, mem])
      · exact ready.served_head
      · intro seq mem
        rcases mem_append.mp mem with old | new
        · rcases fits.done seq old with ⟨t, done, same⟩
          exact ⟨t, mem_append_left _ done, same⟩
        · exact ⟨ticketOf bytes row, by simp, (mem_singleton.mp new).symm⟩

theorem commit {id : Nat} (taken : commit s id = some s') : Sound bytes s' := by
  have fits := sound.barriers id
  unfold VerbOutbox.commit at taken
  dsimp only at taken
  split_ifs at taken
  · cases taken
    refine (sound.relist (sound.accounted.filter fun row mem gone => ?_)).setBarrier
      Barrier.Fits.idle
    exact fits.done row.seq (by simpa using gone)

theorem next {act : Act} (inOrder : InSeqOrder bytes s act)
    (taken : next bytes base max s act = some s') : Sound bytes s' := by
  cases act with
  | enqueue row =>
    cases taken
    exact sound.enqueue row
  | publish seq => exact sound.publish inOrder taken
  | discard seq =>
    cases taken
    exact sound.discard seq
  | list d now =>
    cases taken
    exact sound.list d now
  | deliver d outcome => exact sound.deliver taken
  | write d ok => exact sound.write taken
  | barrier id producerName conflicts => exact sound.openBarrier taken
  | drain id outcome => exact sound.drain taken
  | commit id => exact sound.commit taken
  | rollback id =>
    cases taken
    exact sound.setBarrier Barrier.Fits.idle

end Sound

theorem Outbox.Start.sound (start : s.Start bytes) : Sound bytes s := by
  refine ⟨⟨?_, ?_, ?_, ?_, ?_, ?_, ?_, ?_⟩, fun d => ?_, fun id => ?_⟩
  · intro t tMem u uMem same
    rw [start.published] at tMem uMem
    rcases mem_map.mp tMem with ⟨r, rMem, rfl⟩
    rcases mem_map.mp uMem with ⟨r', rMem', rfl⟩
    rw [inj_on_of_nodup_map start.distinct rMem rMem' same]
  · intro t mem
    rw [start.published] at mem
    rcases mem_map.mp mem with ⟨row, here, rfl⟩
    exact start.bounded row here
  · intro row mem
    rw [start.published]
    exact mem_map_of_mem mem
  · simp [start.delivered]
  · intro t mem
    rw [start.published] at mem
    rcases mem_map.mp mem with ⟨row, here, same⟩
    exact .inr ⟨row, here, same⟩
  · simp [start.uncommitted]
  · simp [start.uncommitted]
  · simp [ServedInOrder, start.delivered]
  · rw [start.passes]
    exact Pass.Fits.idle
  · rw [start.barriers]
    exact Barrier.Fits.idle

/--
Verbs of one producer and scope are delivered in the order of their numbers, and none leaves the
table undelivered, in runs where the rows of a scope are committed in that order too.
-/
theorem delivered_in_order {s₀ : Outbox} (start : s₀.Start bytes)
    (run : Reaches (VerbOutbox.next bytes base max) (InSeqOrder bytes) s₀ s) :
    ServedInOrder s.published s.delivered ∧
      ∀ t ∈ s.published, t ∈ s.delivered ∨ ∃ row ∈ s.rows, ticketOf bytes row = t := by
  have sound : Sound bytes s :=
    run.invariant (fun _ _ _ sound inOrder taken => sound.next inOrder taken) start.sound
  exact ⟨sound.accounted.inOrder, sound.accounted.left⟩

instance (s : Outbox) : (act : Act) → Decidable (InSeqOrder bytes s act)
  | .publish _ => inferInstanceAs (Decidable (∀ _ ∈ _, _))
  | .enqueue _ | .discard _ | .list .. | .deliver .. | .write .. | .barrier .. | .drain ..
  | .commit _ | .rollback _ => .isTrue trivial

def verbOf (handle : Id) : OutboxRow where
  seq := 0
  claimHandleId := handle
  producerName := "pool"
  verb := .release
  supervisorId := "supervisor"
  nextAttemptAt := 0

/-- A dispatcher whose first delivery fails leaves the scope to another one. -/
theorem retried_in_order : ∃ s, Reaches (VerbOutbox.next (fun _ => "") 1 60)
    (InSeqOrder fun _ => "") {} s ∧
    s.delivered.map (·.seq) = [1, 2] ∧ s.rows = [] ∧ ServedInOrder s.published s.delivered := by
  let run : List Act := [.enqueue (verbOf 7), .enqueue (verbOf 8), .publish 1, .publish 2,
    .list 0 0, .list 1 0,
    .deliver 0 (.error "unreachable"), .write 0 true, .deliver 0 (.ok ()), .deliver 1 (.ok ()),
      .write 1 true,
    .deliver 1 (.ok ()), .write 1 true]
  have ends : (runAll (VerbOutbox.next (fun _ => "") 1 60)
      (InSeqOrder fun _ => "") run {}).any fun s =>
      s.delivered.map (·.seq) = [1, 2] && s.rows.isEmpty := by
    decide +kernel
  rcases exists_reaches_of_runAll ends with ⟨s, reached, fits⟩
  have both : s.delivered.map (·.seq) = [1, 2] ∧ s.rows = [] := by simpa using fits
  have start : ({} : Outbox).Start fun _ => "" :=
    ⟨by simp, by simp, rfl, fun _ => rfl, fun _ => rfl, rfl, rfl⟩
  exact ⟨s, reached, both.1, both.2, (delivered_in_order start reached).1⟩

/--
Two transactions queue a verb for one scope, and the second commits first: a dispatcher delivers
its verb before it can see the other.
-/
theorem later_number_delivered_first :
    ∃ s, Reaches (VerbOutbox.next (fun _ => "") 1 60) (fun _ _ => True) {} s ∧
      s.delivered.map (·.seq) = [2, 1] ∧ ¬ServedInOrder s.published s.delivered := by
  let run : List Act := [.enqueue (verbOf 7), .enqueue (verbOf 8), .publish 2, .list 0 0,
    .deliver 0 (.ok ()), .write 0 true, .publish 1, .list 0 1, .deliver 0 (.ok ()), .write 0 true]
  have ends : (runAll (VerbOutbox.next (fun _ => "") 1 60) (fun _ _ => True) run {}).any fun s =>
      s.published = [⟨2, ("pool", "")⟩, ⟨1, ("pool", "")⟩] && s.delivered = s.published := by
    decide +kernel
  rcases exists_reaches_of_runAll ends with ⟨s, reached, fits⟩
  have both : s.published = [⟨2, ("pool", "")⟩, ⟨1, ("pool", "")⟩] ∧ s.delivered = s.published := by
    simpa using fits
  refine ⟨s, reached, by rw [both.2, both.1]; rfl, fun inOrder => ?_⟩
  rw [both.2, both.1] at inOrder
  have early := inOrder [] ⟨2, ("pool", "")⟩ _ rfl ⟨1, ("pool", "")⟩ (by simp) rfl (by simp)
  cases early

end VerbOutbox

end Rimsky
