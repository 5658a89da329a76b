import Mathlib.Order.Monotone.Basic
import Rimsky.Lib.Keyed
import Rimsky.Lib.Run

/-!
# The cron sensor

`services/sensors/sensor-cron`: a watch, its ticks and the messages the receiver has accepted.
Watches share nothing, so there is one. Times are seconds, the precision of schedules and of
idempotency keys, and 0 is the zero time. The key of a message is its `fire_at`, while the
instants it stands for depend on the clock of the tick that posts it. A message accepted without
the sensor learning it is posted again, and if another instant has come meanwhile, the receiver
ignores the message that stands for it, and the watch moves on.
-/

namespace Rimsky.Cron

open List Function

/-- The message of a fire: its first instant, and how many after it it stands for. -/
structure Message where
  fireAt : Nat
  missedWindows : Nat
  deriving DecidableEq, Repr

inductive Outcome where
  | acknowledged
  /-- Accepted, but the sensor sees an error. -/
  | lost
  | failed
  /-- Not accepted, with a `RejectedError`, after which the message is dropped. -/
  | rejected
  deriving DecidableEq, Repr

structure Tick where
  now : Nat
  outcome : Outcome
  deriving DecidableEq, Repr

structure Sensor where
  nextFireAt : Nat
  /-- By the receiver. -/
  accepted : List Message := []
  clock : Nat := 0
  /-- The clock of the last tick whose post was acknowledged. -/
  lastAcknowledged : Option Nat := none
  deriving DecidableEq, Repr

variable (next : Nat → Nat)

/-- The loop of `coalesceMissedWindows`, for at most a number of rounds. -/
def coalesceFrom (now : Nat) : Nat → Nat → Nat → Nat × Nat
  | 0, missed, at' => (missed, at')
  | rounds + 1, missed, at' =>
    if at' ≤ now then
      let advanced := next at'
      if advanced = 0 ∨ advanced ≤ at' then (missed + 1, advanced)
      else coalesceFrom now rounds (missed + 1) advanced
    else (missed, at')

def coalesceMissedWindows (dueAt now : Nat) : Nat × Nat :=
  coalesceFrom next now (now + 1 - dueAt) 0 dueAt

def receive (m : Message) (accepted : List Message) : List Message :=
  if accepted.any (·.fireAt = m.fireAt) then accepted else accepted ++ [m]

def fireOne (now : Nat) (outcome : Outcome) (s : Sensor) : Sensor :=
  let (missedWindows, caughtUpTo) := coalesceMissedWindows next s.nextFireAt now
  let m : Message := { fireAt := s.nextFireAt, missedWindows := missedWindows - 1 }
  match outcome with
  | .acknowledged =>
    { s with
      nextFireAt := caughtUpTo, accepted := receive m s.accepted, lastAcknowledged := some now }
  | .lost => { s with accepted := receive m s.accepted }
  | .failed => s
  | .rejected => { s with nextFireAt := caughtUpTo }

def Sensor.isDue (s : Sensor) (now : Nat) : Bool := s.nextFireAt ≠ 0 && s.nextFireAt ≤ now

def tick (s : Sensor) (t : Tick) : Option Sensor :=
  if t.now < s.clock then none
  else
    let s := { s with clock := t.now }
    some (if s.isDue t.now then fireOne next t.now t.outcome s else s)

def Message.windows (m : Message) : List Nat :=
  (List.range (m.missedWindows + 1)).map fun k => next^[k] m.fireAt

/-- Every instant up to the last acknowledged tick is in the windows of one accepted message. -/
def Covered (first : Nat) (s : Sensor) : Prop :=
  s.accepted.Nodup ∧ ∀ k, ∀ last ∈ s.lastAcknowledged, next^[k] first ≤ last →
    ∃! m, m ∈ s.accepted ∧ next^[k] first ∈ m.windows next

/--
Where the post moves the watch on, its key is new to the receiver, which accepts it, or no
instant has come since those of the message accepted under the key.
-/
def Answered (s : Sensor) (t : Tick) : Prop :=
  s.isDue t.now → t.outcome = .acknowledged ∨ t.outcome = .rejected →
    (t.outcome = .acknowledged ∧ ∀ m ∈ s.accepted, m.fireAt ≠ s.nextFireAt) ∨
    ∃ m ∈ s.accepted, m.fireAt = s.nextFireAt ∧ t.now < next^[m.missedWindows + 1] m.fireAt

instance (s : Sensor) (t : Tick) : Decidable (Answered next s t) :=
  inferInstanceAs (Decidable (_ → _ → _))

variable {m : Message}

theorem mem_receive {m' : Message} {accepted : List Message} (mem : m ∈ accepted) :
    m ∈ receive m' accepted := by
  unfold receive
  split
  · exact mem
  · exact mem_append_left _ mem

theorem mem_receive_self {accepted : List Message} (new : ∀ m' ∈ accepted, m'.fireAt ≠ m.fireAt) :
    m ∈ receive m accepted := by
  rw [receive, if_neg (by simpa using new)]
  simp

section Coverage

variable {next} (increasing : ∀ t, t < next t)

include increasing

theorem coalesceFrom_spec {now rounds missed at' : Nat} (enough : now + 1 - at' ≤ rounds) :
    ∃ k, coalesceFrom next now rounds missed at' = (missed + k, next^[k] at') ∧
      now < next^[k] at' ∧ ∀ j < k, next^[j] at' ≤ now := by
  induction rounds generalizing missed at' with
  | zero => exact ⟨0, rfl, by simp only [iterate_zero, id_eq]; omega, by simp⟩
  | succ rounds ih =>
    rw [coalesceFrom]
    split
    case isTrue due =>
      have later := increasing at'
      rw [if_neg (by omega)]
      rcases @ih (missed + 1) (next at') (by omega) with ⟨k, run, past, before⟩
      refine ⟨k + 1, by rw [run, iterate_succ_apply]; congr 1; omega, ?_, ?_⟩
      · rwa [iterate_succ_apply]
      · intro j lt
        cases j with
        | zero => exact due
        | succ j =>
          exact before j (by omega)
    case isFalse ahead => exact ⟨0, rfl, by simpa using ahead, by simp⟩

theorem instants_strictMono (first : Nat) : StrictMono fun k => next^[k] first := by
  refine strictMono_nat_of_lt_succ fun k => ?_
  rw [iterate_succ_apply']
  exact increasing _

theorem mem_windows {first a j : Nat} (starts : m.fireAt = next^[a] first) :
    next^[j] first ∈ m.windows next ↔ a ≤ j ∧ j ≤ a + m.missedWindows := by
  simp only [Message.windows, mem_map, mem_range, starts, ← iterate_add_apply]
  constructor
  · rintro ⟨k, lt, same⟩
    have := (instants_strictMono increasing first).injective same
    omega
  · intro within
    exact ⟨j - a, by omega, by congr 2; omega⟩

omit increasing

/-- The instants before the `p`-th are covered, and only its message may be accepted already. -/
structure CaughtUp (next : Nat → Nat) (first p : Nat) (s : Sensor) : Prop where
  due : s.nextFireAt = next^[p] first
  distinct : (s.accepted.map (·.fireAt)).Nodup
  span : ∀ m ∈ s.accepted, ∃ a, m.fireAt = next^[a] first ∧
    (a + m.missedWindows < p ∨ a = p ∧ next^[p + m.missedWindows] first ≤ s.clock)
  once : ∀ j < p, ∃! m, m ∈ s.accepted ∧ next^[j] first ∈ m.windows next
  told : ∀ last ∈ s.lastAcknowledged, last < next^[p] first

namespace CaughtUp

variable {first p : Nat} {s : Sensor} (caught : CaughtUp next first p s)

include caught

theorem later {now : Nat} (le : s.clock ≤ now) : CaughtUp next first p { s with clock := now } where
  due := caught.due
  distinct := caught.distinct
  span m mem := by
    rcases caught.span m mem with ⟨a, starts, ends | ⟨here, ends⟩⟩
    · exact ⟨a, starts, .inl ends⟩
    · exact ⟨a, starts, .inr ⟨here, ends.trans le⟩⟩
  once := caught.once
  told := caught.told

include increasing

theorem receive (starts : m.fireAt = next^[p] first)
    (ends : next^[p + m.missedWindows] first ≤ s.clock) :
    CaughtUp next first p { s with accepted := receive m s.accepted } := by
  unfold Cron.receive
  split
  case isTrue => exact caught
  case isFalse unknown =>
    simp only [any_eq_true, decide_eq_true_eq, not_exists, not_and] at unknown
    refine ⟨caught.due, ?_, ?_, ?_, caught.told⟩
    · exact nodup_key_concat caught.distinct unknown
    · intro m' mem
      rcases mem_append.mp mem with old | new
      · exact caught.span m' old
      · cases mem_singleton.mp new
        exact ⟨p, starts, .inr ⟨rfl, ends⟩⟩
    · intro j lt
      rcases caught.once j lt with ⟨m', ⟨mem, covers⟩, only⟩
      refine ⟨m', ⟨mem_append_left _ mem, covers⟩, ?_⟩
      rintro other ⟨otherMem, otherCovers⟩
      rcases mem_append.mp otherMem with old | new
      · exact only other ⟨old, otherCovers⟩
      · -- the new message starts at the next fire
        cases mem_singleton.mp new
        have := ((mem_windows increasing starts).mp otherCovers).1
        omega

theorem advance (mem : m ∈ s.accepted) (starts : m.fireAt = next^[p] first)
    {acknowledged : Option Nat}
    (told : ∀ last ∈ acknowledged, last < next^[p + m.missedWindows + 1] first) :
    CaughtUp next first (p + m.missedWindows + 1) { s with
      nextFireAt := next^[p + m.missedWindows + 1] first, lastAcknowledged := acknowledged } := by
  have here : ∀ m' ∈ s.accepted, m'.fireAt = next^[p] first → m' = m := fun m' mem' starts' =>
    inj_on_of_nodup_map caught.distinct mem' mem (starts'.trans starts.symm)
  refine ⟨rfl, caught.distinct, ?_, ?_, told⟩
  · intro m' mem'
    rcases caught.span m' mem' with ⟨a, starts', ends | ⟨rfl, -⟩⟩
    · exact ⟨a, starts', .inl (by omega)⟩
    · cases here m' mem' starts'
      exact ⟨a, starts, .inl (by omega)⟩
  · intro j lt
    by_cases old : j < p
    · exact caught.once j old
    · refine ⟨m, ⟨mem, (mem_windows increasing starts).mpr (by omega)⟩, ?_⟩
      rintro m' ⟨mem', covers⟩
      rcases caught.span m' mem' with ⟨a, starts', ends | ⟨rfl, -⟩⟩
      · have := (mem_windows increasing starts').mp covers
        omega
      · exact here m' mem' starts'

theorem fireOne {t : Tick} (clock : s.clock = t.now) (isDue : s.isDue t.now)
    {before : Nat} (answered : Answered next { s with clock := before } t) :
    ∃ p', CaughtUp next first p' (fireOne next t.now t.outcome s) := by
  obtain ⟨k, run, past, earlier⟩ :=
    @coalesceFrom_spec _ increasing t.now _ 0 s.nextFireAt (le_refl _)
  rw [Nat.zero_add, caught.due, ← iterate_add_apply] at run
  rw [caught.due, ← iterate_add_apply] at past
  -- the loop takes at least the instant that is due
  obtain ⟨k, rfl⟩ : ∃ l, k = l + 1 := by
    cases k with
    | zero =>
      simp only [Sensor.isDue, caught.due, Bool.and_eq_true, decide_eq_true_eq] at isDue
      rw [Nat.zero_add] at past
      omega
    | succ l => exact ⟨l, rfl⟩
  have inTime : next^[p + k] first ≤ s.clock := by
    have := earlier k (by omega)
    rwa [caught.due, ← iterate_add_apply, Nat.add_comm, ← clock] at this
  have mono := instants_strictMono increasing first
  have sameEnd : ∀ m ∈ s.accepted, m.fireAt = s.nextFireAt →
      t.now < next^[m.missedWindows + 1] m.fireAt → m.missedWindows = k := by
    intro m mem starts ahead
    rw [starts, caught.due, ← iterate_add_apply] at ahead
    have enough := mono.lt_iff_lt.mp (lt_of_le_of_lt inTime (clock ▸ ahead))
    rcases caught.span m mem with ⟨a, starts', ends⟩
    have here : a = p := mono.injective (starts'.symm.trans (starts.trans caught.due))
    have notMore := mono.lt_iff_lt.mp
      (lt_of_le_of_lt (ends.resolve_left (by omega)).2 (clock ▸ past))
    omega
  have received := caught.receive increasing (m := ⟨next^[p] first, k⟩) rfl inTime
  simp only [Cron.fireOne, coalesceMissedWindows, caught.due, run, Nat.add_sub_cancel]
  have moved : p + k + 1 = k + 1 + p := by omega
  cases outcome : t.outcome with
  | lost => exact ⟨p, caught.due ▸ received⟩
  | failed => exact ⟨p, caught⟩
  | acknowledged =>
    have pending : ∃ m ∈ Cron.receive ⟨next^[p] first, k⟩ s.accepted,
        m.fireAt = next^[p] first ∧ m.missedWindows = k := by
      rcases answered isDue (.inl outcome) with ⟨-, new⟩ | ⟨m, mem, starts, ahead⟩
      · exact ⟨_, mem_receive_self fun m mem => caught.due ▸ new m mem, rfl, rfl⟩
      · exact ⟨m, mem_receive mem, starts.trans caught.due, sameEnd m mem starts ahead⟩
    rcases pending with ⟨m, mem, starts, rfl⟩
    rw [← moved] at past ⊢
    refine ⟨_, received.advance increasing mem starts fun last told => ?_⟩
    cases told
    exact past
  | rejected =>
    rcases answered isDue (.inr outcome) with ⟨acknowledged, -⟩ | ⟨m, mem, starts, ahead⟩
    · cases outcome.symm.trans acknowledged
    · cases sameEnd m mem starts ahead
      rw [← moved] at past ⊢
      refine ⟨_, caught.advance increasing mem (starts.trans caught.due) fun last told => ?_⟩
      exact (caught.told last told).trans (mono (by omega))

end CaughtUp

include increasing

theorem tick_caughtUp {first p : Nat} {s s' : Sensor} {t : Tick} (caught : CaughtUp next first p s)
    (answered : Answered next s t) (step : tick next s t = some s') :
    ∃ p', CaughtUp next first p' s' := by
  unfold tick at step
  split at step
  case isTrue => cases step
  case isFalse forward =>
    cases step
    have later := caught.later (Nat.le_of_not_lt forward)
    split
    case isTrue isDue => exact later.fireOne increasing rfl isDue answered
    case isFalse => exact ⟨p, later⟩

theorem covered_of_answered {first : Nat} {s : Sensor}
    (run : Reaches (tick next) (Answered next) { nextFireAt := first } s) :
    Covered next first s := by
  have caught : ∃ p, CaughtUp next first p s := by
    refine run.invariant (I := fun s => ∃ p, CaughtUp next first p s)
      (fun _ _ _ inv answered step => ?_) ⟨0, rfl, ?_, ?_, ?_, ?_⟩
    · rcases inv with ⟨p, caught⟩
      exact tick_caughtUp increasing caught answered step
    all_goals simp
  rcases caught with ⟨p, caught⟩
  refine ⟨.of_map _ caught.distinct, fun k last acknowledged le => caught.once k ?_⟩
  exact (instants_strictMono increasing first).lt_iff_lt.mp
    (lt_of_le_of_lt le (caught.told last acknowledged))

omit increasing

/--
The acknowledgement of the first fire is lost, and it is posted again before the next instant.
-/
theorem covered_after_retry : ∃ s, s.lastAcknowledged = some 4 ∧
    Reaches (tick (· + 2)) (Answered (· + 2)) { nextFireAt := 1 } s ∧ Covered (· + 2) 1 s := by
  have steps : runAll (tick (· + 2)) (Answered (· + 2))
      [⟨1, .lost⟩, ⟨2, .acknowledged⟩, ⟨4, .acknowledged⟩] { nextFireAt := 1 } =
        some ⟨5, [⟨1, 0⟩, ⟨3, 0⟩], 4, some 4⟩ := by decide +kernel
  have run := reaches_of_runAll steps
  exact ⟨_, rfl, run, covered_of_answered (fun t => by omega) run⟩

/-- An instant comes between the post whose acknowledgement is lost and the next one. -/
theorem instant_never_covered : ∃ s,
    Reaches (tick (· + 1)) (fun _ _ => True) { nextFireAt := 1 } s ∧ ¬Covered (· + 1) 1 s := by
  have steps : runAll (tick (· + 1)) (fun _ _ => True) [⟨1, .lost⟩, ⟨2, .acknowledged⟩]
      { nextFireAt := 1 } = some ⟨3, [⟨1, 0⟩], 2, some 2⟩ := by decide +kernel
  refine ⟨_, reaches_of_runAll steps, fun covered => ?_⟩
  rcases covered.2 1 2 rfl (by decide) with ⟨m, ⟨mem, covers⟩, -⟩
  cases mem_singleton.mp mem
  exact absurd covers (by decide)

end Coverage

end Rimsky.Cron
