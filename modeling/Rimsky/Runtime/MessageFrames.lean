import Rimsky.Runtime.FrameWorld

/-!
# Messages and the frames they trigger

Every message triggers at most one frame and is delivered at most once, and an instance
has at most one open frame, however enqueues, terminations, deliveries and the
transactions of a tick interleave. The tick picks messages in one transaction and opens
their frames in others, so a pick may be out of date when its frame is opened; what keeps
a message from a second frame is that a frame ends only once its trigger is no longer
pending.
-/

namespace Rimsky

open Transaction List FrameWorld

def Message.Before (m m' : Message) : Prop :=
  m.receivedAt < m'.receivedAt ∨ m.receivedAt = m'.receivedAt ∧ m.id < m'.id

variable {m : Message}

theorem Message.Before.not_noLater {m' : Message} (before : m.Before m') : ¬m'.NoLater m := by
  rintro (after | ⟨same, above⟩)
  · rcases before with less | ⟨same, -⟩
    · exact Nat.lt_asymm less after
    · exact Nat.ne_of_gt after same
  · rcases before with less | ⟨-, below⟩
    · exact Nat.ne_of_gt less same
    · exact Nat.not_lt.mpr above below

namespace FrameWorld

variable {w w' : FrameWorld} {action : FrameAction} {c : Change}

structure Tidy (w : FrameWorld) : Prop extends w.Sound where
  settled : ∀ f ∈ w.store.frames, f.endedAt.isSome →
    ∀ m, w.store.message? f.triggeringMessageId = some m → m.isPending = false
  oneOpen : ∀ f ∈ w.store.frames, ∀ g ∈ w.store.frames, f.endedAt = none → g.endedAt = none →
    f.instanceId = g.instanceId → f = g
  triggersDistinct : w.triggers.Nodup
  deliveredTriggers : ∀ m ∈ w.store.messages, m.deliveredAt.isSome → m.id ∈ w.triggers
  unopened : ∀ p ∈ w.picks, p.2 ∉ w.triggers
  picksDistinct : (w.picks.map (·.2)).Nodup

/-- Instance ids are distinct, as they are in the database. -/
def InstancesKeyed (w : FrameWorld) (_ : FrameAction) : Prop :=
  (w.store.instances.map (·.id)).Nodup

section Tidy

variable (tidy : w.Tidy)

include tidy

theorem Tidy.fresh_unopened {p : Id × Id}
    (mem : p ∈ w.query Messages.pickPendingMessagesForIdleInstances) : p.2 ∉ w.triggers := by
  rcases mem_picked mem with ⟨m, mMem, sameId, ofInstance, pending, idle, -⟩
  intro triggered
  rcases mem_map.mp triggered with ⟨f, fMem, trigger⟩
  have found : w.store.message? f.triggeringMessageId = some m := by
    rw [trigger, ← sameId]
    exact message?_of_mem tidy.messageIds mMem
  rcases tidy.owned f fMem with ⟨m', found', sameInstance⟩
  rw [found, Option.some.injEq] at found'
  subst found'
  have ended := idle f fMem (sameInstance.symm.trans ofInstance)
  simp [tidy.settled f fMem ended m found] at pending

theorem Tidy.fresh_distinct (keyed : (w.store.instances.map (·.id)).Nodup) :
    ((w.query Messages.pickPendingMessagesForIdleInstances).map (·.2)).Nodup := by
  have byInstance : ((w.query Messages.pickPendingMessagesForIdleInstances).map (·.1)).Nodup := by
    refine List.Sublist.nodup (.trans (map_fst_filterMap_sublist ?_ _) (filter_sublist.map _)) keyed
    intro inst p picked
    rcases Option.map_eq_some_iff.mp picked with ⟨m, -, rfl⟩
    rfl
  refine List.Nodup.map_on ?_ (List.Nodup.of_map _ byInstance)
  intro p pMem q qMem same
  rcases mem_picked pMem with ⟨m, mMem, sameId, ofInstance, -⟩
  rcases mem_picked qMem with ⟨m', mMem', sameId', ofInstance', -⟩
  have one : m = m' :=
    inj_on_of_nodup_map tidy.messageIds mMem mMem' (by rw [sameId, sameId', same])
  refine Prod.ext ?_ same
  rw [← ofInstance, ← ofInstance', one]

theorem Tidy.moves (keyed : (w.store.instances.map (·.id)).Nodup) (moves : w.Moves action w' c) :
    w'.Tidy where
  toSound := tidy.toSound.moves moves
  settled := by
    intro f' mem ended m' found'
    rcases moves.mem_frames mem with ⟨f, old, rfl⟩ | ⟨-, -, opens⟩
    · rcases tidy.owned f old with ⟨m, found, ofInstance⟩
      rw [(moves.frameKept f).trigger, moves.found found, Option.some.injEq] at found'
      rw [← found']
      cases before : f.endedAt with
      | none => exact moves.ends f old before ended m found ofInstance
      | some time =>
        have settled := tidy.settled f old (by simp [before]) m found
        rw [(moves.messageKept m).settled settled]
        exact settled
    · simp [opens.isOpen] at ended
  oneOpen := by
    intro f' fMem g' gMem fOpen gOpen same
    rcases moves.mem_frames fMem with ⟨f, fOld, rfl⟩ | ⟨-, fOne, fOpens⟩
    · have fWas := (moves.frameKept f).wasOpen fOpen
      rw [(moves.frameKept f).ofInstance] at same
      rcases moves.mem_frames gMem with ⟨g, gOld, rfl⟩ | ⟨-, -, gOpens⟩
      · rw [(moves.frameKept g).ofInstance] at same
        rw [tidy.oneOpen f fOld g gOld fWas ((moves.frameKept g).wasOpen gOpen) same]
      · have ended := gOpens.instanceIdle f fOld same
        simp [fWas] at ended
    · rcases moves.mem_frames gMem with ⟨g, gOld, rfl⟩ | ⟨-, gOne, -⟩
      · rw [(moves.frameKept g).ofInstance] at same
        have ended := fOpens.instanceIdle g gOld same.symm
        simp [(moves.frameKept g).wasOpen gOpen] at ended
      · rw [fOne] at gOne
        exact singleton_inj.mp gOne
  triggersDistinct := by
    rw [moves.triggers]
    rcases moves.opens with none | ⟨-, f, one, opens⟩
    · simpa [none] using tidy.triggersDistinct
    · have unopened := tidy.unopened (f.instanceId, f.triggeringMessageId)
        (by rw [opens.pick]; exact mem_cons_self)
      rw [one]
      exact nodup_append_comm.mpr (nodup_cons.mpr ⟨unopened, tidy.triggersDistinct⟩)
  deliveredTriggers := by
    intro m' mem delivered
    rw [moves.triggers]
    apply mem_append_left
    rw [moves.messages, mem_append, mem_map] at mem
    rcases mem with ⟨m, mem, rfl⟩ | new
    · rw [(moves.messageKept m).id]
      rcases (moves.messageKept m).delivers delivered with before | ⟨f, fMem, trigger, -⟩
      · exact tidy.deliveredTriggers m mem before
      · exact mem_map.mpr ⟨f, fMem, trigger⟩
    · simp [moves.undelivered m' new] at delivered
  unopened := by
    intro p mem
    rw [moves.triggers]
    rcases moves.picks with fewer | ⟨sameStore, fresh⟩
    · have before := tidy.unopened p (fewer.subset mem)
      rcases moves.opens with none | ⟨-, f, one, opens⟩
      · simpa [none] using before
      · have distinct := tidy.picksDistinct
        rw [opens.pick, map_cons, nodup_cons] at distinct
        rw [one, map_singleton, mem_append, mem_singleton]
        rintro (old | new)
        · exact before old
        · exact distinct.1 (mem_map.mpr ⟨p, mem, new⟩)
    · rw [fresh] at mem
      have unopened := tidy.fresh_unopened mem
      rw [← moves.triggers]
      unfold triggers
      rw [sameStore]
      exact unopened
  picksDistinct := by
    rcases moves.picks with fewer | ⟨-, fresh⟩
    · exact (fewer.sublist.map _).nodup tidy.picksDistinct
    · rw [fresh]
      exact tidy.fresh_distinct keyed

end Tidy

/-- An instance has at most one open frame, and a message at most one frame. -/
structure OneFrameEach (w : FrameWorld) : Prop where
  oneOpen : ∀ f ∈ w.store.frames, ∀ g ∈ w.store.frames, f.endedAt = none → g.endedAt = none →
    f.instanceId = g.instanceId → f = g
  oneFrame : w.triggers.Nodup

/-- What does not change any more in a run, and in which order messages trigger frames. -/
structure Onward (w w' : FrameWorld) : Prop where
  /-- Frames keep their triggers. -/
  triggers : w.triggers <+: w'.triggers
  /-- A message that was delivered or cancelled stays as it is. -/
  settled : ∀ id m, w.store.message? id = some m → m.isPending = false →
    w'.store.message? id = some m
  /-- A message cancelled before its pick triggers no frame. -/
  cancelled : ∀ m ∈ w.store.messages, m.cancelled → m.id ∉ w.picks.map (·.2) →
    m.id ∉ w.triggers → m.id ∉ w'.triggers
  /-- Of two waiting messages the first one triggers its frame first, unless it is cancelled. -/
  ordered : ∀ m ∈ w.store.messages, ∀ m' ∈ w.store.messages, m.isPending → m'.isPending →
    m.instanceId = m'.instanceId → m.Before m' → m'.id ∉ w.picks.map (·.2) → m'.id ∉ w.triggers →
    m'.id ∈ w'.triggers →
    (∃ row, w'.store.message? m.id = some row ∧ row.cancelled) ∨ [m.id, m'.id].Sublist w'.triggers

structure StepsOnce (w : FrameWorld) (action : FrameAction) (w' : FrameWorld) : Prop where
  /-- Only a termination and an enqueue to a coalescing instance cancel messages. -/
  cancels : ∀ m ∈ w.store.messages, m.cancelled = false →
    (w'.store.message? m.id).any (·.cancelled) → w.Cancels m.instanceId action
  /-- Only a delivery of its frame delivers a message, and only while it is pending. -/
  delivers : ∀ m ∈ w.store.messages, m.deliveredAt = none →
    (w'.store.message? m.id).any (·.deliveredAt.isSome) → m.isPending ∧
      ∃ f ∈ w.store.frames, f.triggeringMessageId = m.id ∧ action = .deliver f.frameId
  /-- A delivery of a frame whose trigger is not pending does nothing. -/
  redelivers : ∀ f ∈ w.store.frames, action = .deliver f.frameId →
    ¬w.store.triggerPending f → w' = w

section Onward

variable {validateMessageBody : TemplateSpec → String → Option Json → Bool}

/-- Along a run the world stays tidy, and so does what every move of a tidy world keeps. -/
theorem Tidy.along {I : FrameWorld → Prop} (tidy : w.Tidy)
    (run : Reaches (FrameWorld.step validateMessageBody) InstancesKeyed w w') (start : I w)
    (keeps : ∀ w₁ action w₂ c, w₁.Tidy → I w₁ → w₁.Moves action w₂ c → I w₂) :
    w'.Tidy ∧ I w' := by
  refine run.invariant (I := fun w => w.Tidy ∧ I w) ?_ ⟨tidy, start⟩
  rintro w₁ action w₂ ⟨tidy₁, holds⟩ keyed taken
  rcases moves_of_step tidy₁.messageIds tidy₁.keyed taken with ⟨c, moves⟩
  exact ⟨tidy₁.moves keyed moves, keeps w₁ action w₂ c tidy₁ holds moves⟩

theorem Tidy.oneFrameEach (tidy : w.Tidy) : w.OneFrameEach where
  oneOpen := tidy.oneOpen
  oneFrame := tidy.triggersDistinct

theorem Moves.settled (moves : w.Moves action w' c) {id : Id}
    (found : w.store.message? id = some m) (settled : m.isPending = false) :
    w'.store.message? id = some m := by
  rw [moves.found found, (moves.messageKept m).settled settled]

theorem Tidy.moves_untriggered (tidy : w.Tidy) (moves : w.Moves action w' c)
    (found : w.store.message? m.id = some m) (settled : m.isPending = false)
    (unpicked : m.id ∉ w.picks.map (·.2)) (untriggered : m.id ∉ w.triggers) :
    m.id ∉ w'.picks.map (·.2) ∧ m.id ∉ w'.triggers := by
  refine ⟨?_, ?_⟩
  · rcases moves.picks with fewer | ⟨-, fresh⟩
    · exact fun mem => unpicked ((fewer.sublist.map _).subset mem)
    · rw [fresh]
      intro mem
      rcases mem_map.mp mem with ⟨p, pMem, same⟩
      rcases mem_picked pMem with ⟨m', mMem', sameId, -, pending, -⟩
      have found' := message?_of_mem tidy.messageIds mMem'
      rw [sameId, same, found, Option.some.injEq] at found'
      rw [← found', settled] at pending
      exact Bool.noConfusion pending
  · rw [moves.triggers, mem_append]
    rintro (old | new)
    · exact untriggered old
    · rcases moves.opens with none | ⟨-, f, one, opens⟩
      · simp [none] at new
      · rw [one, map_singleton, mem_singleton] at new
        refine unpicked ?_
        rw [opens.pick, map_cons, new]
        exact mem_cons_self

/-- While the later of two messages waits, the earlier one goes first. -/
def Waiting (first second : Message) (w : FrameWorld) : Prop :=
  second.id ∉ w.triggers ∧
    (second.id ∈ w.picks.map (·.2) → ∀ row, w.store.message? first.id = some row →
      row.isPending = false)

/-- The earlier of two messages is cancelled, or its frame is before that of the later one. -/
def WentFirst (first second : Message) (w : FrameWorld) : Prop :=
  (∃ row, w.store.message? first.id = some row ∧ row.cancelled) ∨
    [first.id, second.id].Sublist w.triggers

/-- The row of the message, perhaps delivered or cancelled by now. -/
def Stands (m : Message) (w : FrameWorld) : Prop :=
  ∃ row, w.store.message? m.id = some row ∧ row.id = m.id ∧ row.instanceId = m.instanceId ∧
    row.receivedAt = m.receivedAt

structure Queued (first second : Message) (w : FrameWorld) : Prop where
  before : first.Before second
  sameInstance : first.instanceId = second.instanceId
  row : Stands first w
  row' : Stands second w

section Order

variable {first second : Message} (queued : Queued first second w)

theorem Stands.moves (stands : Stands m w) (moves : w.Moves action w' c) : Stands m w' := by
  rcases stands with ⟨row, found, sameId, ofInstance, received⟩
  have kept := moves.messageKept row
  exact ⟨_, moves.found found, kept.id.trans sameId, kept.ofInstance.trans ofInstance,
    kept.receivedAt.trans received⟩

theorem WentFirst.moves (went : WentFirst first second w) (moves : w.Moves action w' c) :
    WentFirst first second w' := by
  rcases went with ⟨row, found, cancelled⟩ | ordered
  · exact .inl ⟨row, moves.settled found (by simp [Message.isPending, cancelled]), cancelled⟩
  · right
    rw [moves.triggers]
    exact ordered.trans (sublist_append_left _ _)

include queued

theorem Queued.moves (moves : w.Moves action w' c) : Queued first second w' :=
  ⟨queued.before, queued.sameInstance, queued.row.moves moves, queued.row'.moves moves⟩

theorem Queued.picked (tidy : w.Tidy)
    (isPick : second.id ∈ (w.query Messages.pickPendingMessagesForIdleInstances).map (·.2))
    {row : Message} (found : w.store.message? first.id = some row) : row.isPending = false := by
  rcases queued.row with ⟨m, found₁, sameId, ofInstance, received⟩
  rw [found, Option.some.injEq] at found₁
  subst found₁
  rcases queued.row' with ⟨m', found', sameId', ofInstance', received'⟩
  rcases mem_map.mp isPick with ⟨p, pMem, samePick⟩
  rcases mem_picked pMem with ⟨pick, pickMem, pickId, pickInstance, -, -, least⟩
  have isSecond := message?_of_mem tidy.messageIds pickMem
  rw [pickId, samePick, found', Option.some.injEq] at isSecond
  subst isSecond
  by_contra pending
  have sameInstance : row.instanceId = p.1 := by
    rw [← pickInstance, ofInstance', ofInstance, queued.sameInstance]
  have noLater := least row (mem_of_find?_eq_some found) sameInstance (by simpa using pending)
  refine queued.before.not_noLater ?_
  rw [Message.NoLater, received, received', sameId, sameId'] at noLater
  exact noLater

theorem Queued.step (tidy : w.Tidy) (moves : w.Moves action w' c)
    (waiting : Waiting first second w) :
    Waiting first second w' ∨ WentFirst first second w' := by
  rcases queued.row with ⟨row, found, sameId, -, -⟩
  by_cases now : second.id ∈ c.opened.map (·.triggeringMessageId)
  · right
    rcases moves.opens with none | ⟨-, f, one, opens⟩
    · simp [none] at now
    have isSecond : second.id = f.triggeringMessageId := by simpa [one] using now
    have isPick : second.id ∈ w.picks.map (·.2) := by
      rw [opens.pick, map_cons, isSecond]
      exact mem_cons_self
    have settled := waiting.2 isPick row found
    cases delivered : row.deliveredAt with
    | none =>
      have cancelled : row.cancelled := by simpa [Message.isPending, delivered] using settled
      exact .inl ⟨row, moves.settled found settled, cancelled⟩
    | some time =>
      have triggered : first.id ∈ w.triggers := by
        rw [← sameId]
        exact tidy.deliveredTriggers row (mem_of_find?_eq_some found) (by simp [delivered])
      right
      rw [moves.triggers, one, map_singleton, ← isSecond]
      exact (singleton_sublist.mpr triggered).append (List.Sublist.refl _)
  · refine .inl ⟨?_, ?_⟩
    · rw [moves.triggers, mem_append]
      rintro (old | new)
      · exact waiting.1 old
      · exact now new
    · intro isPick
      have settled : row.isPending = false := by
        rcases moves.picks with fewer | ⟨-, fresh⟩
        · exact waiting.2 ((fewer.sublist.map _).subset isPick) row found
        · rw [fresh] at isPick
          exact queued.picked tidy isPick found
      rw [moves.settled found settled]
      rintro _ ⟨⟩
      exact settled

end Order

theorem Tidy.onward (tidy : w.Tidy)
    (run : Reaches (FrameWorld.step validateMessageBody) InstancesKeyed w w') : w.Onward w' where
  triggers := by
    refine (tidy.along (I := fun w' => w.triggers <+: w'.triggers) run prefix_rfl ?_).2
    intro w₁ action w₂ c _ kept moves
    rw [moves.triggers]
    exact kept.trans (prefix_append _ _)
  settled := by
    intro id m found settled
    exact (tidy.along (I := fun w' => w'.store.message? id = some m) run found
      fun _ _ _ _ _ found moves => moves.settled found settled).2
  cancelled := by
    intro m mem cancelled unpicked untriggered
    have settled : m.isPending = false := by simp [Message.isPending, cancelled]
    refine (tidy.along (I := fun w' => w'.store.message? m.id = some m ∧
      m.id ∉ w'.picks.map (·.2) ∧ m.id ∉ w'.triggers) run
      ⟨message?_of_mem tidy.messageIds mem, unpicked, untriggered⟩ ?_).2.2.2
    rintro w₁ action w₂ c tidy₁ ⟨found, unpicked, untriggered⟩ moves
    exact ⟨moves.settled found settled,
      tidy₁.moves_untriggered moves found settled unpicked untriggered⟩
  ordered := by
    intro m mem m' mem' pending pending' sameInstance before unpicked untriggered triggered
    have found := message?_of_mem tidy.messageIds mem
    have found' := message?_of_mem tidy.messageIds mem'
    have queued : Queued m m' w :=
      ⟨before, sameInstance, ⟨m, found, rfl, rfl, rfl⟩, ⟨m', found', rfl, rfl, rfl⟩⟩
    have waiting : Waiting m m' w := ⟨untriggered, fun isPick => absurd isPick unpicked⟩
    have later := tidy.along
      (I := fun w' => Queued m m' w' ∧ (Waiting m m' w' ∨ WentFirst m m' w')) run
      ⟨queued, .inl waiting⟩ ?_
    · rcases later.2.2 with waiting | went
      · exact absurd triggered waiting.1
      · exact went
    · rintro w₁ action w₂ c tidy₁ ⟨queued, waiting | went⟩ moves
      · exact ⟨queued.moves moves, queued.step tidy₁ moves waiting⟩
      · exact ⟨queued.moves moves, .inr (went.moves moves)⟩

theorem Tidy.stepsOnce (tidy : w.Tidy) (taken : w.step validateMessageBody action = some w') :
    w.StepsOnce action w' := by
  rcases moves_of_step tidy.messageIds tidy.keyed taken with ⟨c, moves⟩
  refine ⟨?_, ?_, ?_⟩
  · intro m mem uncancelled cancelled
    rw [moves.found (message?_of_mem tidy.messageIds mem), Option.any_some] at cancelled
    exact ((moves.messageKept m).cancels cancelled).resolve_left (by simp [uncancelled])
  · intro m mem undelivered delivered
    rw [moves.found (message?_of_mem tidy.messageIds mem), Option.any_some] at delivered
    refine ⟨?_, ((moves.messageKept m).delivers delivered).resolve_left (by simp [undelivered])⟩
    by_contra settled
    rw [(moves.messageKept m).settled (by simpa using settled), undelivered] at delivered
    simp at delivered
  · rintro f mem rfl notPending
    have found := frame?_of_mem tidy.keyed mem
    simp only [FrameWorld.step, found] at taken
    cases taken
    rcases delivered_deliverForRunningFrame f.instanceId f.frameId w.store.clock w.store with
      same | ⟨g, m, found', trigger, pending, -⟩
    · rw [after, same]
    · rw [found, Option.some.injEq] at found'
      subst found'
      rcases tidy.owned f mem with ⟨m', trigger', ofInstance⟩
      rw [trigger, Option.some.injEq] at trigger'
      subst trigger'
      exact absurd ⟨m, trigger, pending, ofInstance⟩ notPending

theorem tidy_start (noFrames : w.store.frames = []) (noMessages : w.store.messages = [])
    (idle : w.tick = .idle) : w.Tidy where
  toSound := sound_start noFrames noMessages idle
  settled := by simp [noFrames]
  oneOpen := by simp [noFrames]
  triggersDistinct := by simp [triggers, noFrames]
  deliveredTriggers := by simp [noMessages]
  unopened := by simp [picks, idle]
  picksDistinct := by simp [picks, idle]

end Onward

end FrameWorld

/--
In every run, however its steps interleave: an instance has at most one open frame; a message
triggers at most one frame and is delivered at most once; one that is cancelled before it is picked
triggers none; waiting messages of an instance trigger their frames in the order of their
reception; and they are cancelled only by a termination or by coalescing.
-/
theorem oneMessageOneFrame {validateMessageBody : TemplateSpec → String → Option Json → Bool}
    {start w w' : FrameWorld} (noFrames : start.store.frames = [])
    (noMessages : start.store.messages = []) (idle : start.tick = .idle)
    (before : Reaches (FrameWorld.step validateMessageBody) FrameWorld.InstancesKeyed start w)
    (later : Reaches (FrameWorld.step validateMessageBody) FrameWorld.InstancesKeyed w w') :
    w.OneFrameEach ∧ w.Onward w' ∧
      ∀ action next, w.step validateMessageBody action = some next → w.StepsOnce action next := by
  have tidy : w.Tidy := ((tidy_start noFrames noMessages idle).along before trivial
    fun _ _ _ _ _ _ _ => trivial).1
  exact ⟨tidy.oneFrameEach, tidy.onward later, fun action next taken => tidy.stepsOnce taken⟩

def backlogWorld : FrameWorld where
  store := { instances := [{ id := 1, template := { nodes := [] } }], nextId := 10 }

instance (w : FrameWorld) (action : FrameAction) : Decidable (w.InstancesKeyed action) :=
  inferInstanceAs (Decidable (List.Nodup _))

/-- Two messages, the later one enqueued first, and the tick that opens a frame. -/
def backlogged : List FrameAction :=
  [operatorMessage 3 1, operatorMessage 2 0, .tick, .tick, .tick]

theorem backlogged_oneFrame :
    ∃ w, runAll (FrameWorld.step fun _ _ _ => true) FrameWorld.InstancesKeyed backlogged
      backlogWorld =
        some w ∧ w.triggers = [2] ∧ w.OneFrameEach := by
  have opened : (runAll (step fun _ _ _ => true) FrameWorld.InstancesKeyed backlogged
      backlogWorld).any (fun w => w.triggers = [2]) := by decide +kernel
  rcases (Option.any_eq_true _ _).mp opened with ⟨w, run, triggers⟩
  have reached := reaches_of_runAll run
  exact ⟨w, run, of_decide_eq_true triggers, (oneMessageOneFrame rfl rfl rfl reached (.refl w)).1⟩

/--
A message of a backlog, cancelled by the termination of its instance before its frame is opened.
-/
def terminatedBacklog : List FrameAction := [operatorMessage 2 0, .tick, .tick, .terminate 1, .tick]

/-- A termination cancels the messages of a backlog, also one whose frame is then opened. -/
theorem terminatedBacklog_cancels :
    ∃ w, Reaches (FrameWorld.step fun _ _ _ => true) FrameWorld.InstancesKeyed backlogWorld w ∧
      (∀ inst ∈ w.store.instances, inst.messageQueueMode = .backlog) ∧
      ∃ m ∈ w.store.messages, m.cancelled ∧ m.deliveredAt = none ∧ m.id ∈ w.triggers := by
  have cancelled : (runAll (step fun _ _ _ => true) FrameWorld.InstancesKeyed
      terminatedBacklog backlogWorld).any (fun w =>
        (∀ inst ∈ w.store.instances, inst.messageQueueMode = .backlog) ∧
        ∃ m ∈ w.store.messages, m.cancelled ∧ m.deliveredAt = none ∧ m.id ∈ w.triggers) := by
    decide +kernel
  rcases (Option.any_eq_true _ _).mp cancelled with ⟨w, run, shown⟩
  exact ⟨w, reaches_of_runAll run, of_decide_eq_true shown⟩

end Rimsky
