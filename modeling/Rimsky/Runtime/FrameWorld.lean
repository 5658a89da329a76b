import Rimsky.Graph.Frame
import Rimsky.Lib.Keyed
import Rimsky.Lib.Run
import Rimsky.Runtime.MessageDelivery

/-!
# Frames under all interleavings

Messages are enqueued, scheduler ticks end and open frames, sweeps deliver triggers and
runs settle, each in transactions of its own. Ticks are serialised, so a tick is a phase
that other actions interleave with. A settlement, and anything else the runtime does to
runs, is any change of the store that leaves frames and messages alone.
-/

namespace Rimsky

open Transaction List Store

variable {s s' : Store} {instanceId messageId : Id} {m : Message}

/-- Where the scheduler tick stands, with the rest of the list it is working through. -/
inductive TickPhase where
  | idle
  | ending (frames : List Id)
  | opening (picks : List (Id × Id))
  | reaping (orphans : List (Id × String))
  deriving DecidableEq, Repr

structure FrameWorld where
  store : Store
  tick : TickPhase := .idle

inductive FrameAction where
  | enqueue (req : Message)
  | tick
  | deliver (frameId : Id)
  | settle (after : Store)
  | terminate (instanceId : Id)

namespace FrameWorld

def after {α : Type} (w : FrameWorld) (m : Tx α) : Store := (commit m w.store).2

def query {α : Type} (w : FrameWorld) (m : Tx (List α)) : List α :=
  match (commit m w.store).1 with
  | .ok rows => rows
  | .error _ => []

/-- The next transaction of the tick (`RunTick`). -/
def tickStep (w : FrameWorld) : FrameWorld :=
  match w.tick with
  | .idle => { w with
      tick := .ending ((w.query Frames.listRunningFramesNoPendingNodes).map (·.frameId)) }
  | .ending (frameId :: rest) =>
    { store := w.after (transitionFrameEnd frameId), tick := .ending rest }
  | .ending [] => { w with
      tick := .opening (w.query Messages.pickPendingMessagesForIdleInstances) }
  | .opening ((instanceId, messageId) :: rest) =>
    { store := w.after (openRunningFrameForMessage instanceId messageId), tick := .opening rest }
  | .opening [] => { w with
      tick := .reaping ((w.query Frames.listOrphanFrameDispatches).filterMap fun r =>
        r.claimedBy.map fun claimedBy => (r.id, claimedBy)) }
  | .reaping ((runId, claimedBy) :: rest) =>
    { store := w.after (Queue.releaseClaim runId claimedBy), tick := .reaping rest }
  | .reaping [] => { w with tick := .idle }

end FrameWorld

/-- The part of an administrative termination that is about messages and frames. -/
def terminateInstance (instanceId : Id) : Tx Unit := do
  match ← read (·.instance? instanceId) with
  | none => fail .notFound
  | some inst =>
    if inst.terminatedAt.isNone then
      Messages.cancelPendingForInstance instanceId
      Frames.markOpenFramesEndedForInstance instanceId
      write fun s => { s with
        instances := s.instances.map fun inst =>
          if inst.id = instanceId then { inst with terminatedAt := some s.clock } else inst }

/-- One step; a settlement that touches frames or messages is not one. -/
def FrameWorld.step (validateMessageBody : TemplateSpec → String → Option Json → Bool)
    (w : FrameWorld) : FrameAction → Option FrameWorld
  | .enqueue req => some { w with store := w.after (enqueueMessage validateMessageBody req) }
  | .tick => some w.tickStep
  | .deliver frameId =>
    match w.store.frame? frameId with
    | none => none
    | some frame => some { w with
        store := w.after (deliverForRunningFrame frame.instanceId frameId w.store.clock) }
  | .settle after =>
    if after.frames = w.store.frames ∧ after.messages = w.store.messages ∧
      w.store.nextId ≤ after.nextId then some { w with store := after }
    else none
  | .terminate instanceId => some { w with store := w.after (terminateInstance instanceId) }

def Store.triggerPending (s : Store) (f : Frame) : Prop :=
  ∃ m, s.message? f.triggeringMessageId = some m ∧ m.isPending ∧ m.instanceId = f.instanceId

instance (s : Store) (f : Frame) : Decidable (s.triggerPending f) :=
  decidable_of_iff ((s.message? f.triggeringMessageId).any fun m =>
    m.isPending && m.instanceId = f.instanceId) (by simp [Store.triggerPending, Option.any_eq_true])

def Store.endsNow (s : Store) (f : Frame) : Prop :=
  ∃ f' ∈ (commit (transitionFrameEnd f.frameId) s).2.frames,
    f'.frameId = f.frameId ∧ f'.endedAt.isSome

instance (s : Store) (f : Frame) : Decidable (s.endsNow f) :=
  inferInstanceAs (Decidable (∃ _ ∈ _, _))

/-- Every open frame with nothing in flight is delivered to or ended yet. -/
def Store.NoWedgedFrame (s : Store) : Prop :=
  ∀ f ∈ s.frames, f.endedAt = none → s.frameInFlight f.frameId = false →
    s.triggerPending f ∨ s.endsNow f

instance (s : Store) : Decidable s.NoWedgedFrame :=
  inferInstanceAs (Decidable (∀ _ ∈ _, _))

/--
The steps that keep frames alive: no message is enqueued to a coalescing instance while a
trigger of it waits for delivery, and no frame is opened for a message that was cancelled
since it was picked.
-/
def FrameWorld.Allowed (w : FrameWorld) : FrameAction → Prop
  | .enqueue req =>
    (w.store.instance? req.instanceId).any (·.messageQueueMode = .coalesce) →
      ∀ f ∈ w.store.frames, f.instanceId = req.instanceId → f.endedAt = none →
        ¬ w.store.triggerPending f
  | .tick =>
    match w.tick with
    | .opening ((_, messageId) :: _) => ∀ m ∈ w.store.message? messageId, m.cancelled = false
    | _ => True
  | _ => True

instance (w : FrameWorld) (action : FrameAction) : Decidable (w.Allowed action) := by
  unfold FrameWorld.Allowed
  cases action with
  | tick => dsimp only; split <;> infer_instance
  | _ => infer_instance

def KeepsFrames (s s' : Store) : Prop :=
  s'.frames = s.frames ∧ s'.messages = s.messages ∧ s.nextId ≤ s'.nextId

instance : IsPreorder Store KeepsFrames where
  refl _ := ⟨rfl, rfl, le_rfl⟩
  trans _ _ _ first second :=
    ⟨second.1.trans first.1, second.2.1.trans first.2.1, first.2.2.trans second.2.2⟩

theorem keepsFrames_newId : Steps KeepsFrames newId :=
  steps_reads fun _ => steps_bind (steps_write fun _ => ⟨rfl, rfl, Nat.le_succ _⟩)
    fun _ => steps_pure _

theorem keepsFrames_putRuns (runs : List NodeRun) : Steps KeepsFrames (putRuns runs) :=
  steps_ite (fun _ => steps_write fun _ => ⟨rfl, rfl, le_rfl⟩) fun _ => steps_fail _

theorem keepsFrames_updateRuns (guard : Store → NodeRun → Bool) (change : Nat → NodeRun → NodeRun) :
    Steps KeepsFrames (updateRuns guard change) :=
  steps_reads fun _ => steps_bind (keepsFrames_putRuns _) fun _ => steps_pure _

theorem keepsFrames_insertRun (r : NodeRun) : Steps KeepsFrames (insertRun r) :=
  steps_reads fun _ => keepsFrames_putRuns _

theorem keepsFrames_write_attributes (fresh : Store → NodeAttributes)
    (change : Store → NodeAttributes → NodeAttributes) :
    Steps KeepsFrames (write fun s => s.upsertAttributes (fresh s) (change s) : Tx Unit) := by
  intro s
  simp only [write_apply, upsertAttributes]
  split <;> exact ⟨rfl, rfl, le_rfl⟩

theorem keepsFrames_createNonCascadeStale (input : Nodes.NonCascadeStaleInput) :
    Steps KeepsFrames (Nodes.createNonCascadeStale input) := by
  refine steps_check fun _ => steps_check fun _ => ?_
  refine steps_bind keepsFrames_newId fun _ => steps_reads fun s => ?_
  refine steps_ite (fun _ => ?_) fun _ => ?_
  · refine steps_bind (keepsFrames_insertRun _) fun _ => ?_
    refine steps_bind ?_ fun _ => steps_pure _
    exact steps_reads fun _ => keepsFrames_write_attributes _ _
  · refine steps_bind ?_ fun _ => steps_fail _
    exact steps_reads fun scope => by cases scope <;> exact steps_pure _

theorem keepsFrames_deliverNamedMessageInTx (instanceId frameId : Id) (msg : Message)
    (rootRunScopeId now : Nat) :
    Steps KeepsFrames (deliverNamedMessageInTx instanceId frameId msg rootRunScopeId now) := by
  refine steps_reads fun receiver => ?_
  cases receiver with
  | none => exact steps_pure _
  | some receiver =>
    refine steps_bind (keepsFrames_createNonCascadeStale _) fun _ => ?_
    exact steps_bind (keepsFrames_write_attributes _ _) fun _ => keepsFrames_write_attributes _ _

theorem keepsFrames_closeSettledFrameScopeTree (rootRunScopeId : Id) :
    Steps KeepsFrames (closeSettledFrameScopeTree rootRunScopeId) := by
  refine steps_reads fun tree => steps_forM fun scope _ => ?_
  exact steps_ite (fun _ => steps_write fun _ => ⟨rfl, rfl, le_rfl⟩) fun _ => steps_pure _

theorem keepsFrames_releaseClaim (runId : Id) (claimedBy : String) :
    Steps KeepsFrames (Queue.releaseClaim runId claimedBy) :=
  steps_bind (keepsFrames_updateRuns _ _) fun _ => steps_pure _

def Store.framesKeyed (s : Store) : Prop :=
  (s.frames.map (·.frameId)).Nodup ∧ ∀ f ∈ s.frames, f.frameId < s.nextId

theorem frame?_of_mem (keyed : s.framesKeyed) {f : Frame} (mem : f ∈ s.frames) :
    s.frame? f.frameId = some f :=
  find?_key keyed.1 mem

theorem message?_of_mem (ids : (s.messages.map (·.id)).Nodup) (mem : m ∈ s.messages) :
    s.message? m.id = some m :=
  find?_key ids mem

theorem message?_of_found {change : Message → Message} {extra : List Message}
    (changed : s'.messages = s.messages.map change ++ extra)
    (sameId : ∀ m, (change m).id = m.id) {id : Id} (found : s.message? id = some m) :
    s'.message? id = some (change m) := by
  unfold message? at found ⊢
  rw [changed, find?_append, find?_key_map sameId, found]
  rfl

structure Frame.Advances (f f' : Frame) : Prop where
  id : f'.frameId = f.frameId
  ofInstance : f'.instanceId = f.instanceId
  trigger : f'.triggeringMessageId = f.triggeringMessageId
  wasOpen : f'.endedAt = none → f.endedAt = none

theorem Frame.advances_refl (f : Frame) : Frame.Advances f f :=
  ⟨rfl, rfl, rfl, fun isOpen => isOpen⟩

def Frame.endedWhere (ends : Frame → Bool) (now : Nat) (f : Frame) : Frame :=
  if ends f && f.endedAt.isNone then { f with endedAt := some now } else f

section Ended

variable {ends : Frame → Bool} {now : Nat}

theorem Frame.endedWhere_advances (f : Frame) : Frame.Advances f (f.endedWhere ends now) := by
  unfold Frame.endedWhere
  split
  · exact ⟨rfl, rfl, rfl, by simp⟩
  · exact f.advances_refl

theorem Frame.endedWhere_isSome {f : Frame} (isOpen : f.endedAt = none) :
    (f.endedWhere ends now).endedAt.isSome ↔ ends f := by
  unfold Frame.endedWhere
  split
  case isTrue fits => simp [(Bool.and_eq_true_iff.mp fits).1]
  case isFalse kept => simpa [isOpen] using kept

theorem Frame.endedWhere_none : Frame.endedWhere (fun _ => false) now = id := by
  funext f
  simp [Frame.endedWhere]

end Ended

def Message.cancelledFor (instanceId : Id) (m : Message) : Message :=
  if m.instanceId = instanceId && m.isPending then { m with cancelled := true } else m

theorem Message.cancelledFor_id (instanceId : Id) (m : Message) :
    (m.cancelledFor instanceId).id = m.id := by
  unfold Message.cancelledFor
  split <;> rfl

theorem Message.cancelledFor_settled (m : Message) :
    (m.cancelledFor m.instanceId).isPending = false := by
  unfold Message.cancelledFor
  split
  · simp [Message.isPending]
  case isFalse settled => simpa using settled

def Message.deliveredIn (messageId frameId now : Nat) (m : Message) : Message :=
  if m.id = messageId && m.isPending then
    { m with deliveredAt := some now, frameId := some frameId } else m

/-! ## What the transactions do to frames and messages -/

structure Enqueued (req : Message) (s s' : Store) (change : Message → Message)
    (extra : List Message) : Prop where
  frames : s'.frames = s.frames
  nextId : s'.nextId = s.nextId
  messages : s'.messages = s.messages.map change ++ extra
  distinct : (s.messages.map (·.id) ++ extra.map (·.id)).Nodup
  undelivered : ∀ m ∈ extra, m.deliveredAt = none
  cancels : change = id ∨ change = Message.cancelledFor req.instanceId ∧
    (s.instance? req.instanceId).any (·.messageQueueMode = .coalesce)

theorem messages_insert (message : Message) (s : Store) :
    (∃ e, Messages.insert message s = (.error e, s)) ∨
      message.id ∉ s.messages.map (·.id) ∧
      Messages.insert message s = (.ok (), { s with messages := s.messages ++ [message] }) := by
  simp only [Messages.insert, read_bind]
  split
  · exact .inl ⟨_, rfl⟩
  case isFalse new =>
    split
    · exact .inl ⟨_, rfl⟩
    · refine .inr ⟨?_, rfl⟩
      intro mem
      rcases mem_map.mp mem with ⟨m, mem, same⟩
      exact new (find?_isSome.mpr ⟨m, mem, by simp [same]⟩)

theorem enqueued_enqueueMessage (validateMessageBody : TemplateSpec → String → Option Json → Bool)
    (req : Message) (ids : (s.messages.map (·.id)).Nodup) :
    ∃ change extra,
      Enqueued req s (commit (enqueueMessage validateMessageBody req) s).2 change extra := by
  have refused : ∃ change extra, Enqueued req s s change extra :=
    ⟨id, [], rfl, rfl, by simp, by simpa using ids, by simp, .inl rfl⟩
  have inserted {m : Tx Unit} {message : Message} {change : Message → Message}
      (run : m s = Messages.insert message { s with messages := s.messages.map change })
      (undelivered : message.deliveredAt = none) (sameId : ∀ m, (change m).id = m.id)
      (cancels : change = id ∨ change = Message.cancelledFor req.instanceId ∧
        (s.instance? req.instanceId).any (·.messageQueueMode = .coalesce)) :
      ∃ change extra, Enqueued req s (commit m s).2 change extra := by
    unfold commit
    rw [run]
    rcases messages_insert message { s with messages := s.messages.map change } with
      ⟨e, run⟩ | ⟨new, run⟩
    · rw [run]
      exact refused
    · rw [run]
      refine ⟨change, [message], rfl, rfl, rfl, ?_, by simpa using undelivered, cancels⟩
      rw [map_key_of_map sameId] at new
      exact nodup_append_comm.mpr (nodup_cons.mpr ⟨new, ids⟩)
  unfold enqueueMessage
  -- the checks that refuse the request before anything is written
  split
  · exact refused
  split
  · exact refused
  split
  · exact refused
  split
  · exact refused
  split
  · exact refused
  have afterRead (k : Option Instance → Tx Unit) :
      commit (read (·.instance? req.instanceId) >>= k) s =
        commit (k (s.instance? req.instanceId)) s := rfl
  rw [afterRead]
  split
  · exact refused
  split
  case isTrue coalesces =>
    exact inserted rfl rfl (Message.cancelledFor_id _) (.inr ⟨rfl, coalesces⟩)
  case isFalse =>
    have unchanged : { s with messages := s.messages.map id } = s := by rw [map_id]
    exact inserted (congrArg (Messages.insert _) unchanged.symm) rfl (fun _ => rfl) (.inl rfl)

theorem opened_openRunningFrameForMessage (instanceId messageId : Id) (s : Store) :
    (commit (openRunningFrameForMessage instanceId messageId) s).2 = s ∨
    ∃ (f : Frame) (runScopes : List RunScope),
      (commit (openRunningFrameForMessage instanceId messageId) s).2 =
        { s with frames := s.frames ++ [f], runScopes, nextId := f.frameId + 1 } ∧
      s.nextId ≤ f.frameId ∧ f.instanceId = instanceId ∧ f.triggeringMessageId = messageId ∧
      f.endedAt = none ∧ ∀ g ∈ s.frames, g.instanceId = instanceId → g.endedAt.isSome := by
  unfold commit
  split
  case h_2 => exact .inl rfl
  case h_1 frameId s' run =>
    right
    rcases bind_eq_ok.mp run with ⟨rootRunScopeId, s₁, fresh, run⟩
    rcases bind_eq_ok.mp run with ⟨_, s₂, created, run⟩
    cases fresh
    simp only [RunScopes.create, read_bind] at created
    split at created
    case isFalse => simp at created
    case isTrue =>
      cases created
      rcases bind_eq_ok.mp run with ⟨_, s₃, fresh, run⟩
      cases fresh
      simp only [read_bind] at run
      split at run
      case isTrue => simp at run
      case isFalse idle =>
        split at run
        case isTrue => simp at run
        case isFalse =>
          cases run
          refine ⟨_, _, rfl, Nat.le_succ _, rfl, rfl, rfl, ?_⟩
          intro g mem ofInstance
          by_contra isOpen
          exact idle (any_eq_true.mpr ⟨g, mem, by simpa [ofInstance] using isOpen⟩)

theorem terminated_terminateInstance (instanceId : Id) (s : Store) :
    (commit (terminateInstance instanceId) s).2 = s ∨
    ∃ instances, (commit (terminateInstance instanceId) s).2 = { s with
      instances, messages := s.messages.map (Message.cancelledFor instanceId)
      frames := s.frames.map (Frame.endedWhere (·.instanceId = instanceId) s.clock) } := by
  have afterRead (k : Option Instance → Tx Unit) :
      commit (read (·.instance? instanceId) >>= k) s = commit (k (s.instance? instanceId)) s := rfl
  unfold terminateInstance
  rw [afterRead]
  split
  · exact .inl rfl
  split
  · exact .inr ⟨_, rfl⟩
  · exact .inl rfl

/-- Frames are ended whose triggers are delivered, and messages are left alone. -/
def EndsDelivered (s s' : Store) : Prop :=
  ∃ ends : Frame → Bool, s'.messages = s.messages ∧ s.nextId ≤ s'.nextId ∧
    s'.frames = s.frames.map (Frame.endedWhere ends s.clock) ∧
    ∀ f ∈ s.frames, ends f →
      ∀ m, s.message? f.triggeringMessageId = some m → m.deliveredAt.isSome

theorem endsDelivered_transitionFrameEnd (keyed : s.framesKeyed) (frameId : Id) :
    EndsDelivered s (commit (transitionFrameEnd frameId) s).2 := by
  have unmoved : EndsDelivered s s := ⟨fun _ => false, by simp [Frame.endedWhere_none]⟩
  unfold commit
  split
  case h_2 => exact unmoved
  case h_1 _ s' run =>
    simp only [transitionFrameEnd, read_bind] at run
    cases found : s.frame? frameId with
    | none =>
      simp only [found] at run
      rcases bind_eq_ok.mp run with ⟨ended, mid, ending, rest⟩
      cases rest
      cases ending
      refine ⟨_, rfl, Nat.le_refl _, rfl, ?_⟩
      intro f mem fits
      simp only [Bool.and_eq_true, decide_eq_true_eq] at fits
      have other := find?_eq_none.mp found f mem
      simp [fits.1] at other
    | some frame =>
      cases trigger : s.message? frame.triggeringMessageId with
      | none =>
        simp only [found, read_bind, trigger] at run
        cases run
        exact unmoved
      | some msg =>
        simp only [found, read_bind, trigger] at run
        split at run
        case isFalse =>
          cases run
          exact unmoved
        case isTrue delivered =>
          rcases bind_eq_ok.mp run with ⟨ended, mid, ending, rest⟩
          have closes : Steps KeepsFrames (if ended = true then
              closeSettledFrameScopeTree frame.rootRunScopeId else pure ()) :=
            steps_ite (fun _ => keepsFrames_closeSettledFrameScopeTree _) fun _ => steps_pure _
          have kept := closes.run rest
          cases ending
          refine ⟨_, kept.2.1, kept.2.2, kept.1, ?_⟩
          intro f mem fits m found'
          simp only [Bool.and_eq_true, decide_eq_true_eq] at fits
          have same : s.frame? f.frameId = some f := frame?_of_mem keyed mem
          rw [fits.1, found, Option.some.injEq] at same
          rw [← same, trigger, Option.some.injEq] at found'
          rw [← found']
          exact delivered

theorem deliverTriggeringMessage_cases (instanceId frameId messageId now : Nat) (s : Store) :
    deliverTriggeringMessage instanceId frameId messageId now s = (.ok none, s) ∨
    ∃ m, s.message? messageId = some m ∧ m.isPending ∧
      ∃ result, deliverTriggeringMessage instanceId frameId messageId now s = (.ok result,
        { s with messages := s.messages.map (Message.deliveredIn messageId frameId now) }) := by
  simp only [deliverTriggeringMessage, read_bind]
  cases found : s.message? messageId with
  | none => exact .inl rfl
  | some m =>
    dsimp only
    split
    · exact .inl rfl
    split
    · exact .inl rfl
    case isFalse undelivered =>
      refine .inr ⟨m, rfl, ?_, ?_⟩
      · simp only [Bool.or_eq_true, not_or, Bool.not_eq_true, Option.isSome_eq_false_iff]
          at undelivered
        simp [Message.isPending, undelivered]
      · have marks : ∃ marked, Messages.markDelivered messageId frameId now s = (.ok marked,
            { s with messages := s.messages.map (Message.deliveredIn messageId frameId now) }) :=
          ⟨_, rfl⟩
        rcases marks with ⟨marked, marks⟩
        rw [bind_of_ok marks]
        cases marked <;> exact ⟨_, rfl⟩

theorem delivered_deliverForRunningFrame (instanceId frameId now : Nat) (s : Store) :
    (commit (deliverForRunningFrame instanceId frameId now) s).2 = s ∨
    ∃ f m, s.frame? frameId = some f ∧ s.message? f.triggeringMessageId = some m ∧ m.isPending ∧
      KeepsFrames { s with
          messages := s.messages.map (Message.deliveredIn f.triggeringMessageId frameId now) }
        (commit (deliverForRunningFrame instanceId frameId now) s).2 := by
  unfold commit
  split
  case h_2 => exact .inl rfl
  case h_1 _ s' run =>
    simp only [deliverForRunningFrame, read_bind] at run
    split at run
    case isFalse =>
      cases run
      exact .inl rfl
    case isTrue =>
      cases found : s.frame? frameId with
      | none =>
        simp only [found, read_bind] at run
        cases run
        exact .inl rfl
      | some frame =>
        simp only [found, read_bind] at run
        rcases deliverTriggeringMessage_cases instanceId frameId frame.triggeringMessageId now s
          with none | ⟨m, trigger, pending, result, delivering⟩
        · rw [bind_of_ok none] at run
          cases run
          exact .inl rfl
        · rw [bind_of_ok delivering] at run
          refine .inr ⟨frame, m, rfl, trigger, pending, ?_⟩
          cases result with
          | none =>
            cases run
            exact refl _
          | some msg => exact (keepsFrames_deliverNamedMessageInTx _ _ _ _ _).run run

/-! ## What a step does -/

/-- The order in which the pending messages of an instance are picked. -/
def Message.NoLater (m m' : Message) : Prop :=
  m.receivedAt < m'.receivedAt ∨ m.receivedAt = m'.receivedAt ∧ m.id ≤ m'.id

instance : DecidableRel Message.NoLater := fun _ _ => inferInstanceAs (Decidable (_ ∨ _))

instance : Std.Total Message.NoLater where
  total m m' := by
    rcases Nat.lt_trichotomy m.receivedAt m'.receivedAt with less | same | more
    · exact .inl (.inl less)
    · rcases Nat.le_total m.id m'.id with below | above
      · exact .inl (.inr ⟨same, below⟩)
      · exact .inr (.inr ⟨same.symm, above⟩)
    · exact .inr (.inl more)

instance : IsTrans Message Message.NoLater where
  trans a b c := by
    rintro (first | ⟨first, below⟩) (second | ⟨second, below'⟩)
    · exact .inl (first.trans second)
    · exact .inl (second ▸ first)
    · exact .inl (first ▸ second)
    · exact .inr ⟨first.trans second, Nat.le_trans below below'⟩

namespace FrameWorld

def picks (w : FrameWorld) : List (Id × Id) :=
  match w.tick with
  | .opening picks => picks
  | _ => []

def triggers (w : FrameWorld) : List Id :=
  w.store.frames.map (·.triggeringMessageId)

def Cancels (w : FrameWorld) (instanceId : Id) : FrameAction → Prop
  | .terminate terminated => terminated = instanceId
  | .enqueue req => req.instanceId = instanceId ∧
      (w.store.instance? instanceId).any (·.messageQueueMode = .coalesce)
  | _ => False

end FrameWorld

structure Message.Moves (w : FrameWorld) (action : FrameAction) (m m' : Message) : Prop where
  id : m'.id = m.id
  ofInstance : m'.instanceId = m.instanceId
  receivedAt : m'.receivedAt = m.receivedAt
  settled : m.isPending = false → m' = m
  cancels : m'.cancelled → m.cancelled ∨ w.Cancels m.instanceId action
  delivers : m'.deliveredAt.isSome → m.deliveredAt.isSome ∨
    ∃ f ∈ w.store.frames, f.triggeringMessageId = m.id ∧ action = .deliver f.frameId

theorem Message.Moves.unmoved {w : FrameWorld} {action : FrameAction} (m : Message) :
    Message.Moves w action m m :=
  ⟨rfl, rfl, rfl, fun _ => rfl, .inl, .inl⟩

namespace FrameWorld

/-- What a step does to each frame and message that is there, and those it adds. -/
structure Change where
  frame : Frame → Frame := id
  message : Message → Message := id
  opened : List Frame := []
  extra : List Message := []

/-- The tick opens the frame for its next pick, in an instance without an open frame. -/
structure Opens (w w' : FrameWorld) (f : Frame) : Prop where
  isOpen : f.endedAt = none
  fresh : w.store.nextId ≤ f.frameId
  below : f.frameId < w'.store.nextId
  pick : w.picks = (f.instanceId, f.triggeringMessageId) :: w'.picks
  instanceIdle : ∀ g ∈ w.store.frames, g.instanceId = f.instanceId → g.endedAt.isSome

structure Moves (w : FrameWorld) (action : FrameAction) (w' : FrameWorld) (c : Change) : Prop where
  grows : w.store.nextId ≤ w'.store.nextId
  frames : w'.store.frames = w.store.frames.map c.frame ++ c.opened
  messages : w'.store.messages = w.store.messages.map c.message ++ c.extra
  frameKept : ∀ f, Frame.Advances f (c.frame f) := by exact Frame.advances_refl
  messageKept : ∀ m, Message.Moves w action m (c.message m) := by exact Message.Moves.unmoved
  ends : ∀ f ∈ w.store.frames, f.endedAt = none → (c.frame f).endedAt.isSome →
    ∀ m, w.store.message? f.triggeringMessageId = some m → m.instanceId = f.instanceId →
      (c.message m).isPending = false := by
    intro f mem isOpen ended
    simp [isOpen] at ended
  /-- A termination that cancels messages ends the frames of its instance. -/
  strands : ∀ f, (c.frame f).endedAt = none → action = .terminate f.instanceId →
    c.message = id := by nofun
  opens : c.opened = [] ∨ action = .tick ∧ ∃ f, c.opened = [f] ∧ w.Opens w' f := by exact .inl rfl
  distinct : (w.store.messages.map (·.id) ++ c.extra.map (·.id)).Nodup
  undelivered : ∀ m ∈ c.extra, m.deliveredAt = none := by simp
  picks : w'.picks <:+ w.picks ∨
    w'.store = w.store ∧ w'.picks = w.query Messages.pickPendingMessagesForIdleInstances

variable {w w' : FrameWorld} {action : FrameAction}

section

variable (ids : (w.store.messages.map (·.id)).Nodup)

include ids

theorem moves_quiet (picks : w'.picks <:+ w.picks ∨
      w'.store = w.store ∧ w'.picks = w.query Messages.pickPendingMessagesForIdleInstances)
    (keeps : KeepsFrames w.store w'.store) : ∃ c, w.Moves action w' c := by
  refine ⟨{}, ?_⟩
  exact {
    grows := keeps.2.2
    frames := by rw [keeps.1, map_id, append_nil]
    messages := by rw [keeps.2.1, map_id, append_nil]
    strands := fun _ _ _ => rfl
    distinct := by simpa using ids
    picks }

omit ids in
theorem moves_cancelledFor (cancels : w.Cancels instanceId action) (m : Message) :
    Message.Moves w action m (m.cancelledFor instanceId) := by
  by_cases fits : m.instanceId = instanceId ∧ m.isPending
  · have cancelled : m.cancelledFor instanceId = { m with cancelled := true } := by
      simp [Message.cancelledFor, fits]
    rw [cancelled]
    refine ⟨rfl, rfl, rfl, ?_, ?_, .inl⟩
    · simp [fits.2]
    · intro _
      rw [fits.1]
      exact .inr cancels
  · have same : m.cancelledFor instanceId = m := by
      unfold Message.cancelledFor
      rw [if_neg]
      simpa using fits
    rw [same]
    exact .unmoved m

theorem moves_enqueue (validateMessageBody : TemplateSpec → String → Option Json → Bool)
    (req : Message) : ∃ c, w.Moves (.enqueue req)
      { w with store := w.after (enqueueMessage validateMessageBody req) } c := by
  rcases enqueued_enqueueMessage validateMessageBody req ids with ⟨message, extra, enqueued⟩
  refine ⟨{ message, extra }, ?_⟩
  exact {
    grows := Nat.le_of_eq enqueued.nextId.symm
    frames := by
      rw [map_id, append_nil]
      exact enqueued.frames
    messages := enqueued.messages
    messageKept := by
      intro m
      rcases enqueued.cancels with same | ⟨same, coalesces⟩
      · rw [same]
        exact .unmoved m
      · have cancels : w.Cancels req.instanceId (.enqueue req) := ⟨rfl, coalesces⟩
        rw [same]
        exact moves_cancelledFor cancels m
    distinct := enqueued.distinct
    undelivered := enqueued.undelivered
    picks := .inl suffix_rfl }

theorem moves_terminate (instanceId : Id) : ∃ c, w.Moves (.terminate instanceId)
    { w with store := w.after (terminateInstance instanceId) } c := by
  rcases terminated_terminateInstance instanceId w.store with same | ⟨instances, done⟩
  · rw [after, same]
    exact moves_quiet ids (.inl suffix_rfl) (refl _)
  have cancels : w.Cancels instanceId (.terminate instanceId) := rfl
  rw [after, done]
  refine ⟨{
    frame := Frame.endedWhere (·.instanceId = instanceId) w.store.clock
    message := Message.cancelledFor instanceId }, ?_⟩
  exact {
    grows := Nat.le_refl _
    frames := (append_nil _).symm
    messages := (append_nil _).symm
    frameKept := Frame.endedWhere_advances
    messageKept := moves_cancelledFor cancels
    ends := by
      intro f mem isOpen ended m found ofInstance
      rw [Frame.endedWhere_isSome isOpen, decide_eq_true_eq] at ended
      rw [← ended, ← ofInstance]
      exact m.cancelledFor_settled
    strands := by
      rintro f isOpen ⟨⟩
      have wasOpen := (Frame.endedWhere_advances f).wasOpen isOpen
      rw [← Option.not_isSome_iff_eq_none] at isOpen
      exact absurd ((Frame.endedWhere_isSome wasOpen).mpr (by simp)) isOpen
    distinct := by simpa using ids
    picks := .inl suffix_rfl }

theorem moves_deliver (frameId : Id) (frame : Frame) : ∃ c, w.Moves (.deliver frameId)
    { w with
      store := w.after (deliverForRunningFrame frame.instanceId frameId w.store.clock) } c := by
  rcases delivered_deliverForRunningFrame frame.instanceId frameId w.store.clock w.store with
    same | ⟨f, m, found, -, -, frames, messages, grows⟩
  · rw [after, same]
    exact moves_quiet ids (.inl suffix_rfl) (refl _)
  refine ⟨{ message := Message.deliveredIn f.triggeringMessageId frameId w.store.clock }, ?_⟩
  exact {
    grows
    frames := by
      rw [map_id, append_nil]
      exact frames
    messages := messages.trans (append_nil _).symm
    messageKept := by
      intro m
      change Message.Moves w _ m (m.deliveredIn _ _ _)
      unfold Message.deliveredIn
      split
      case isTrue fits =>
        simp only [Bool.and_eq_true, decide_eq_true_eq] at fits
        have sameId : f.frameId = frameId := by simpa using find?_some found
        refine ⟨rfl, rfl, rfl, by simp [fits.2], .inl, fun _ => .inr ⟨f, ?_, fits.1.symm, ?_⟩⟩
        · exact mem_of_find?_eq_some found
        · rw [sameId]
      case isFalse => exact .unmoved m
    distinct := by simpa using ids
    picks := .inl suffix_rfl }

theorem moves_transitionFrameEnd (keyed : w.store.framesKeyed) (frameId : Id) {rest : List Id} :
    ∃ c, w.Moves .tick
      { store := w.after (transitionFrameEnd frameId), tick := .ending rest } c := by
  rcases endsDelivered_transitionFrameEnd keyed frameId with
    ⟨ends, messages, grows, frames, delivered⟩
  refine ⟨{ frame := Frame.endedWhere ends w.store.clock }, ?_⟩
  exact {
    grows
    frames := frames.trans (append_nil _).symm
    messages := by
      rw [map_id, append_nil]
      exact messages
    frameKept := Frame.endedWhere_advances
    ends := by
      intro f mem isOpen ended m found ofInstance
      have isDelivered := delivered f mem ((Frame.endedWhere_isSome isOpen).mp ended) m found
      simp [Message.isPending, Option.isNone_eq_false_iff.mpr isDelivered]
    distinct := by simpa using ids
    picks := .inl nil_suffix }

theorem moves_openRunningFrame {rest : List (Id × Id)}
    (at_ : w.tick = .opening ((instanceId, messageId) :: rest)) : ∃ c, w.Moves .tick
      { store := w.after (openRunningFrameForMessage instanceId messageId)
        tick := .opening rest } c := by
  have next : w.picks = (instanceId, messageId) :: rest := by simp [picks, at_]
  have fewer : rest <:+ w.picks := by
    rw [next]
    exact suffix_cons _ _
  rcases opened_openRunningFrameForMessage instanceId messageId w.store with
    same | ⟨f, runScopes, done, fresh, rfl, rfl, isOpen, instanceIdle⟩
  · rw [after, same]
    exact moves_quiet ids (.inl fewer) (refl _)
  rw [after, done]
  refine ⟨{ opened := [f] }, ?_⟩
  exact {
    grows := Nat.le_succ_of_le fresh
    frames := by rw [map_id]
    messages := by rw [map_id, append_nil]
    opens := .inr ⟨rfl, f, rfl, isOpen, fresh, Nat.lt_succ_self _, next, instanceIdle⟩
    distinct := by simpa using ids
    picks := .inl fewer }

theorem moves_tickStep (keyed : w.store.framesKeyed) : ∃ c, w.Moves .tick w.tickStep c := by
  have unmoved {tick : TickPhase} (noPicks : FrameWorld.picks { w with tick } = []) :
      ∃ c, w.Moves .tick { w with tick } c :=
    moves_quiet ids (.inl (noPicks ▸ nil_suffix)) (refl _)
  unfold tickStep
  split
  · exact unmoved rfl
  · exact moves_transitionFrameEnd ids keyed _
  · exact moves_quiet ids (.inr ⟨rfl, rfl⟩) (refl _)
  case h_4 phase => exact moves_openRunningFrame ids phase
  · exact unmoved rfl
  · exact moves_quiet ids (.inl nil_suffix) (steps_commit (keepsFrames_releaseClaim _ _) w.store)
  · exact unmoved rfl

theorem moves_of_step {validateMessageBody : TemplateSpec → String → Option Json → Bool}
    (keyed : w.store.framesKeyed) (taken : w.step validateMessageBody action = some w') :
    ∃ c, w.Moves action w' c := by
  cases action with
  | enqueue req =>
    cases taken
    exact moves_enqueue ids validateMessageBody req
  | tick =>
    cases taken
    exact moves_tickStep ids keyed
  | deliver frameId =>
    simp only [step] at taken
    split at taken
    case h_1 => cases taken
    case h_2 frame _ =>
      cases taken
      exact moves_deliver ids frameId frame
  | settle after =>
    simp only [step] at taken
    split at taken
    case isTrue keeps =>
      cases taken
      exact moves_quiet ids (.inl suffix_rfl) keeps
    case isFalse => cases taken
  | terminate instanceId =>
    cases taken
    exact moves_terminate ids instanceId

end

section Moves

variable {c : Change} (moves : w.Moves action w' c)

include moves

theorem Moves.found {id : Id} (found : w.store.message? id = some m) :
    w'.store.message? id = some (c.message m) :=
  message?_of_found moves.messages (fun m => (moves.messageKept m).id) found

theorem Moves.triggers :
    w'.triggers = w.triggers ++ c.opened.map (·.triggeringMessageId) := by
  unfold FrameWorld.triggers
  rw [moves.frames, map_append, map_key_of_map fun f => (moves.frameKept f).trigger]

theorem Moves.mem_frames {f' : Frame} (mem : f' ∈ w'.store.frames) :
    (∃ f ∈ w.store.frames, c.frame f = f') ∨
      action = .tick ∧ c.opened = [f'] ∧ w.Opens w' f' := by
  rw [moves.frames, mem_append, mem_map] at mem
  rcases mem with old | new
  · exact .inl old
  · rcases moves.opens with none | ⟨isTick, f, one, opens⟩
    · simp [none] at new
    · rw [one, mem_singleton] at new
      exact .inr ⟨isTick, new ▸ one, new ▸ opens⟩

end Moves

theorem mem_picked {p : Id × Id} (mem : p ∈ w.query Messages.pickPendingMessagesForIdleInstances) :
    ∃ m ∈ w.store.messages, m.id = p.2 ∧ m.instanceId = p.1 ∧ m.isPending ∧
      (∀ f ∈ w.store.frames, f.instanceId = p.1 → f.endedAt.isSome) ∧
      ∀ other ∈ w.store.messages, other.instanceId = p.1 → other.isPending → m.NoLater other := by
  rcases mem_filterMap.mp mem with ⟨inst, instMem, first⟩
  rcases Option.map_eq_some_iff.mp first with ⟨m, head, rfl⟩
  have listed := mem_of_head? head
  rw [mem_insertionSort, mem_filter, Bool.and_eq_true, decide_eq_true_eq] at listed
  refine ⟨m, listed.1, rfl, listed.2.1, listed.2.2, ?_, ?_⟩
  · intro f fMem ofInstance
    have idle := (mem_filter.mp instMem).2
    simp only [Bool.and_eq_true, Bool.not_eq_true', any_eq_false, decide_eq_true_eq,
      not_and] at idle
    exact Option.isSome_iff_ne_none.mpr (by simpa using idle.2 f fMem ofInstance)
  · intro other otherMem ofInstance pending
    rcases head?_eq_some_iff.mp head with ⟨rest, sorted⟩
    have inOrder := pairwise_insertionSort Message.NoLater
      (w.store.messages.filter fun m => m.instanceId = inst.id && m.isPending)
    have among : other ∈ m :: rest := by
      rw [← sorted, mem_insertionSort, mem_filter]
      simp [otherMem, ofInstance, pending]
    rcases mem_cons.mp among with rfl | later
    · exact .inr ⟨rfl, Nat.le_refl _⟩
    · have sorted : (w.store.messages.filter fun m =>
          m.instanceId = inst.id && m.isPending).insertionSort Message.NoLater = m :: rest := sorted
      rw [sorted, pairwise_cons] at inOrder
      exact inOrder.1 other later

/-- Ids are distinct, and frames and picks name messages of their instance. -/
structure Sound (w : FrameWorld) : Prop where
  messageIds : (w.store.messages.map (·.id)).Nodup
  keyed : w.store.framesKeyed
  owned : ∀ f ∈ w.store.frames,
    ∃ m, w.store.message? f.triggeringMessageId = some m ∧ m.instanceId = f.instanceId
  picked : ∀ p ∈ w.picks, ∃ m, w.store.message? p.2 = some m ∧ m.instanceId = p.1

theorem sound_start (noFrames : w.store.frames = []) (noMessages : w.store.messages = [])
    (idle : w.tick = .idle) : w.Sound where
  messageIds := by simp [noMessages]
  keyed := ⟨by simp [noFrames], by simp [noFrames]⟩
  owned := by simp [noFrames]
  picked := by simp [picks, idle]

theorem Sound.opened (sound : w.Sound) {f : Frame} (opens : w.Opens w' f) :
    ∃ m, w.store.message? f.triggeringMessageId = some m ∧ m.instanceId = f.instanceId :=
  sound.picked (f.instanceId, f.triggeringMessageId) (by simp [opens.pick])

theorem Sound.moves (sound : w.Sound) {c : Change} (moves : w.Moves action w' c) : w'.Sound where
  messageIds := by
    rw [moves.messages, map_append, map_key_of_map fun m => (moves.messageKept m).id]
    exact moves.distinct
  keyed := by
    have sameId : ∀ f, (c.frame f).frameId = f.frameId := fun f => (moves.frameKept f).id
    refine ⟨?_, ?_⟩
    · rw [moves.frames, map_append, map_key_of_map sameId]
      rcases moves.opens with none | ⟨-, f, one, opens⟩
      · simpa [none] using sound.keyed.1
      · rw [one, ← map_append]
        exact nodup_key_concat sound.keyed.1 fun g mem =>
          Nat.ne_of_lt (Nat.lt_of_lt_of_le (sound.keyed.2 g mem) opens.fresh)
    · intro f' mem
      rcases moves.mem_frames mem with ⟨f, old, rfl⟩ | ⟨-, -, opens⟩
      · rw [sameId]
        exact Nat.lt_of_lt_of_le (sound.keyed.2 f old) moves.grows
      · exact opens.below
  owned := by
    intro f' mem
    rcases moves.mem_frames mem with ⟨f, old, rfl⟩ | ⟨-, -, opens⟩
    · rcases sound.owned f old with ⟨m, found, ofInstance⟩
      rw [(moves.frameKept f).trigger, (moves.frameKept f).ofInstance]
      exact ⟨_, moves.found found, (moves.messageKept m).ofInstance.trans ofInstance⟩
    · rcases sound.opened opens with ⟨m, found, ofInstance⟩
      exact ⟨_, moves.found found, (moves.messageKept m).ofInstance.trans ofInstance⟩
  picked := by
    intro p mem
    have before : ∃ m, w.store.message? p.2 = some m ∧ m.instanceId = p.1 := by
      rcases moves.picks with fewer | ⟨-, fresh⟩
      · exact sound.picked p (fewer.subset mem)
      · rw [fresh] at mem
        rcases mem_picked mem with ⟨m, mMem, sameId, ofInstance, -⟩
        exact ⟨m, sameId ▸ message?_of_mem sound.messageIds mMem, ofInstance⟩
    rcases before with ⟨m, found, ofInstance⟩
    exact ⟨_, moves.found found, (moves.messageKept m).ofInstance.trans ofInstance⟩

/-- The trigger of an open frame was delivered, or it is not cancelled. -/
def TriggersLive (w : FrameWorld) : Prop :=
  ∀ f ∈ w.store.frames, f.endedAt = none →
    ∀ m, w.store.message? f.triggeringMessageId = some m →
      m.deliveredAt.isSome ∨ m.cancelled = false

/-- An allowed step cancels no message that an open frame waits for. -/
theorem TriggersLive.moves (live : w.TriggersLive) (sound : w.Sound) (may : w.Allowed action)
    {c : Change} (moves : w.Moves action w' c) : w'.TriggersLive := by
  intro f' mem isOpen m' found'
  rcases moves.mem_frames mem with ⟨f, old, rfl⟩ | ⟨rfl, -, opens⟩
  · rcases sound.owned f old with ⟨m, found, ofInstance⟩
    rw [(moves.frameKept f).trigger, moves.found found] at found'
    cases found'
    have wasOpen := (moves.frameKept f).wasOpen isOpen
    rcases live f old wasOpen m found with delivered | uncancelled
    · left
      rwa [(moves.messageKept m).settled
        (by simp [Message.isPending, Option.isNone_eq_false_iff.mpr delivered])]
    · by_contra dead
      rw [not_or, Bool.not_eq_false] at dead
      have cancels := ((moves.messageKept m).cancels dead.2).resolve_left (by simp [uncancelled])
      have pending : m.isPending := by
        by_contra settled
        rw [(moves.messageKept m).settled (by simpa using settled), uncancelled] at dead
        exact Bool.noConfusion dead.2
      rw [ofInstance] at cancels
      cases action with
      | enqueue req =>
        rcases cancels with ⟨sameInstance, coalesces⟩
        exact may (sameInstance ▸ coalesces) f old sameInstance.symm wasOpen
          ⟨m, found, pending, ofInstance⟩
      | terminate terminated =>
        rw [moves.strands f isOpen (congrArg _ cancels), id, uncancelled] at dead
        exact Bool.noConfusion dead.2
      | _ => exact cancels
  · rcases sound.opened opens with ⟨m, found, -⟩
    rw [moves.found found] at found'
    cases found'
    right
    by_contra cancelled
    have uncancelled : m.cancelled = false := by
      have next := opens.pick
      unfold picks at next
      unfold Allowed at may
      split at next
      case h_1 picks phase =>
        rw [phase, next] at may
        exact may m found
      case h_2 => cases next
    have cancels := (moves.messageKept m).cancels (by simpa using cancelled)
    simp [uncancelled, Cancels] at cancels

end FrameWorld

theorem closeSettledFrameScopeTree_ok (rootRunScopeId : Id) (s : Store) :
    ∃ s', closeSettledFrameScopeTree rootRunScopeId s = (.ok (), s') ∧ s'.frames = s.frames := by
  have keeps := keepsFrames_closeSettledFrameScopeTree rootRunScopeId s
  have closes (scope : RunScope) (s : Store) :
      ∃ s', (if scope.closedAt.isNone then RunScopes.close scope.id else pure () : Tx Unit) s =
        (.ok (), s') := by
    split <;> exact ⟨_, rfl⟩
  rcases forM_ok (fun scope _ => closes scope) s with ⟨s', run⟩
  have run : closeSettledFrameScopeTree rootRunScopeId s = (.ok (), s') := run
  rw [run] at keeps
  exact ⟨s', run, keeps.1⟩

theorem endsNow_of_delivered (keyed : s.framesKeyed) {f : Frame} (mem : f ∈ s.frames)
    (isOpen : f.endedAt = none) (settled : s.frameInFlight f.frameId = false)
    (found : s.message? f.triggeringMessageId = some m) (delivered : m.deliveredAt.isSome) :
    s.endsNow f := by
  let ended : Store := { s with
    frames := s.frames.map fun g =>
      if g.frameId = f.frameId && !s.frameInFlight f.frameId && g.endedAt.isNone then
        { g with endedAt := some s.clock } else g }
  have ends : Frames.endFrameIfSettled f.frameId s = (.ok true, ended) := by
    have some_ends : s.frames.any (fun g =>
        (g.frameId = f.frameId && !s.frameInFlight f.frameId) && g.endedAt.isNone) = true :=
      any_eq_true.mpr ⟨f, mem, by simp [settled, isOpen]⟩
    exact congrArg (fun b => (Except.ok b, ended)) some_ends
  rcases closeSettledFrameScopeTree_ok f.rootRunScopeId ended with ⟨s', closed, frames⟩
  have run : transitionFrameEnd f.frameId s = (.ok (), s') := by
    simp only [transitionFrameEnd, read_bind, frame?_of_mem keyed mem, found]
    rw [if_pos delivered, bind_of_ok ends]
    exact closed
  unfold endsNow
  rw [commit_of_ok run, frames]
  refine ⟨{ f with endedAt := some s.clock }, mem_map.mpr ⟨f, mem, ?_⟩, rfl, rfl⟩
  simp [settled, isOpen]

theorem FrameWorld.Sound.noWedgedFrame {w : FrameWorld} (sound : w.Sound) (live : w.TriggersLive) :
    w.store.NoWedgedFrame := by
  intro f mem isOpen settled
  rcases sound.owned f mem with ⟨m, found, ofInstance⟩
  by_cases delivered : m.deliveredAt.isSome
  · exact .inr (endsNow_of_delivered sound.keyed mem isOpen settled found delivered)
  · refine .inl ⟨m, found, ?_, ofInstance⟩
    have uncancelled := (live f mem isOpen m found).resolve_left delivered
    simp [Message.isPending, uncancelled, Option.not_isSome_iff_eq_none.mp delivered]

/-- In every run of allowed steps no frame is wedged, however the steps interleave. -/
theorem noWedgedFrame_of_reaches {validateMessageBody : TemplateSpec → String → Option Json → Bool}
    {start w : FrameWorld} (noFrames : start.store.frames = [])
    (noMessages : start.store.messages = []) (idle : start.tick = .idle)
    (run : Reaches (FrameWorld.step validateMessageBody) FrameWorld.Allowed start w) :
    w.store.NoWedgedFrame := by
  have live : start.TriggersLive := by
    intro f mem
    simp [noFrames] at mem
  have kept : w.Sound ∧ w.TriggersLive := by
    refine run.invariant (I := fun w => w.Sound ∧ w.TriggersLive) ?_
      ⟨FrameWorld.sound_start noFrames noMessages idle, live⟩
    rintro w₁ action w₂ ⟨sound, live⟩ may taken
    rcases FrameWorld.moves_of_step sound.messageIds sound.keyed taken with ⟨c, moves⟩
    exact ⟨sound.moves moves, live.moves sound may moves⟩
  exact kept.1.noWedgedFrame kept.2

def coalescingWorld : FrameWorld where
  store := { instances := [{ id := 1, template := { nodes := [] }, messageQueueMode := .coalesce }]
             nextId := 10 }

def operatorMessage (id : Id) (receivedAt : Nat) : FrameAction :=
  .enqueue {
    id, instanceId := 1, type := "refresh", sender := "ops", senderKind := "operator", receivedAt }

/-- A message, the tick that opens its frame, and the delivery before the next message. -/
def deliveredFirst : List FrameAction :=
  [operatorMessage 2 0, .tick, .tick, .tick, .deliver 11, operatorMessage 3 1]

theorem noWedgedFrame_deliveredFirst :
    ∃ w, runAll (FrameWorld.step fun _ _ _ => true) FrameWorld.Allowed deliveredFirst
      coalescingWorld =
        some w ∧ w.store.frames.length = 1 ∧ w.store.NoWedgedFrame := by
  have opened : (runAll (FrameWorld.step fun _ _ _ => true) FrameWorld.Allowed deliveredFirst
      coalescingWorld).any (fun w => w.store.frames.length = 1) := by decide +kernel
  rcases (Option.any_eq_true _ _).mp opened with ⟨w, run, length⟩
  exact ⟨_, run, of_decide_eq_true length,
    noWedgedFrame_of_reaches rfl rfl rfl (reaches_of_runAll run)⟩

def coalescedTrigger : List FrameAction :=
  [operatorMessage 2 0, .tick, .tick, .tick, operatorMessage 3 1, .deliver 11]

/-- Coalescing cancels the trigger of the open frame, which is then neither delivered nor ended. -/
theorem wedgedFrame_coalescedTrigger :
    ∃ w, Reaches (FrameWorld.step fun _ _ _ => true) (fun _ _ => True) coalescingWorld w ∧
      ¬ w.store.NoWedgedFrame := by
  have wedged : (runAll (FrameWorld.step fun _ _ _ => true) (fun _ _ => True) coalescedTrigger
      coalescingWorld).any (fun w => ¬ w.store.NoWedgedFrame) := by decide +kernel
  rcases (Option.any_eq_true _ _).mp wedged with ⟨w, run, wedged⟩
  exact ⟨w, reaches_of_runAll run, of_decide_eq_true wedged⟩

end Rimsky
