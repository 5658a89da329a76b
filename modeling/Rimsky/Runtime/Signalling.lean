import Rimsky.Lib.Composition
import Rimsky.Runtime.Gate

/-!
# Programs of the walker

What a signal does is a program made of a few statements: a delivery is logged, receivers get
runs and wait rows, parked runs are woken, and gates are evaluated. A property of transactions
that composes holds of signalling and of draining wait rows if it holds of these.
-/

namespace Rimsky

open Transaction

/-- The errors that programs raise themselves; all others come from statements. -/
def StoreError.Plain : StoreError → Prop
  | .other _ | .outOfFuel => True
  | _ => False

theorem StoreError.plain_other (text : String) : (StoreError.other text).Plain := trivial

/--
The property holds of what the walker does with a receiver in the scope besides waiting for the
sender.
-/
structure Signalling (T : ∀ {α : Type}, Tx α → Prop) (rec : Rec) (runScopeId : Id) : Prop where
  wake : ∀ id, T (resumeParkedRunInTx id .cascadeResume)
  receive : ∀ receiverNodeId frameId senderNodeId senderNodeRunId visited,
    T (resolveReceiverRunForCascade receiverNodeId runScopeId frameId senderNodeId senderNodeRunId
      visited)
  pull : ∀ upstream receiverNodeRunId frameId,
    T (pullForceRefreshUpstream rec upstream receiverNodeRunId runScopeId frameId)

structure Emits (T : ∀ {α : Type}, Tx α → Prop) (args : RunArgs) (rec : Rec) (sender : Sender) :
    Prop where
  cascade : ∀ sig visited filter, T (cascadeSubscribersStale args rec sender sig visited filter)

variable {runScopeId : Id}

section Programs

variable {T : ∀ {α : Type}, Tx α → Prop} (c : Composes StoreError.Plain T) {args : RunArgs}
  {rec : Rec}

variable {sender : Sender}

namespace Signalling

include c

theorem pullForceRefreshUpstreams (signalling : Signalling T rec runScopeId) (spec : TemplateSpec)
    (nodes : List Node) (receiver : Node) (receiverNodeRunId frameId senderId : Id) :
    T (pullForceRefreshUpstreams rec spec nodes receiver receiverNodeRunId runScopeId frameId
      senderId) :=
  c.forM fun _ _ => signalling.pull _ _ _

theorem meetReceiver {scope : RunScope} (signalling : Signalling T rec scope.id)
    (visited : List Id) (receiver : Node) : T (meetReceiver sender scope visited receiver) := by
  refine c.reading fun _ => c.skips fun _ => ?_
  refine c.reading fun parked => ?_
  cases parked with
  | some parked => exact c.chain (signalling.wake _) fun _ => signalling.receive _ _ _ _ _
  | none => exact signalling.receive _ _ _ _ _

theorem walkReceiver {scope : RunScope} (signalling : Signalling T rec scope.id) {sig : Signal}
    {receiver : Node}
    (log : T (logDelivery
      { senderRunId := sender.nodeRunId, signal := sig, receiverId := receiver.id }))
    (wait : ∀ frameId receiverRunId topicKind,
      T (WaitSet.insert { frameId, receiverRunId, senderRunId := sender.nodeRunId, topicKind }))
    (spec : TemplateSpec) (nodes : List Node) (edge : SubscriptionEdge) (visited : List Id) :
    T (walkReceiver rec spec nodes sender sig scope edge visited receiver) := by
  refine c.chain (signalling.meetReceiver c _ _) fun resolved => ?_
  rcases resolved with ⟨run, visited⟩
  cases run with
  | none => exact c.value _
  | some receiverNodeRunId =>
    refine c.chain log fun _ => c.chain (wait _ _ _) fun _ => ?_
    exact c.chain (signalling.pullForceRefreshUpstreams c _ _ _ _ _ _) fun _ => c.value _

end Signalling

include c

theorem Emits.of_receiver
    (receiver : ∀ spec nodes sig scope edge visited receiver,
      T (walkReceiver rec spec nodes sender sig scope edge visited receiver)) :
    Emits T args rec sender where
  cascade sig visited filter := by
    refine c.skips fun _ => c.reading fun s => ?_
    split
    · exact c.foldlM fun _ _ _ => receiver _ _ _ _ _ _ _
    · exact c.value _

theorem Emits.emitSignalWithFilter (emits : Emits T args rec sender) (sig : Signal)
    (visited : List Id) (filter : String → Bool) :
    T (emitSignalWithFilter args rec sender sig visited filter) :=
  Composes.ite (fun _ => c.fails trivial) fun _ =>
    Composes.ite (fun _ => emits.cascade _ _ _) fun _ => c.value _

theorem Emits.emitSignalOnce (emits : Emits T args rec sender) (sig : Signal) :
    T (emitSignalOnce args rec sender sig) :=
  c.chain (emits.emitSignalWithFilter c _ _ _) fun _ => c.value _

theorem loadTemplateSpec_composes (instanceId : Id) : T (loadTemplateSpec instanceId) :=
  c.reading fun _ => c.needs (StoreError.plain_other _) _

theorem attributeBaseline_composes (sender : Sender) : T (attributeBaseline args sender) := by
  refine c.reading fun prior => ?_
  cases prior with
  | some prior => exact c.value _
  | none => exact c.chain (loadTemplateSpec_composes c _) fun _ => c.value _

theorem Emits.emitAttributeChangesForRun (emits : Emits T args rec sender) (visited : List Id)
    (filter : String → Bool) :
    T (emitAttributeChangesForRun args rec sender visited filter) := by
  refine c.reading fun current => ?_
  cases current with
  | none => exact c.value _
  | some current =>
    refine c.chain (attributeBaseline_composes c _) fun prior => ?_
    exact c.foldlM fun _ _ _ => emits.emitSignalWithFilter c _ _ _

theorem Emits.announces {α : Type} (emits : Emits T args rec sender) (sig : Signal)
    (picks : TemplateSpec → String → Bool) {rest : Tx α} (ends : T rest) : T (do
      let spec ← loadTemplateSpec sender.instanceId
      let visited ← Rimsky.emitSignalWithFilter args rec sender sig [] (picks spec)
      let _ ← Rimsky.emitAttributeChangesForRun args rec sender visited (picks spec)
      rest) := by
  refine c.chain (loadTemplateSpec_composes c _) fun spec => ?_
  refine c.chain (emits.emitSignalWithFilter c _ _ _) fun _ => ?_
  exact c.chain (emits.emitAttributeChangesForRun c _ _) fun _ => ends

section Draining

variable (gate : ∀ id, T (rec.evaluateOneGate id))

include gate

theorem reevalDownstreamReceiverGates_composes (senderNodeRunId : Id) :
    T (reevalDownstreamReceiverGates rec senderNodeRunId) := by
  refine c.reading fun s => ?_
  split
  · exact c.value _
  · split
    · exact c.value _
    · split
      · exact c.value _
      · exact c.reading fun pendings => c.forM fun _ _ => gate _

theorem evaluateGatesAfterDrain_composes (frameId senderNodeRunId : Id) :
    T (do
      let receivers ← WaitSet.listPendingReceiversForDrainedSender frameId senderNodeRunId
      receivers.forM rec.evaluateOneGate
      let siblings ← Nodes.listPendingSiblingRunsInScope senderNodeRunId
      siblings.forM rec.evaluateOneGate
      reevalDownstreamReceiverGates rec senderNodeRunId) := by
  refine c.reading fun receivers => c.chain (c.forM fun _ _ => gate _) fun _ => ?_
  refine c.reading fun siblings => c.chain (c.forM fun _ _ => gate _) fun _ => ?_
  exact reevalDownstreamReceiverGates_composes c gate _

theorem drainWaitSetOnSettled_composes {senderNodeRunId frameId : Id}
    (drain : T (WaitSet.markDrainedBySender frameId senderNodeRunId)) :
    T (drainWaitSetOnSettled rec frameId senderNodeRunId) :=
  c.chain drain fun _ => evaluateGatesAfterDrain_composes c gate _ _

end Draining

end Programs

theorem Signalling.of_statements {T : ∀ {α : Type}, Tx α → Prop} (c : Composes (fun _ => True) T)
    {rec : Rec} (wake : ∀ id, T (resumeParkedRunInTx id .cascadeResume))
    (ensure : ∀ receiverNodeId frameId senderNodeId senderNodeRunId,
      T (attempt (ensureCascadePending receiverNodeId runScopeId frameId senderNodeId
      senderNodeRunId)))
    (pend : ∀ nodeId frameId, T (attempt (Nodes.createCascadePending nodeId runScopeId frameId)))
    (wait : ∀ row, T (WaitSet.insert row)) (gate : ∀ id, T (rec.evaluateOneGate id)) :
    Signalling T rec runScopeId where
  wake := wake
  receive receiverNodeId frameId senderNodeId senderNodeRunId visited := by
    refine Composes.ite (fun _ => c.reading fun _ => c.value _) fun _ => ?_
    refine c.chain (ensure _ _ _ _) fun outcome => ?_
    split
    · exact c.value _
    · exact c.value _
    · exact c.fails trivial
  pull upstream receiverNodeRunId frameId := by
    refine c.reading fun inFlight => ?_
    cases inFlight with
    | some upstreamRunId => exact wait _
    | none =>
      refine c.reading fun ran => c.skips fun _ => ?_
      refine c.chain (pend _ _) fun outcome => ?_
      split
      · exact c.value _
      · exact c.fails trivial
      · exact c.chain (gate _) fun _ => wait _

theorem ensureCascadePending_steps {R : Store → Store → Prop} [IsPreorder Store R]
    (pend : ∀ nodeId frameId, Steps R (Nodes.createCascadePending nodeId runScopeId frameId))
    (receiverNodeId frameId senderNodeId senderNodeRunId : Id) :
    Steps R (ensureCascadePending receiverNodeId runScopeId frameId senderNodeId
      senderNodeRunId) := by
  refine steps_reads fun latest => ?_
  cases latest with
  | none => exact pend _ _
  | some latest =>
    refine steps_reads fun covered => steps_unless fun _ => ?_
    exact steps_reads fun senders =>
      steps_ite (fun _ => pend _ _) fun _ => steps_pure _

theorem Signalling.of_steps {R : Store → Store → Prop} [IsPreorder Store R] {rec : Rec}
    (wake : ∀ id, Steps R (resumeParkedRunInTx id .cascadeResume))
    (pend : ∀ nodeId frameId, Steps R (Nodes.createCascadePending nodeId runScopeId frameId))
    (wait : ∀ row, Steps R (WaitSet.insert row)) (gate : ∀ id, Steps R (rec.evaluateOneGate id)) :
    Signalling (fun {_} m => Steps R m) rec runScopeId :=
  .of_statements (steps_composes R _) wake
    (fun _ _ _ _ => steps_attempt (ensureCascadePending_steps pend _ _ _ _))
    (fun _ _ => steps_attempt (pend _ _)) wait gate

end Rimsky
