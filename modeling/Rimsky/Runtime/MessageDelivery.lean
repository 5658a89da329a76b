import Rimsky.Persistence.Messages

/-!
# Message delivery

`runtime/message_delivery.go`: a message is enqueued for an instance, and the trigger of
a running frame is delivered as a run of the node that receives its type.
-/

namespace Rimsky

open Transaction

def senderKinds : List String := ["operator", "publisher", "instance"]

/-- `validateMessagePayloadIsObjectShaped`: no payload, null or an object. -/
def payloadIsObjectShaped : Option Json → Bool
  | none => true
  | some .null => true
  | some (.obj _) => true
  | some _ => false

/-- `messagePayloadAsMap`; what is not an object leaves the size of its text. -/
def messagePayloadAsMap : Option Json → Bag
  | none => []
  | some (.obj fields) => fields
  | some raw => [("_raw_bytes", .num (toString raw.marshal.length))]

/-- `EnqueueMessage`; the JSON-schema check of a declared type's body is a parameter. -/
def enqueueMessage (validateMessageBody : TemplateSpec → String → Option Json → Bool)
    (req : Message) : Tx Unit := do
  if req.id = 0 then fail (.other "EnqueueMessage: id required")
  else if req.instanceId = 0 then fail (.other "EnqueueMessage: instance_id required")
  else if req.sender = "" then fail (.other "EnqueueMessage: sender required")
  else if !senderKinds.contains req.senderKind then
    fail (.other ("EnqueueMessage: unknown sender_kind " ++ req.senderKind))
  else if !payloadIsObjectShaped req.payload then
    fail (.other "EnqueueMessage: message body schema violation")
  else
    let inst ← read (·.instance? req.instanceId)
    if inst.any fun inst => !validateMessageBody inst.template req.type req.payload then
      fail (.other "EnqueueMessage: message body schema violation")
    else
      if inst.any fun inst => inst.messageQueueMode = .coalesce then
        Messages.cancelPendingForInstance req.instanceId
      Messages.insert { req with deliveredAt := none, frameId := none, cancelled := false }

/-- `DeliverTriggeringMessage`: mark the trigger delivered, unless it is delivered or cancelled. -/
def deliverTriggeringMessage (instanceId frameId triggeringMessageId now : Nat) :
    Tx (Option Message) := do
  match ← read (·.message? triggeringMessageId) with
  | none => return none
  | some msg =>
    if msg.instanceId ≠ instanceId then return none
    else if msg.deliveredAt.isSome || msg.cancelled then return none
    else if ← Messages.markDelivered triggeringMessageId frameId now then
      return some { msg with deliveredAt := some now, frameId := some frameId }
    else return none

def findMessageReceiverNode (instanceId : Id) (messageType : String) : Tx (Option Node) :=
  read fun s => s.nodes.find? fun n => n.instanceId = instanceId && n.nodeType = messageType

/-- `deliverNamedMessageInTx`; a message without a receiver node is dead-lettered. -/
def deliverNamedMessageInTx (instanceId frameId : Id) (msg : Message) (frameRootRunScopeId : Id)
    (now : Nat) : Tx Unit := do
  match ← findMessageReceiverNode instanceId msg.type with
  | none => return ()
  | some receiver =>
    let runId ← Nodes.createNonCascadeStale {
      nodeId := receiver.id, runScopeId := frameRootRunScopeId, frameId, enqueuedAt := now
      creationReason := .messageDelivery }
    let body := messagePayloadAsMap msg.payload
    NodeAttributes.upsert runId receiver.id body
    NodeAttributes.setDispatchInputBag runId receiver.id body

def deliverForRunningFrame (instanceId frameId now : Nat) : Tx Unit := do
  if (← read (·.instance? instanceId)).isSome then
    match ← read (·.frame? frameId) with
    | none => return ()
    | some frame =>
      match ← deliverTriggeringMessage instanceId frameId frame.triggeringMessageId now with
      | none => return ()
      | some msg => deliverNamedMessageInTx instanceId frameId msg frame.rootRunScopeId now

end Rimsky
