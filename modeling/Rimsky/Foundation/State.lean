import Mathlib.Logic.Basic

/-!
# Node-run states

The state machine of a node run (`foundation/cascade/state.go`). A run moves only
by `nextState`; a parent run whose children decide its state is moved by
aggregation instead, which `nextStateParent` lets through without a target.
-/

namespace Rimsky

inductive NodeState where
  | pending | stale | running | held | parked | fresh | failed
  deriving DecidableEq, Repr

inductive TransitionReason where
  | gateCleared
  | dispatchClaimed | policyGiveUp | pureCascade | dispatchImpossible
  | acquirePass
  | handlerComplete | handlerHeld | fanoutDispatched | handlerPass | handlerPark
  | autoTerminalCommit | autoTerminalAbandon
  | deadlineResume | cascadeResume
  | childTransitioned | subGraphInternalCascadeFired
  | instanceKilled | siblingCancelled
  deriving DecidableEq, Repr

inductive CreationReason where
  | cascade | operatorInvalidate | recalculate | messageDelivery
  deriving DecidableEq, Repr

/-- `NextState`; `none` is `ErrIllegalTransition`. -/
def nextState : NodeState → TransitionReason → Option NodeState
  | .pending, .gateCleared => some .stale
  | .pending, .instanceKilled => some .failed
  | .pending, .siblingCancelled => some .failed
  | .stale, .dispatchClaimed => some .running
  | .stale, .pureCascade => some .fresh
  | .stale, .dispatchImpossible => some .failed
  | .stale, .acquirePass => some .fresh
  | .stale, .policyGiveUp => some .failed
  | .stale, .instanceKilled => some .failed
  | .stale, .siblingCancelled => some .failed
  | .running, .handlerComplete => some .fresh
  | .running, .handlerHeld => some .held
  | .running, .fanoutDispatched => some .held
  | .running, .handlerPass => some .fresh
  | .running, .handlerPark => some .parked
  | .running, .policyGiveUp => some .failed
  | .running, .autoTerminalAbandon => some .failed
  | .running, .instanceKilled => some .failed
  | .running, .siblingCancelled => some .failed
  | .held, .autoTerminalCommit => some .fresh
  | .held, .autoTerminalAbandon => some .failed
  | .held, .instanceKilled => some .failed
  | .held, .siblingCancelled => some .failed
  | .parked, .deadlineResume => some .stale
  | .parked, .cascadeResume => some .stale
  | .parked, .instanceKilled => some .failed
  | .parked, .siblingCancelled => some .failed
  | _, _ => none

namespace NodeState

def isInFlight : NodeState → Bool
  | .pending | .stale | .running | .held | .parked => true
  | .fresh | .failed => false

def isTerminal : NodeState → Bool
  | .fresh | .failed => true
  | _ => false

end NodeState

end Rimsky
