/-
# Node state and gas

The state machine of the node's life cycle, and the gas manager whose status pauses
trading.
-/
import DeadmktNode.BatchClock

/-! ## Node state -/

/-- The stages of a node's life. -/
inductive NodeState where
  | setup
  /-- peers are live, no strategy -/
  | connected
  /-- a strategy is there, waiting for the first batch -/
  | observing
  /-- the full batch loop is active -/
  | trading
  | paused
  /-- the NFT is inactive: gossip only -/
  | limited
  | shutdown
deriving DecidableEq, Repr

/-- What moves a node between its stages. -/
inductive NodeEvent where
  | setupComplete
  | strategyConnected
  | strategyDisconnected
  | firstBatchEntered
  | pauseDetected (afterBatch : UInt64)
  | resumeDetected
  | inactiveDetected
  | reactivated
  | shutdownRequested
  | gasCritical
  | gasReplenished
deriving DecidableEq, Repr

/-- An event that the stage does not allow. -/
inductive StateError where
  | invalidTransition (source : NodeState) (event : NodeEvent)
deriving DecidableEq, Repr

/-- The stage of a node; a paused node knows the one it came from, and low gas is noted beside it.
-/
structure NodeStateMachine where
  state : NodeState
  previousState : Option NodeState
  gasCritical : Bool
deriving DecidableEq, Repr

namespace NodeStateMachine

/-- A node that is not set up. -/
def new : NodeStateMachine := ⟨.setup, none, false⟩

/-- Apply an event; an invalid one changes nothing. -/
def transition (sm : NodeStateMachine) (event : NodeEvent) :
    Except StateError NodeState × NodeStateMachine :=
  let goto (sm : NodeStateMachine) : Except StateError NodeState × NodeStateMachine :=
    (.ok sm.state, sm)
  match sm.state, event with
  | .setup, .setupComplete => goto { sm with state := .connected }
  | .connected, .strategyConnected => goto { sm with state := .observing }
  | .observing, .firstBatchEntered => goto { sm with state := .trading }
  | .observing, .strategyDisconnected => goto { sm with state := .connected }
  | .trading, .strategyDisconnected => goto { sm with state := .connected }
  | .trading, .pauseDetected _ =>
      goto { sm with previousState := some .trading, state := .paused }
  | .observing, .pauseDetected _ =>
      goto { sm with previousState := some .observing, state := .paused }
  | .paused, .resumeDetected =>
      goto { sm with state := sm.previousState.getD .trading, previousState := none }
  | .trading, .inactiveDetected => goto { sm with state := .limited }
  | .observing, .inactiveDetected => goto { sm with state := .limited }
  | .limited, .reactivated => goto { sm with state := .trading }
  | _, .gasCritical => goto { sm with gasCritical := true }
  | _, .gasReplenished => goto { sm with gasCritical := false }
  | _, .shutdownRequested => goto { sm with state := .shutdown }
  | .paused, .strategyConnected => goto sm
  | .limited, .strategyConnected => goto sm
  | state, event => (.error (.invalidTransition state event), sm)

/-- May the node commit orders in this batch? -/
def canCommit (sm : NodeStateMachine) : Bool := sm.state == .trading && !sm.gasCritical

/-- An event that is refused changes nothing. -/
theorem transition_of_error {sm sm' : NodeStateMachine} {event : NodeEvent} {e : StateError}
    (h : sm.transition event = (.error e, sm')) : sm' = sm := by
  obtain ⟨state, previous, gas⟩ := sm
  cases state <;> cases event <;>
    first
    | exact (Prod.mk.inj h).2.symm
    | cases h

end NodeStateMachine

/-! ## Gas -/

/-- How much gas is left. -/
inductive GasStatus where
  | normal
  | low
  | critical
deriving DecidableEq, Repr

/-- The SUPRA balance of the node with its two thresholds. -/
structure GasManager where
  balance : UInt64
  warnThreshold : UInt64
  criticalThreshold : UInt64
deriving DecidableEq, Repr

namespace GasManager

/-- Thresholds of 10 and 1 SUPRA. -/
def new (decimals : UInt8) : GasManager :=
  let factor := UInt64.ofNat (10 ^ decimals.toNat)
  ⟨0, 10 * factor, 1 * factor⟩

/-- The status of the balance that was stored last. -/
def checkStatus (gas : GasManager) : GasStatus :=
  if gas.balance < gas.criticalThreshold then .critical
  else if gas.balance < gas.warnThreshold then .low
  else .normal

/-- Store a balance that was read from the chain; the status before and after. -/
def updateBalance (gas : GasManager) (newBalance : UInt64) :
    (GasStatus × GasStatus) × GasManager :=
  let gas' := { gas with balance := newBalance }
  ((gas.checkStatus, gas'.checkStatus), gas')

end GasManager
