/-
# What the trading guard knows

`can_commit` is asked before the node commits orders.  The state machine behind it keeps
one state and one saved state for four conditions that come and go on their own: a
strategy is there, the chain is not paused, the NFT is active, there is gas.

An event that meets a state without an arm for it is refused, and the caller only logs
that.  Most of these events say nothing new; the ones of `drops` do, and they are lost.
The guard follows its latest inputs exactly as long as no lost event is outstanding when
an event lets the node trade (`canCommit_follows_inputs_iff`).
-/
import DeadmktNode.NodeState
import DeadmktNode.Runs

namespace NodeStateMachine

/-! ## The events that a node met -/

/-- The state machine as its caller drives it: errors change nothing. -/
def system : System NodeStateMachine NodeEvent where
  step sm event := some (sm.transition event).2

/-- What a step shows: the event and the state that it met. -/
def meets (sm : NodeStateMachine) (event : NodeEvent) : Option (NodeState × NodeEvent) :=
  some (sm.state, event)

end NodeStateMachine

def NodeEvent.isPause : NodeEvent → Bool
  | .pauseDetected _ => true
  | _ => false

/-- The latest inputs allow the node to trade. -/
structure InputsAllow (events : List NodeEvent) : Prop where
  strategy : Standing (· = .strategyConnected) (· = .strategyDisconnected) events
  resumed : ¬ Standing (·.isPause) (· = .resumeDetected) events
  active : ¬ Standing (· = .inactiveDetected) (· = .reactivated) events
  gas : ¬ Standing (· = .gasCritical) (· = .gasReplenished) events
  running : .shutdownRequested ∉ events

/-- The events that are refused in a state from which the node can still come to trade
without hearing of them again. -/
def drops : NodeState → NodeEvent → Bool
  | .paused, .strategyDisconnected => true
  | .limited, .strategyDisconnected => true
  | .setup, .pauseDetected _ => true
  | .connected, .pauseDetected _ => true
  | .limited, .pauseDetected _ => true
  | .setup, .inactiveDetected => true
  | .connected, .inactiveDetected => true
  | .paused, .inactiveDetected => true
  | _, _ => false

/-- No dropped event is outstanding: each one was answered since. -/
structure NoneDropped (met : List (NodeState × NodeEvent)) : Prop where
  disconnect : ¬ Standing (fun p => drops p.1 p.2 = true ∧ p.2 = .strategyDisconnected)
    (fun p => p.2 = .strategyConnected) met
  pause : ¬ Standing (fun p => drops p.1 p.2 = true ∧ p.2.isPause)
    (fun p => p.2 = .resumeDetected) met
  inactive : ¬ Standing (fun p => drops p.1 p.2 = true ∧ p.2 = .inactiveDetected)
    (fun p => p.2 = .reactivated) met

namespace NodeStateMachine

/-- The events that let a node trade which could not. -/
def LetsTrade (sm : NodeStateMachine) : NodeEvent → Prop
  | .firstBatchEntered => sm.state = .observing ∧ sm.gasCritical = false
  | .resumeDetected =>
      sm.state = .paused ∧ sm.previousState.getD .trading = .trading ∧ sm.gasCritical = false
  | .reactivated => sm.state = .limited ∧ sm.gasCritical = false
  | .gasReplenished => sm.state = .trading ∧ sm.gasCritical = true
  | _ => False

/-! ## What the state says about the inputs -/

/-- The states of a node that knows of a strategy. -/
def knowsStrategy : NodeState → Bool
  | .observing | .trading | .paused | .limited => true
  | _ => false

/-- The state and the events that led to it.  What the state does not record of a
disconnect, a pause or an inactive NFT was dropped. -/
structure Tracks (met : List (NodeState × NodeEvent)) (sm : NodeStateMachine) : Prop where
  strategy : knowsStrategy sm.state = true →
    (Standing (fun p => p.2 = .strategyConnected) (fun p => p.2 = .strategyDisconnected) met ↔
      ¬ Standing (fun p => drops p.1 p.2 = true ∧ p.2 = .strategyDisconnected)
        (fun p => p.2 = .strategyConnected) met)
  pause : sm.state ≠ .paused → sm.state ≠ .shutdown →
    (Standing (fun p => p.2.isPause) (fun p => p.2 = .resumeDetected) met ↔
      Standing (fun p => drops p.1 p.2 = true ∧ p.2.isPause)
        (fun p => p.2 = .resumeDetected) met)
  inactive : sm.state ≠ .limited → sm.state ≠ .shutdown →
    (Standing (fun p => p.2 = .inactiveDetected) (fun p => p.2 = .reactivated) met ↔
      Standing (fun p => drops p.1 p.2 = true ∧ p.2 = .inactiveDetected)
        (fun p => p.2 = .reactivated) met)
  gas : Standing (fun p => p.2 = .gasCritical) (fun p => p.2 = .gasReplenished) met ↔
    sm.gasCritical = true
  running : sm.state ≠ .shutdown → .shutdownRequested ∉ met.map Prod.snd

theorem tracks_new : Tracks [] new where
  strategy h := absurd h (by decide)
  pause _ _ := iff_of_false not_standing_nil not_standing_nil
  inactive _ _ := iff_of_false not_standing_nil not_standing_nil
  gas := iff_of_false not_standing_nil (by decide)
  running _ := List.not_mem_nil

/-! ### What one event can do -/

section

variable (sm : NodeStateMachine) (event : NodeEvent)

/-- A node knows of a strategy because it just connected, or because it did before and did
not hear of a disconnect. -/
theorem knowsStrategy_transition : knowsStrategy (sm.transition event).2.state = true →
    event = .strategyConnected ∨ (knowsStrategy sm.state = true ∧
      (event = .strategyDisconnected → drops sm.state event = true)) := by
  obtain ⟨state, previous, gas⟩ := sm
  cases state <;> cases event <;> dsimp only [transition, drops] <;> simp [knowsStrategy]

/-- A node is not paused because it just resumed, or because it was not before and did not
hear of a pause. -/
theorem not_paused_transition : (sm.transition event).2.state ≠ .paused →
    (sm.transition event).2.state ≠ .shutdown →
    event = .resumeDetected ∨ (sm.state ≠ .paused ∧ sm.state ≠ .shutdown ∧
      (event.isPause = true → drops sm.state event = true)) := by
  obtain ⟨state, previous, gas⟩ := sm
  cases state <;> cases event <;> dsimp only [transition, drops] <;> simp [NodeEvent.isPause]

/-- A node is not limited because it was just reactivated, or because it was not before and
did not hear that it is inactive. -/
theorem not_limited_transition : (sm.transition event).2.state ≠ .limited →
    (sm.transition event).2.state ≠ .shutdown →
    event = .reactivated ∨ (sm.state ≠ .limited ∧ sm.state ≠ .shutdown ∧
      (event = .inactiveDetected → drops sm.state event = true)) := by
  obtain ⟨state, previous, gas⟩ := sm
  cases state <;> cases event <;> dsimp only [transition, drops] <;> simp

/-- A shutdown is final. -/
theorem running_transition : (sm.transition event).2.state ≠ .shutdown →
    sm.state ≠ .shutdown ∧ event ≠ .shutdownRequested := by
  obtain ⟨state, previous, gas⟩ := sm
  cases state <;> cases event <;> dsimp only [transition] <;> simp

/-- The gas flag follows the gas events in every state. -/
theorem gasCritical_transition : (sm.transition event).2.gasCritical = true ↔
    event = .gasCritical ∨ (sm.gasCritical = true ∧ event ≠ .gasReplenished) := by
  obtain ⟨state, previous, gas⟩ := sm
  cases state <;> cases event <;> dsimp only [transition] <;> simp

/-- A node can trade because the event let it, or because it could before. -/
theorem canCommit_transition : (sm.transition event).2.canCommit = true ↔
    sm.LetsTrade event ∨ (sm.canCommit = true ∧ (sm.transition event).2.canCommit = true) := by
  obtain ⟨state, previous, gas⟩ := sm
  cases state <;> cases event <;> dsimp only [transition] <;> simp [canCommit, LetsTrade]

end

/-- Every event leaves the state in step with what was met. -/
theorem Tracks.step {met : List (NodeState × NodeEvent)} {sm : NodeStateMachine}
    (h : Tracks met sm) (event : NodeEvent) :
    Tracks (met ++ [(sm.state, event)]) (sm.transition event).2 := by
  constructor
  · intro hknows
    rw [standing_snoc, standing_snoc]
    rcases sm.knowsStrategy_transition event hknows with rfl | ⟨hbefore, hdrop⟩
    · simp
    · have ih := h.strategy hbefore
      by_cases hdis : event = .strategyDisconnected
      · subst hdis
        simp [hdrop rfl]
      · by_cases hcon : event = .strategyConnected
        · simp [hcon]
        · simp [hdis, hcon, ih]
  · intro hpaused hshutdown
    rw [standing_snoc, standing_snoc]
    rcases sm.not_paused_transition event hpaused hshutdown with rfl | ⟨hp, hs, hdrop⟩
    · simp [NodeEvent.isPause]
    · rw [h.pause hp hs]
      simp only [and_iff_right_of_imp hdrop]
  · intro hlimited hshutdown
    rw [standing_snoc, standing_snoc]
    rcases sm.not_limited_transition event hlimited hshutdown with rfl | ⟨hl, hs, hdrop⟩
    · simp
    · rw [h.inactive hl hs]
      simp only [and_iff_right_of_imp hdrop]
  · rw [standing_snoc, h.gas, gasCritical_transition]
  · intro hshutdown
    obtain ⟨hs, hevent⟩ := sm.running_transition event hshutdown
    simpa [Ne.symm hevent] using h.running hs

/-! ## What the guard knows -/

/-- A node that can trade: its latest inputs allow that exactly if nothing that was dropped
is outstanding. -/
theorem Tracks.inputsAllow_iff {met : List (NodeState × NodeEvent)} {sm : NodeStateMachine}
    (h : Tracks met sm) (hcommit : sm.canCommit = true) :
    InputsAllow (met.map Prod.snd) ↔ NoneDropped met := by
  unfold canCommit at hcommit
  rw [Bool.and_eq_true, beq_iff_eq, Bool.not_eq_true'] at hcommit
  obtain ⟨hstate, hgas⟩ := hcommit
  have hstrategy := h.strategy (by rw [hstate]; rfl)
  have hpause := h.pause (by rw [hstate]; decide) (by rw [hstate]; decide)
  have hinactive := h.inactive (by rw [hstate]; decide) (by rw [hstate]; decide)
  constructor
  · rintro ⟨hup, hresumed, hactive, -, -⟩
    rw [standing_map] at hup hresumed hactive
    exact ⟨hstrategy.mp hup, fun hp => hresumed (hpause.mpr hp),
      fun hi => hactive (hinactive.mpr hi)⟩
  · rintro ⟨hd, hp, hi⟩
    constructor
    · rw [standing_map]
      exact hstrategy.mpr hd
    · rw [standing_map]
      exact fun hs => hp (hpause.mp hs)
    · rw [standing_map]
      exact fun hs => hi (hinactive.mp hs)
    · rw [standing_map, h.gas, hgas]
      exact Bool.false_ne_true
    · exact h.running (by rw [hstate]; decide)

/-- A trading node drops no event. -/
theorem noneDropped_snoc_trading {met : List (NodeState × NodeEvent)} (h : NoneDropped met)
    (event : NodeEvent) : NoneDropped (met ++ [(.trading, event)]) := by
  have hdrop : drops .trading event = false := by cases event <;> rfl
  constructor
  · rw [standing_snoc, hdrop]
    rintro (⟨hfalse, -⟩ | ⟨hs, -⟩)
    · exact Bool.false_ne_true hfalse
    · exact h.disconnect hs
  · rw [standing_snoc, hdrop]
    rintro (⟨hfalse, -⟩ | ⟨hs, -⟩)
    · exact Bool.false_ne_true hfalse
    · exact h.pause hs
  · rw [standing_snoc, hdrop]
    rintro (⟨hfalse, -⟩ | ⟨hs, -⟩)
    · exact Bool.false_ne_true hfalse
    · exact h.inactive hs

theorem run_eq_foldl (sm : NodeStateMachine) (events : List NodeEvent) :
    system.run sm events = some (events.foldl (fun sm event => (sm.transition event).2) sm) := by
  induction events generalizing sm with
  | nil => rfl
  | cons event events ih => exact ih _

/-- What a run meets are its events. -/
theorem map_trace_meets (sm : NodeStateMachine) (events : List NodeEvent) :
    (system.trace meets sm events).map Prod.snd = events := by
  induction events generalizing sm with
  | nil => rfl
  | cons event events ih =>
      have hstep : system.step sm event = some (sm.transition event).2 := rfl
      rw [system.trace_cons meets hstep, List.map_append, ih]
      rfl

/-- **What the trading guard knows.**  Along a sequence of events the node can commit only
when its latest inputs allow it, if and only if no event lets it trade while an event that
the state machine dropped is outstanding. -/
theorem canCommit_follows_inputs_iff (events : List NodeEvent) :
    (∀ past, past <+: events → ∀ sm, system.run new past = some sm →
        sm.canCommit = true → InputsAllow past) ↔
      system.FollowsSince meets
        (fun met sm event => sm.LetsTrade event → NoneDropped (met ++ [(sm.state, event)]))
        [] new events := by
  have hexact : system.Throughout meets
      (fun met sm => sm.canCommit = true → InputsAllow (met.map Prod.snd)) [] new events ↔
      system.FollowsSince meets
        (fun met sm event => sm.LetsTrade event → NoneDropped (met ++ [(sm.state, event)]))
        [] new events := by
    refine system.throughout_iff_followsSince meets (J := Tracks) ?_ ?_ tracks_new
      (fun h => absurd h (by decide)) (run_eq_foldl new events)
    · rintro met sm event sm' h ⟨⟩
      exact h.step event
    · rintro met sm event sm' h hP ⟨⟩
      have hstep := h.step event
      constructor
      · intro hP' htrade
        have hcommit := (sm.canCommit_transition event).mpr (.inl htrade)
        exact (hstep.inputsAllow_iff hcommit).mp (hP' hcommit)
      · intro hC hcommit
        refine (hstep.inputsAllow_iff hcommit).mpr ?_
        rcases (sm.canCommit_transition event).mp hcommit with htrade | ⟨hbefore, -⟩
        · exact hC htrade
        · -- it could trade before, and hears every event
          have htrading : sm.state = .trading := by
            unfold canCommit at hbefore
            rw [Bool.and_eq_true, beq_iff_eq] at hbefore
            exact hbefore.1
          rw [htrading]
          exact noneDropped_snoc_trading ((h.inputsAllow_iff hbefore).mp (hP hbefore)) event
  rw [← hexact]
  unfold System.Throughout
  simp only [List.nil_append, map_trace_meets]

/-- A strategy that leaves during a pause is not missed: after the resume the node may commit
without one. -/
theorem canCommit_without_strategy :
    ¬ ∀ events sm, system.run new events = some sm → sm.canCommit = true →
      InputsAllow events := by
  intro h
  have hallow := h [.setupComplete, .strategyConnected, .firstBatchEntered, .pauseDetected 1,
    .strategyDisconnected, .resumeDetected] _ rfl (by decide)
  exact absurd hallow.strategy (by decide)

end NodeStateMachine
