/-
# What the loop hands out

Messages, pool changes, settlement requests and notices leave the loop as outputs.  A run hands
out those of its blocks one after the other; a property of what was handed out so far and of the
state is proved for one block and holds after a run (`sentCommands_history`).  Of the state only
pool, NFT and outbound queues matter to what goes to the gossip task (`Outgoing`).
-/
import DeadmktNode.LoopCore

/-- The command for the gossip task in an output. -/
def LoopOutput.command : LoopOutput → Option SwarmCommand
  | .swarm command => some command
  | _ => none

namespace RunLoop

/-- The commands among some outputs. -/
def commandsOf (outputs : List LoopOutput) : List SwarmCommand :=
  outputs.filterMap LoopOutput.command

theorem commandsOf_append (os os' : List LoopOutput) :
    commandsOf (os ++ os') = commandsOf os ++ commandsOf os' := List.filterMap_append ..

/-- Publishing messages sends a command for each of them. -/
theorem commandsOf_publishAll (msgs : List (UInt64 × GossipMessage)) :
    commandsOf (publishAll msgs) = msgs.map fun p => .publish p.1 p.2 := by
  unfold commandsOf publishAll
  rw [List.filterMap_map, ← List.filterMap_eq_map]
  rfl

section

variable [Externals]

/-- The commands that are sent with an input. -/
def commands (cfg : RunConfig) (l : RunLoop) (i : Input) : Option (List SwarmCommand) :=
  (l.handle cfg i).map fun r => commandsOf r.2

/-- The commands of a run, in order. -/
def sentCommands (cfg : RunConfig) (l : RunLoop) (is : List Input) : List SwarmCommand :=
  ((system cfg).trace (commands cfg) l is).flatten

/-- **Invariants with the commands that were sent.** -/
theorem sentCommands_history {cfg : RunConfig} {C : RunLoop → Input → Prop}
    {I : List SwarmCommand → RunLoop → Prop}
    (hstep : ∀ sent l i r, I sent l → C l i → l.handle cfg i = some r →
      I (sent ++ commandsOf r.2) r.1)
    {l l' : RunLoop} {is : List Input} (hl : I [] l) (hC : (system cfg).Follows C l is)
    (hrun : (system cfg).run l is = some l') : I (sentCommands cfg l is) l' := by
  have h : I (([] : List (List SwarmCommand)) ++ (system cfg).trace (commands cfg) l is).flatten
      l' := by
    refine (system cfg).trace_history_of_follows (commands cfg) (C := C)
      (I := fun shown l => I shown.flatten l) ?_ hl hC hrun
    intro shown l i l' hI hi hl'
    obtain ⟨r, hr, rfl⟩ := Option.map_eq_some_iff.mp hl'
    have hcommands : (commands cfg l i).toList = [commandsOf r.2] := by
      rw [commands, hr]
      rfl
    rw [hcommands, List.flatten_append, List.flatten_singleton]
    exact hstep _ l i r hI hi hr
  exact h

/-! ## The commands of a block -/

/-- After the handler nothing more is sent. -/
theorem commandsOf_finish (obs : Observation) (newPhase : Phase) (newBatchId : UInt64)
    (r : RunLoop × List LoopOutput) :
    commandsOf (finish obs newPhase newBatchId r).2 = commandsOf r.2 := by
  have hnotices : ∀ events : List StrategyEvent,
      commandsOf (events.map LoopOutput.strategy) = [] := by
    intro events
    rw [commandsOf, List.filterMap_map]
    exact List.filterMap_eq_nil_iff.mpr fun _ _ => rfl
  show commandsOf (r.2 ++ List.map LoopOutput.strategy _) = _
  rw [commandsOf_append, hnotices, List.append_nil]

/-! ## Pool, NFT and outbound queues -/

/-- The part of the state that decides what goes to the gossip task. -/
structure Outgoing where
  myPool : UInt64
  nodeNftId : UInt64
  pendingCommits : List (UInt64 × GossipMessage)
  pendingReveals : List (UInt64 × GossipMessage)

/-- That part of a loop. -/
def outgoing (l : RunLoop) : Outgoing where
  myPool := l.myPool
  nodeNftId := l.node.orchestrator.nodeNftId
  pendingCommits := l.node.orchestrator.gossip.pendingCommits
  pendingReveals := l.node.orchestrator.gossip.pendingReveals

/-- Inbound gossip leaves it alone. -/
theorem outgoing_processInboundGossip (l : RunLoop) (msg : GossipMessage) :
    outgoing { l with node := l.node.processInboundGossip msg } = l.outgoing := by
  obtain ⟨commits, reveals, h⟩ := l.node.orchestrator_processInboundGossip msg
  unfold outgoing
  rw [h]

theorem outgoing_drain (l : RunLoop) (msgs : List GossipMessage) :
    (l.drain msgs).outgoing = l.outgoing :=
  foldl_preserves (V := fun n => outgoing { l with node := n })
    (fun n msg => outgoing_processInboundGossip { l with node := n } msg) msgs l.node

/-- So does everything that a block finds on its arrival. -/
theorem outgoing_arrive (l : RunLoop) (obs : Observation) :
    (l.arrive obs).outgoing = l.outgoing := by
  rw [← l.outgoing_drain obs.buffered]
  show ((l.drain obs.buffered).trackConnection obs.strategyConnected).outgoing = _
  unfold trackConnection
  dsimp only
  split_ifs <;> rfl

/-- New parameters change neither pool nor queues. -/
theorem outgoing_refetch (l : RunLoop) (obs : Observation) :
    (l.refetch obs).outgoing = l.outgoing := by
  unfold refetch
  cases obs.newNumPools with
  | none => rfl
  | some newNumPools =>
      dsimp only
      split_ifs <;> rfl

omit [Externals] in
/-- Nor does the gas balance. -/
theorem outgoing_refreshGas (l : RunLoop) (obs : Observation) (newBatchId : UInt64) :
    (l.refreshGas obs newBatchId).outgoing = l.outgoing := by
  unfold refreshGas
  split_ifs
  · cases obs.newGasBalance <;> rfl
  · rfl

omit [Externals] in
theorem outgoing_updatePause (l : RunLoop) (newBatchId : UInt64) :
    (l.updatePause newBatchId).outgoing = l.outgoing := by
  unfold updatePause
  split_ifs <;> rfl

/-- A reassignment changes the pool alone. -/
theorem outgoing_reassignPool (cfg : RunConfig) (l : RunLoop) (obs : Observation)
    (newBatchId : UInt64) : ∃ p,
      (l.reassignPool cfg obs newBatchId).1.outgoing = { l.outgoing with myPool := p } := by
  unfold reassignPool
  dsimp only
  split_ifs <;> exact ⟨_, rfl⟩

/-- Before the pool is reassigned a boundary only fetches. -/
theorem exists_boundary_eq (cfg : RunConfig) (l : RunLoop) (obs : Observation)
    (newBatchId : UInt64) : ∃ l₁ : RunLoop, l₁.core = l.core.refetch obs ∧
      l₁.outgoing = l.outgoing ∧ l.boundary cfg obs newBatchId
        = ((l₁.reassignPool cfg obs newBatchId).1.updatePause newBatchId,
          (l₁.reassignPool cfg obs newBatchId).2) := by
  refine ⟨_, ?_, ?_, rfl⟩
  · change (refreshGas _ obs newBatchId).core = _
    rw [core_refreshGas, core_refetch]
    rfl
  · change (refreshGas _ obs newBatchId).outgoing = _
    rw [outgoing_refreshGas, outgoing_refetch]
    rfl

omit [Externals] in
theorem outgoing_drainReport (block newBatchId : UInt64) (l : RunLoop) (result : SettleResult) :
    (drainReport block newBatchId l result).outgoing = l.outgoing := by
  unfold drainReport outgoing
  dsimp only
  split_ifs <;> rfl

/-- A chain event is a matter of the settlements and the tracker. -/
theorem outgoing_handleEvent (l : RunLoop) (event : ChainEvent × List String) :
    (l.handleEvent event).outgoing = l.outgoing := by
  obtain ⟨event, order⟩ := event
  cases event with
  | withdrawalRequested nftId token amount =>
      unfold handleEvent outgoing Orchestrator.onChainEvent
      dsimp only
      split_ifs <;> rfl
  | _ => rfl

/-- What follows the handler of a block leaves it alone. -/
theorem outgoing_finish (obs : Observation) (newPhase : Phase) (newBatchId : UInt64)
    (r : RunLoop × List LoopOutput) :
    (finish obs newPhase newBatchId r).1.outgoing = r.1.outgoing := by
  have hresults : (obs.results.foldl (drainReport obs.block newBatchId) r.1).outgoing
      = r.1.outgoing :=
    foldl_preserves (V := outgoing) (outgoing_drainReport obs.block newBatchId) obs.results r.1
  have hpoll : ∀ l : RunLoop, (l.pollEvents obs).outgoing = l.outgoing := by
    intro l
    unfold pollEvents
    split_ifs
    · exact foldl_preserves (V := outgoing) outgoing_handleEvent (obs.events.getD []) l
    · rfl
  exact (hpoll _).trans hresults

/-! ### The handlers -/

/-- MATCH only reads the queues of the other side. -/
theorem outgoing_matchPhase (l : RunLoop) (obs : Observation) :
    (l.matchPhase obs).outgoing = l.outgoing := by
  obtain ⟨registered, ho⟩ := (l.drain obs.late).node.orchestrator_matchHandler
  rw [← l.outgoing_drain obs.late]
  unfold matchPhase outgoing
  dsimp only
  rw [ho]

/-- SWAP sends requests for settlement only. -/
theorem outgoing_swapPhase {cfg : RunConfig} {l : RunLoop} {obs : Observation}
    {r : RunLoop × List LoopOutput} (h : l.swapPhase cfg obs = some r) :
    r.1.outgoing = l.outgoing ∧ commandsOf r.2 = [] := by
  rw [← l.outgoing_drain obs.late]
  rcases swapPhase_cases h with ⟨-, p, -, rfl⟩ | ⟨-, rfl⟩
  · refine ⟨rfl, ?_⟩
    rw [commandsOf, List.filterMap_map]
    exact List.filterMap_eq_nil_iff.mpr fun _ _ => rfl
  · exact ⟨rfl, rfl⟩

/-- The messages that the handler of a phase sends. -/
theorem commandsOf_phaseHandler {cfg : RunConfig} {l : RunLoop} {obs : Observation}
    {newBatchId : UInt64} {newPhase : Phase} {r : RunLoop × List LoopOutput}
    (h : l.phaseHandler cfg obs newBatchId newPhase = some r) :
    ∃ msgs : List (UInt64 × GossipMessage),
      commandsOf r.2 = msgs.map fun p => .publish p.1 p.2 := by
  cases newPhase with
  | commit =>
      obtain ⟨orders, -, rfl⟩ := Option.map_eq_some_iff.mp h
      exact ⟨_, commandsOf_publishAll _⟩
  | reveal =>
      obtain rfl := Option.some.inj h
      exact ⟨_, commandsOf_publishAll _⟩
  | «match» =>
      obtain rfl := Option.some.inj h
      exact ⟨[], rfl⟩
  | swap => exact ⟨[], (outgoing_swapPhase h).2⟩

end

end RunLoop
