/-
# The core of the run loop

The phase handlers depend on the orders and matches of the batch cycle and on two clocks,
the orchestrator's and the loop's.  Every stage of a block is one of a few changes of this
core, or leaves it alone; `step_core` says so for a whole step.
-/
import DeadmktNode.RunLoop

namespace RunLoop

section

variable [Externals]

/-! ## The core -/

/-- The batch cycle, the two clocks and the last block that was polled for events. -/
structure Core where
  publishedCommits : List CommitMessage
  committedOrders : List ValidatedOrder
  currentMatches : List Match
  bridge : BatchStateBridge
  epoch : BatchEpoch
  params : BatchParams
  numPools : UInt64
  lastEventBlock : UInt64

/-- The core of a loop. -/
def core (l : RunLoop) : Core where
  publishedCommits := l.node.orchestrator.publishedCommits
  committedOrders := l.node.orchestrator.committedOrders
  currentMatches := l.node.orchestrator.currentMatches
  bridge := l.node.orchestrator.batchState
  epoch := l.epoch
  params := l.params
  numPools := l.numPools
  lastEventBlock := l.lastEventBlock

namespace Core

/-- Move the orchestrator's clock to a block. -/
def advance (c : Core) (block : UInt64) : Core :=
  { c with bridge := { c.bridge with blockHeight := block } }

/-- Take over what was fetched at a boundary. -/
def refetch (c : Core) (obs : Observation) : Core :=
  let numPools := obs.newNumPools.getD c.numPools
  { c with
    params := obs.newParams.getD c.params
    epoch := obs.newEpoch.getD c.epoch
    numPools := numPools
    bridge :=
      if numPools ≠ c.numPools then { c.bridge with numPools := numPools } else c.bridge }

/-- Follow a chain event. -/
def follow (c : Core) : ChainEvent → Core
  | .parameterChangeApplied _ paramName newValue =>
      { c with bridge := { c.bridge with
        params := Orchestrator.reloadedParams paramName newValue } }
  | .poolAdjusted _ newNumPools => { c with bridge := { c.bridge with numPools := newNumPools } }
  | _ => c

/-- The events that are polled with a block. -/
def polled (c : Core) (obs : Observation) : List ChainEvent :=
  if c.lastEventBlock < obs.block then (obs.events.getD []).map Prod.fst else []

omit [Externals] in
/-- What a poll hands to the core are events of the answer. -/
theorem mem_polled {c : Core} {obs : Observation} {event : ChainEvent}
    (h : event ∈ c.polled obs) : ∃ e ∈ obs.events.getD [], e.1 = event := by
  unfold polled at h
  split_ifs at h
  · exact List.mem_map.mp h
  · cases h

/-- The end of a block: follow the polled events. -/
def finish (c : Core) (obs : Observation) : Core :=
  { (c.polled obs).foldl follow c with
    lastEventBlock :=
      if c.lastEventBlock < obs.block then obs.block else c.lastEventBlock }

end Core

/-- Gossip leaves the core alone. -/
theorem core_processInboundGossip (l : RunLoop) (msg : GossipMessage) :
    { l with node := l.node.processInboundGossip msg }.core = l.core := by
  obtain ⟨commits, reveals, h⟩ := l.node.orchestrator_processInboundGossip msg
  unfold core
  rw [h]

/-- So does a whole queue of it. -/
@[simp] theorem core_drain (l : RunLoop) (msgs : List GossipMessage) :
    (l.drain msgs).core = l.core :=
  foldl_preserves (V := fun n => core { l with node := n })
    (fun n msg => core_processInboundGossip { l with node := n } msg) msgs l.node

omit [Externals] in
/-- The connection of the strategy is outside the core. -/
@[simp] theorem core_trackConnection (l : RunLoop) (connectedNow : Bool) :
    (l.trackConnection connectedNow).core = l.core := by
  unfold trackConnection
  dsimp only
  split_ifs <;> rfl

/-- When a block arrives, the core learns its height. -/
@[simp] theorem core_arrive (l : RunLoop) (obs : Observation) :
    (l.arrive obs).core = l.core.advance obs.block := by
  have h : ∀ l : RunLoop, (l.advance obs.block).core = l.core.advance obs.block := fun _ => rfl
  rw [arrive, h, core_trackConnection, core_drain]

/-- The core takes parameters, epoch and number of pools from what is fetched again. -/
theorem core_refetch (l : RunLoop) (obs : Observation) :
    (l.refetch obs).core = l.core.refetch obs := by
  unfold refetch Core.refetch
  cases obs.newNumPools with
  | none => simp [core]
  | some newNumPools =>
      by_cases h : newNumPools = l.numPools
      · simp [core, h]
      · simp [core, h, BatchStatePort.setNumPools]

omit [Externals] in
/-- The gas balance is outside the core. -/
theorem core_refreshGas (l : RunLoop) (obs : Observation) (newBatchId : UInt64) :
    (l.refreshGas obs newBatchId).core = l.core := by
  unfold refreshGas
  split_ifs
  · cases obs.newGasBalance <;> rfl
  · rfl

omit [Externals] in
/-- So is the pause. -/
theorem core_updatePause (l : RunLoop) (newBatchId : UInt64) :
    (l.updatePause newBatchId).core = l.core := by
  unfold updatePause
  split_ifs <;> rfl

/-- So is the pool. -/
theorem core_reassignPool (cfg : RunConfig) (l : RunLoop) (obs : Observation)
    (newBatchId : UInt64) : (l.reassignPool cfg obs newBatchId).1.core = l.core := by
  unfold reassignPool
  dsimp only
  split_ifs <;> rfl

/-- Of a batch boundary only the fetched values reach the core. -/
theorem core_boundary (cfg : RunConfig) (l : RunLoop) (obs : Observation)
    (newBatchId : UInt64) : (l.boundary cfg obs newBatchId).1.core = l.core.refetch obs := by
  unfold boundary
  dsimp only
  rw [core_updatePause, core_reassignPool]
  change (refreshGas _ obs newBatchId).core = _
  rw [core_refreshGas, core_refetch]
  rfl

/-- The core when the phase handler starts. -/
theorem core_atHandler (cfg : RunConfig) (l : RunLoop) (obs : Observation) :
    (l.atHandler cfg obs).1.core
      = if l.newBatchId obs ≠ l.lastBatchId then (l.core.advance obs.block).refetch obs
        else l.core.advance obs.block := by
  unfold atHandler
  split_ifs
  · rw [core_boundary, core_arrive]
  · exact l.core_arrive obs

/-! ### Handlers -/

omit [Externals] in
/-- So is the stage of the node. -/
theorem core_enterFirstBatch (l : RunLoop) : l.enterFirstBatch.core = l.core := by
  unfold enterFirstBatch
  split_ifs
  · split <;> rfl
  · rfl

/-- The orders of COMMIT are for the batch that is handed to their conversion. -/
theorem encodesFor_strategyOrders {cfg : RunConfig} {l : RunLoop} {obs : Observation}
    {newBatchId : UInt64} {canCommit : Bool} {orders : Option (List ValidatedOrder)}
    (h : l.strategyOrders cfg obs newBatchId canCommit = some orders) :
    ∀ v ∈ orders.getD [], EncodesFor newBatchId v.orderBytes := by
  unfold strategyOrders at h
  split_ifs at h
  · split at h
    · obtain ⟨validated, hvalidated, rfl⟩ := Option.map_eq_some_iff.mp h
      have hfor := encodesFor_convertStrategyOrders hvalidated
      split_ifs
      · simp
      · exact hfor
    · obtain rfl := Option.some.inj h
      simp
  · obtain rfl := Option.some.inj h
    simp

/-- COMMIT replaces the commits by those of orders for the new batch; it publishes them
under the batch of the orchestrator's clock. -/
theorem core_commitPhase {cfg : RunConfig} {l : RunLoop} {obs : Observation}
    {newBatchId : UInt64} {r : RunLoop × List LoopOutput}
    (h : l.commitPhase cfg obs newBatchId = some r) :
    ∃ (nftId poolId : UInt64) (orders : List ValidatedOrder),
      (∀ v ∈ orders, EncodesFor newBatchId v.orderBytes) ∧
      r.1.core = { l.core with
        publishedCommits := orders.map fun v =>
          ⟨nftId, poolId, l.core.bridge.currentBatchId, v.commitHash⟩
        committedOrders := orders } := by
  unfold commitPhase at h
  dsimp only at h
  have hcore : ((l.drain obs.late).enterFirstBatch).core = l.core := by
    rw [core_enterFirstBatch, core_drain]
  rw [← hcore]
  generalize (l.drain obs.late).enterFirstBatch = l' at h
  generalize (l'.nodeState.state = .trading && !l'.tradingPaused : Bool) = canCommit at h
  obtain ⟨orders, horders, rfl⟩ := Option.map_eq_some_iff.mp h
  obtain ⟨g, events, -, ho⟩ := l'.node.orchestrator_commitHandler canCommit orders obs.sent
  refine ⟨l'.node.orchestrator.nodeNftId, l'.node.orchestrator.poolId,
    LiveNode.ordersToCommit canCommit orders, ?_, ?_⟩
  · intro v hv
    unfold LiveNode.ordersToCommit at hv
    split_ifs at hv
    · exact encodesFor_strategyOrders horders v hv
    · cases hv
  · unfold core
    dsimp only
    rw [ho]
    rfl

/-- REVEAL leaves the core alone. -/
theorem core_revealPhase (l : RunLoop) (obs : Observation) :
    (l.revealPhase obs).1.core = l.core := by
  rw [← l.core_drain obs.late]
  unfold revealPhase core
  dsimp only
  rw [LiveNode.orchestrator_revealHandler]

/-- MATCH replaces the matches by those of the engine. -/
theorem core_matchPhase (l : RunLoop) (obs : Observation) :
    (l.matchPhase obs).core = { l.core with
      currentMatches := runMatching (l.drain obs.late).node.orchestrator.matchingInput } := by
  rw [← l.core_drain obs.late]
  obtain ⟨registered, h⟩ := (l.drain obs.late).node.orchestrator_matchHandler
  unfold matchPhase core
  dsimp only
  rw [h]

/-- SWAP hands the matches that it takes to settlement; without a submitter, or without matches,
it only drains. -/
theorem swapPhase_cases {cfg : RunConfig} {l : RunLoop} {obs : Observation}
    {r : RunLoop × List LoopOutput} (h : l.swapPhase cfg obs = some r) :
    (cfg.hasSubmitter = true ∧
      ∃ p, (l.drain obs.late).settlement.swapMatches ((l.drain obs.late).swapContext cfg obs)
          (l.drain obs.late).core.currentMatches = some p ∧
        r = ({ l.drain obs.late with
            node := { (l.drain obs.late).node with
              orchestrator := (l.drain obs.late).node.orchestrator.takeMatches.2 }
            settlement := p.1 },
          (p.2.zipIdx.filter (fun q => obs.queued q.2)).map fun q => .settle q.1)) ∨
      ((cfg.hasSubmitter = true → (l.drain obs.late).core.currentMatches = []) ∧
        r = (l.drain obs.late, [])) := by
  unfold swapPhase at h
  dsimp only at h
  split_ifs at h with htake
  · rw [Bool.and_eq_true] at htake
    obtain ⟨p, hp, rfl⟩ := Option.map_eq_some_iff.mp h
    exact .inl ⟨htake.2, p, hp, rfl⟩
  · obtain rfl := Option.some.inj h
    refine .inr ⟨fun hsub => ?_, rfl⟩
    rw [hsub, Bool.and_true, decide_eq_true_eq, Nat.not_lt, Nat.le_zero] at htake
    exact List.length_eq_zero_iff.mp htake

/-- SWAP with a submitter takes the matches out. -/
theorem core_swapPhase {cfg : RunConfig} {l : RunLoop} {obs : Observation}
    {r : RunLoop × List LoopOutput} (h : l.swapPhase cfg obs = some r) :
    r.1.core = { l.core with
      currentMatches := if cfg.hasSubmitter then [] else l.core.currentMatches } := by
  rw [← l.core_drain obs.late]
  rcases swapPhase_cases h with ⟨hsub, p, -, rfl⟩ | ⟨hnil, rfl⟩
  · rw [if_pos hsub]
    rfl
  · split_ifs with hsub
    · rw [← hnil hsub]
    · rfl

/-! ### The end of a block -/

omit [Externals] in
/-- The reports of the worker are outside the core. -/
theorem core_drainReport (block newBatchId : UInt64) (l : RunLoop) (result : SettleResult) :
    (drainReport block newBatchId l result).core = l.core := by
  unfold drainReport core
  dsimp only
  split_ifs <;> rfl

/-- The core follows an event of the chain. -/
theorem core_handleEvent (l : RunLoop) (event : ChainEvent × List String) :
    (l.handleEvent event).core = l.core.follow event.1 := by
  obtain ⟨event, order⟩ := event
  cases event with
  | withdrawalRequested nftId token amount =>
      unfold handleEvent core Orchestrator.onChainEvent
      dsimp only
      split_ifs <;> rfl
  | _ => rfl

/-- It follows all of them in order. -/
theorem core_foldl_handleEvent (l : RunLoop) (events : List (ChainEvent × List String)) :
    (events.foldl handleEvent l).core = (events.map Prod.fst).foldl Core.follow l.core := by
  induction events generalizing l with
  | nil => rfl
  | cons event events ih =>
      rw [List.foldl_cons, ih, core_handleEvent, List.map_cons, List.foldl_cons]

/-- A poll ends the block for the core. -/
theorem core_pollEvents (l : RunLoop) (obs : Observation) :
    (l.pollEvents obs).core = l.core.finish obs := by
  unfold pollEvents Core.finish Core.polled
  have hblock : l.core.lastEventBlock = l.lastEventBlock := rfl
  rw [hblock]
  by_cases hnew : l.lastEventBlock < obs.block
  · rw [if_pos hnew, if_pos hnew, if_pos hnew, ← core_foldl_handleEvent]
    rfl
  · rw [if_neg hnew, if_neg hnew, if_neg hnew]
    rfl

/-- The end of a block is the poll, for the core. -/
theorem core_finish (obs : Observation) (newPhase : Phase) (newBatchId : UInt64)
    (r : RunLoop × List LoopOutput) :
    (finish obs newPhase newBatchId r).1.core = r.1.core.finish obs := by
  have hresults : (obs.results.foldl (drainReport obs.block newBatchId) r.1).core
      = r.1.core :=
    foldl_preserves (V := core) (core_drainReport obs.block newBatchId) obs.results r.1
  rw [← hresults, ← core_pollEvents]
  rfl

/-! ### A step -/

/-- A handler changes only the batch cycle. -/
theorem core_phaseHandler {cfg : RunConfig} {l : RunLoop} {obs : Observation}
    {newBatchId : UInt64} {newPhase : Phase} {r : RunLoop × List LoopOutput}
    (h : l.phaseHandler cfg obs newBatchId newPhase = some r) :
    ∃ commits orders found, r.1.core = { l.core with
      publishedCommits := commits
      committedOrders := orders
      currentMatches := found } := by
  cases newPhase with
  | commit =>
      obtain ⟨_, _, _, -, hcore⟩ := core_commitPhase h
      exact ⟨_, _, _, hcore⟩
  | reveal =>
      obtain rfl := Option.some.inj h
      exact ⟨_, _, _, l.core_revealPhase obs⟩
  | «match» =>
      obtain rfl := Option.some.inj h
      exact ⟨_, _, _, l.core_matchPhase obs⟩
  | swap => exact ⟨_, _, _, core_swapPhase h⟩

/-- What a step does to the core. -/
inductive CoreStep (cfg : RunConfig) (l l' : RunLoop) : Input → Prop where
  | gossip (msg : GossipMessage) (hcore : l'.core = l.core) : CoreStep cfg l l' (.gossip msg)
  /-- the block is not new -/
  | old (obs : Observation) (hold : obs.block ≤ l.lastBlock) (hcore : l'.core = l.core) :
      CoreStep cfg l l' (.block obs)
  /-- the loop is behind and skips ahead -/
  | skipped (obs : Observation) (htrans : l.Transition obs) (hbehind : l.Behind obs)
      (hcore : l'.core = l.core.advance obs.block) : CoreStep cfg l l' (.block obs)
  /-- phase and batch are those of the last block -/
  | quiet (obs : Observation) (hnew : l.lastBlock < obs.block) (hquiet : ¬ l.Transition obs)
      (hcore : l'.core = (l.core.advance obs.block).finish obs) :
      CoreStep cfg l l' (.block obs)
  | handled (obs : Observation) (r : RunLoop × List LoopOutput) (hruns : l.RunsHandler obs)
      (hr : (l.atHandler cfg obs).1.phaseHandler cfg obs (l.newBatchId obs)
        (l.newPhase obs) = some r)
      (hcore : l'.core = r.1.core.finish obs) : CoreStep cfg l l' (.block obs)

/-- How an input is handled: the state after it and what is handed out. -/
inductive HandleStep (cfg : RunConfig) (l : RunLoop) :
    Input → RunLoop × List LoopOutput → Prop where
  | gossip (msg : GossipMessage) :
      HandleStep cfg l (.gossip msg) ({ l with node := l.node.processInboundGossip msg }, [])
  | old (obs : Observation) (hold : obs.block ≤ l.lastBlock) :
      HandleStep cfg l (.block obs) (l.drain obs.buffered, [])
  | skipped (obs : Observation) (hnew : l.lastBlock < obs.block) (htrans : l.Transition obs)
      (hbehind : l.Behind obs) :
      HandleStep cfg l (.block obs)
        ((l.arrive obs).observed obs.block (l.newPhase obs) (l.newBatchId obs), [])
  | quiet (obs : Observation) (hnew : l.lastBlock < obs.block) (hquiet : ¬ l.Transition obs) :
      HandleStep cfg l (.block obs)
        (finish obs (l.newPhase obs) (l.newBatchId obs) (l.arrive obs, []))
  | handled (obs : Observation) (r : RunLoop × List LoopOutput) (hruns : l.RunsHandler obs)
      (hr : (l.atHandler cfg obs).1.phaseHandler cfg obs (l.newBatchId obs)
        (l.newPhase obs) = some r) :
      HandleStep cfg l (.block obs) (finish obs (l.newPhase obs) (l.newBatchId obs)
        (r.1, (l.atHandler cfg obs).2 ++ r.2))

/-- **Inversion.** -/
theorem handle_cases {cfg : RunConfig} {l : RunLoop} {i : Input} {r : RunLoop × List LoopOutput}
    (h : l.handle cfg i = some r) : HandleStep cfg l i r := by
  cases i with
  | gossip msg =>
      obtain rfl := Option.some.inj h
      exact .gossip msg
  | block obs =>
      change l.onBlock cfg obs = some r at h
      unfold onBlock at h
      split_ifs at h with hold hzero htrans hbehind
      · obtain rfl := Option.some.inj h
        exact .old obs hold
      · obtain rfl := Option.some.inj h
        exact .skipped obs (UInt64.not_le.mp hold) htrans hbehind
      · obtain ⟨r', hr', rfl⟩ := Option.map_eq_some_iff.mp h
        obtain ⟨r₀, hr₀, rfl⟩ := Option.map_eq_some_iff.mp hr'
        exact .handled obs r₀ ⟨UInt64.not_le.mp hold, htrans, hbehind⟩ hr₀
      · obtain rfl := Option.some.inj h
        exact .quiet obs (UInt64.not_le.mp hold) htrans

/-- **Inversion of a step.** -/
theorem step_core {cfg : RunConfig} {l l' : RunLoop} {i : Input}
    (h : step cfg l i = some l') : CoreStep cfg l l' i := by
  obtain ⟨r, hr, rfl⟩ := Option.map_eq_some_iff.mp h
  cases handle_cases hr with
  | gossip msg => exact .gossip msg (l.core_processInboundGossip msg)
  | old obs hold => exact .old obs hold (l.core_drain _)
  | skipped obs hnew htrans hbehind => exact .skipped obs htrans hbehind (l.core_arrive obs)
  | quiet obs hnew hquiet =>
      refine .quiet obs hnew hquiet ?_
      rw [core_finish, core_arrive]
  | handled obs r₀ hruns hr₀ => exact .handled obs r₀ hruns hr₀ (core_finish ..)

end

end RunLoop
