/-
# The run loop

The main loop of a trading node.  Between two blocks it stores inbound gossip.  On a new
block it moves the clock; at a change of phase or batch it runs the maintenance of a batch
boundary and the handler of the phase, unless it has fallen more than two batches behind;
then it drains settlement reports, chain events and notices for the strategy.

The loop keeps epoch, parameters and pool count in local variables, which it fetches
again at every batch boundary.  `Observation` holds what the outside answers while one
block is handled.
-/
import DeadmktNode.NodeState
import DeadmktNode.SwapHandler
import DeadmktNode.TokenWorker

/-! ## Configuration, answers and outputs -/

/-- What a node is started with. -/
structure RunConfig where
  nftId : UInt64
  signingKey : SigningKey
  tokenDecimals : HashMap String UInt8
  marketConfigs : List MarketConfig
  /-- is there a settlement submitter? -/
  hasSubmitter : Bool

/-- What the loop is told while it handles a block. -/
structure Observation where
  block : UInt64
  /-- gossip in the channel when the block arrives -/
  buffered : List GossipMessage
  strategyConnected : Bool
  /-- the unknown NFTs in the order in which their keys are fetched -/
  keyOrder : List UInt64
  keyAnswer : UInt64 → KeyAnswer
  newParams : Option BatchParams
  newEpoch : Option BatchEpoch
  newNumPools : Option UInt64
  newGasBalance : Option UInt64
  /-- does the swarm channel take the two commands of a pool change? -/
  canUnsubscribe : Bool
  canSubscribe : Bool
  /-- gossip in the channel when the phase handler starts -/
  late : List GossipMessage
  /-- is the strategy connected when the phase handler asks it? -/
  canAsk : Bool
  action : Option StrategyAction
  nonces : ℕ → Bytes
  /-- does the swarm channel take the `i`-th message? -/
  sent : ℕ → Bool
  isActive : UInt64 → Option Bool
  /-- does the settlement channel take the `i`-th request? -/
  queued : ℕ → Bool
  results : List SettleResult
  /-- the polled chain events, each with the iteration order of the pending map -/
  events : Option (List (ChainEvent × List String))

/-- A command for the gossip task. -/
inductive SwarmCommand where
  | publish (poolId : UInt64) (msg : GossipMessage)
  | subscribePool (poolId : UInt64)
  | unsubscribePool (poolId : UInt64)
deriving DecidableEq

/-- What the loop hands out. -/
inductive LoopOutput where
  | swarm (command : SwarmCommand)
  | settle (request : SettleRequest)
  | strategy (event : StrategyEvent)
deriving DecidableEq

/-! ## State -/

/-- The state of the loop. -/
structure RunLoop where
  node : LiveNode
  settlement : SettlementManager
  nodeState : NodeStateMachine
  gas : GasManager
  epoch : BatchEpoch
  params : BatchParams
  numPools : UInt64
  myPool : UInt64
  lastBlock : UInt64
  lastPhase : Phase
  lastBatchId : UInt64
  lastEventBlock : UInt64
  tradingPaused : Bool
  pausedSinceBatch : UInt64
  strategyWasConnected : Bool
  firstBatchEntered : Bool

namespace RunLoop

section

variable [Externals]

/-- The loop at start-up: clock and pool count were just fetched, the ledger is at
`height` and the tracker is seeded. -/
def start (cfg : RunConfig) (epoch : BatchEpoch) (params : BatchParams) (numPools : UInt64)
    (height : UInt64) (tracker : EscrowTracker) (gasBalance : Option UInt64) : RunLoop :=
  let batchId := computeBatchId height epoch params
  { node :=
      { orchestrator := { Orchestrator.new GossipBridge.new
            (BatchStateBridge.new epoch params numPools cfg.nftId) cfg.nftId with
          marketConfigs := cfg.marketConfigs }
        validator := GossipValidator.new batchId }
    settlement := SettlementManager.new tracker cfg.nftId
    nodeState := (NodeStateMachine.new.transition .setupComplete).2
    gas := match gasBalance with
      | none => GasManager.new 8
      | some balance => ((GasManager.new 8).updateBalance balance).2
    epoch := epoch
    params := params
    numPools := numPools
    myPool := computePoolAssignment cfg.nftId batchId (max numPools 1)
    lastBlock := height
    lastPhase := computePhase height epoch params
    lastBatchId := batchId
    lastEventBlock := height
    tradingPaused := false
    pausedSinceBatch := 0
    strategyWasConnected := false
    firstBatchEntered := false }

/-- Store buffered gossip. -/
def drain (l : RunLoop) (msgs : List GossipMessage) : RunLoop :=
  { l with node := msgs.foldl LiveNode.processInboundGossip l.node }

/-- Follow the strategy's connection. -/
def trackConnection (l : RunLoop) (connectedNow : Bool) : RunLoop :=
  let l :=
    if connectedNow && !l.strategyWasConnected then
      { l with nodeState := (l.nodeState.transition .strategyConnected).2 }
    else if !connectedNow && l.strategyWasConnected then
      { l with
        nodeState := (l.nodeState.transition .strategyDisconnected).2
        firstBatchEntered := false }
    else l
  { l with strategyWasConnected := connectedNow }

/-- Move the orchestrator's clock to a block. -/
def advance (l : RunLoop) (block : UInt64) : RunLoop :=
  { l with node := { l.node with orchestrator := { l.node.orchestrator with
      batchState := BatchStatePort.advanceToBlock l.node.orchestrator.batchState block } } }

/-! ## Batch boundary -/

/-- Fetch parameters, epoch and pool count again; a failed request keeps the old value.
Of the three only a new pool count is passed on to the orchestrator's clock. -/
def refetch (l : RunLoop) (obs : Observation) : RunLoop :=
  let l := { l with
    params := obs.newParams.getD l.params
    epoch := obs.newEpoch.getD l.epoch }
  match obs.newNumPools with
  | none => l
  | some newNumPools =>
      if newNumPools ≠ l.numPools then
        { l with
          numPools := newNumPools
          node := { l.node with orchestrator := { l.node.orchestrator with
            batchState :=
              BatchStatePort.setNumPools l.node.orchestrator.batchState newNumPools } } }
      else l

/-- Read the gas balance, every tenth batch. -/
def refreshGas (l : RunLoop) (obs : Observation) (newBatchId : UInt64) : RunLoop :=
  if newBatchId % 10 = 0 then
    match obs.newGasBalance with
    | none => l
    | some balance => { l with gas := (l.gas.updateBalance balance).2 }
  else l

/-- Move to the pool of the new batch. -/
def reassignPool (cfg : RunConfig) (l : RunLoop) (obs : Observation) (newBatchId : UInt64) :
    RunLoop × List LoopOutput :=
  let newPool := computePoolAssignment cfg.nftId newBatchId
    (max (BatchStatePort.numPools l.node.orchestrator.batchState) 1)
  if newPool ≠ l.myPool then
    ({ l with myPool := newPool },
      (if obs.canUnsubscribe then [.swarm (.unsubscribePool l.myPool)] else [])
        ++ (if obs.canSubscribe then [.swarm (.subscribePool newPool)] else []))
  else (l, [])

/-- Pause trading when gas is critical, and resume it only when gas is normal again. -/
def updatePause (l : RunLoop) (newBatchId : UInt64) : RunLoop :=
  if !l.tradingPaused && l.gas.checkStatus = .critical then
    { l with tradingPaused := true, pausedSinceBatch := newBatchId }
  else if l.tradingPaused && l.gas.checkStatus = .normal then
    { l with tradingPaused := false, pausedSinceBatch := 0 }
  else l

/-- The maintenance at the first block that is handled in a batch. -/
def boundary (cfg : RunConfig) (l : RunLoop) (obs : Observation) (newBatchId : UInt64) :
    RunLoop × List LoopOutput :=
  let node := l.node.maintainGossip newBatchId
  let l := { l with node := { node with
    validator := node.validator.fetchPubkeys newBatchId obs.keyOrder obs.keyAnswer } }
  let l := (l.refetch obs).refreshGas obs newBatchId
  let l := { l with
    settlement := l.settlement.expireStale newBatchId 100
    node := l.node.clearPublishedReveals }
  let (l, outputs) := l.reassignPool cfg obs newBatchId
  (l.updatePause newBatchId, outputs)

/-! ## Phase handlers -/

/-- The first COMMIT after the strategy came takes the node into trading. -/
def enterFirstBatch (l : RunLoop) : RunLoop :=
  if !l.firstBatchEntered && l.nodeState.state = .observing then
    match l.nodeState.transition .firstBatchEntered with
    | (.ok _, nodeState) => { l with nodeState := nodeState, firstBatchEntered := true }
    | (.error _, nodeState) => { l with nodeState := nodeState }
  else l

/-- The orders that the strategy gives in COMMIT.  `none` outside is a panic of the
conversion; `none` inside, no orders. -/
def strategyOrders (cfg : RunConfig) (l : RunLoop) (obs : Observation) (newBatchId : UInt64)
    (canCommit : Bool) : Option (Option (List ValidatedOrder)) :=
  if canCommit && obs.canAsk then
    match obs.action with
    | some (.commit orderSpecs) =>
        (convertStrategyOrders orderSpecs cfg.signingKey cfg.nftId newBatchId l.params
          l.settlement.tracker cfg.tokenDecimals l.node.orchestrator.marketConfigs
          obs.nonces).map fun validated => if validated.isEmpty then none else some validated
    | _ => some none
  else some none

/-- Messages that go to the gossip task. -/
def publishAll (msgs : List (UInt64 × GossipMessage)) : List LoopOutput :=
  msgs.map fun p => .swarm (.publish p.1 p.2)

def commitPhase (cfg : RunConfig) (l : RunLoop) (obs : Observation) (newBatchId : UInt64) :
    Option (RunLoop × List LoopOutput) :=
  let l := (l.drain obs.late).enterFirstBatch
  let canCommit := l.nodeState.state = .trading && !l.tradingPaused
  (l.strategyOrders cfg obs newBatchId canCommit).map fun orders =>
    let (node, msgs) := l.node.commitHandler canCommit orders obs.sent
    ({ l with node := node }, publishAll msgs)

/-- The indices that the strategy reveals, if it is asked and answers. -/
def strategyIndices (l : RunLoop) (obs : Observation) : Option (List UInt32) :=
  if !l.tradingPaused && 0 < l.node.orchestrator.publishedCommits.length && obs.canAsk then
    match obs.action with
    | some (.reveal revealIndices) => some revealIndices
    | _ => none
  else none

def revealPhase (l : RunLoop) (obs : Observation) : RunLoop × List LoopOutput :=
  let l := l.drain obs.late
  let (node, msgs) := l.node.revealHandler (l.strategyIndices obs) obs.sent
  ({ l with node := node }, publishAll msgs)

def matchPhase (l : RunLoop) (obs : Observation) : RunLoop :=
  let l := l.drain obs.late
  { l with node := l.node.matchHandler }

/-- What SWAP reads besides the matches. -/
def swapContext (cfg : RunConfig) (l : RunLoop) (obs : Observation) : SwapContext where
  block := obs.block
  blocksPerBatch := l.params.blocksPerBatch
  tokenDecimals := cfg.tokenDecimals
  isActive := obs.isActive

/-- SWAP: without a submitter the matches stay where they are. -/
def swapPhase (cfg : RunConfig) (l : RunLoop) (obs : Observation) :
    Option (RunLoop × List LoopOutput) :=
  let l := l.drain obs.late
  if 0 < l.node.orchestrator.onSwapPhase && cfg.hasSubmitter then
    let (taken, orchestrator) := l.node.orchestrator.takeMatches
    (l.settlement.swapMatches (l.swapContext cfg obs) taken).map fun (mgr, requests) =>
      ({ l with node := { l.node with orchestrator := orchestrator }, settlement := mgr },
        (requests.zipIdx.filter (fun p => obs.queued p.2)).map fun p => .settle p.1)
  else some (l, [])

/-- The handler of a phase.  `none` is a panic. -/
def phaseHandler (cfg : RunConfig) (l : RunLoop) (obs : Observation) (newBatchId : UInt64) :
    Phase → Option (RunLoop × List LoopOutput)
  | .commit => l.commitPhase cfg obs newBatchId
  | .reveal => some (l.revealPhase obs)
  | .match => some (l.matchPhase obs, [])
  | .swap => l.swapPhase cfg obs

/-! ## After the handler -/

/-- One settlement report; the strategy is told of a failure. -/
def drainReport (block newBatchId : UInt64) (l : RunLoop) (result : SettleResult) : RunLoop :=
  let o := l.node.orchestrator
  let failed := StrategyEvent.settlementFailed newBatchId result.matchHash result.errorReason
  { l with
    settlement := l.settlement.drainResult block result
    node := { l.node with
      orchestrator := if result.errorReason ≠ "" then o.pushEvent failed else o } }

/-- One chain event. -/
def handleEvent (l : RunLoop) (event : ChainEvent × List String) : RunLoop :=
  { l with
    node := { l.node with orchestrator := l.node.orchestrator.onChainEvent event.1 }
    settlement :=
      match event.1 with
      | .batchTradeSettled evt => (l.settlement.onSettlementConfirmed event.2 evt).2
      | _ => l.settlement }

/-- Poll the chain for events since the last poll; a failed request is not repeated. -/
def pollEvents (l : RunLoop) (obs : Observation) : RunLoop :=
  if l.lastEventBlock < obs.block then
    { (obs.events.getD []).foldl handleEvent l with lastEventBlock := obs.block }
  else l

/-- Send the queued notices to the strategy. -/
def drainStrategyEvents (l : RunLoop) : RunLoop × List LoopOutput :=
  ({ l with node := { l.node with orchestrator :=
      { l.node.orchestrator with sentEvents := [] } } },
    l.node.orchestrator.sentEvents.map .strategy)

/-- Remember the block, its phase and its batch. -/
def observed (l : RunLoop) (block : UInt64) (newPhase : Phase) (newBatchId : UInt64) :
    RunLoop :=
  { l with lastBlock := block, lastPhase := newPhase, lastBatchId := newBatchId }

/-- The rest of a block after its handler. -/
def finish (obs : Observation) (newPhase : Phase) (newBatchId : UInt64)
    (r : RunLoop × List LoopOutput) : RunLoop × List LoopOutput :=
  let l := obs.results.foldl (drainReport obs.block newBatchId) r.1
  let (l, events) := (l.pollEvents obs).drainStrategyEvents
  (l.observed obs.block newPhase newBatchId, r.2 ++ events)

/-! ## One block -/

/-- The phase of a block by the loop's own clock. -/
def newPhase (l : RunLoop) (obs : Observation) : Phase :=
  computePhase obs.block l.epoch l.params

/-- The batch of a block by the loop's own clock. -/
def newBatchId (l : RunLoop) (obs : Observation) : UInt64 :=
  computeBatchId obs.block l.epoch l.params

/-- Does the block begin another phase or batch than the last one? -/
def Transition (l : RunLoop) (obs : Observation) : Prop :=
  l.newPhase obs ≠ l.lastPhase ∨ l.newBatchId obs ≠ l.lastBatchId

/-- Is the loop more than two batches behind? -/
def Behind (l : RunLoop) (obs : Observation) : Prop :=
  l.lastBatchId + 2 < l.newBatchId obs

/-- Does the block run a phase handler? -/
def RunsHandler (l : RunLoop) (obs : Observation) : Prop :=
  l.lastBlock < obs.block ∧ l.Transition obs ∧ ¬ l.Behind obs

instance (l : RunLoop) (obs : Observation) : Decidable (l.Transition obs) :=
  inferInstanceAs (Decidable (_ ∨ _))

instance (l : RunLoop) (obs : Observation) : Decidable (l.Behind obs) :=
  inferInstanceAs (Decidable (_ < _))

instance (l : RunLoop) (obs : Observation) : Decidable (l.RunsHandler obs) :=
  inferInstanceAs (Decidable (_ ∧ _ ∧ _))

/-- The loop when the block is known to be new: connection and clock are up to date. -/
def arrive (l : RunLoop) (obs : Observation) : RunLoop :=
  ((l.drain obs.buffered).trackConnection obs.strategyConnected).advance obs.block

/-- The loop when the phase handler of the block starts. -/
def atHandler (cfg : RunConfig) (l : RunLoop) (obs : Observation) :
    RunLoop × List LoopOutput :=
  if l.newBatchId obs ≠ l.lastBatchId then
    (l.arrive obs).boundary cfg obs (l.newBatchId obs)
  else (l.arrive obs, [])

/-- Run the handler of the block's phase, after the outputs of the batch boundary. -/
def handlePhase (cfg : RunConfig) (l : RunLoop) (obs : Observation) :
    Option (RunLoop × List LoopOutput) :=
  ((l.atHandler cfg obs).1.phaseHandler cfg obs (l.newBatchId obs) (l.newPhase obs)).map
    fun r => (r.1, (l.atHandler cfg obs).2 ++ r.2)

/-- One block.  `none` is a panic. -/
def onBlock (cfg : RunConfig) (l : RunLoop) (obs : Observation) :
    Option (RunLoop × List LoopOutput) :=
  if obs.block ≤ l.lastBlock then some (l.drain obs.buffered, [])
  -- the clock divides by the length of a batch
  else if l.params.blocksPerBatch = 0 then none
  else if l.Transition obs then
    if l.Behind obs then
      some ((l.arrive obs).observed obs.block (l.newPhase obs) (l.newBatchId obs), [])
    else (l.handlePhase cfg obs).map (finish obs (l.newPhase obs) (l.newBatchId obs))
  else some (finish obs (l.newPhase obs) (l.newBatchId obs) (l.arrive obs, []))

/-! ## The loop as a system -/

/-- What wakes the loop. -/
inductive Input where
  | gossip (msg : GossipMessage)
  | block (obs : Observation)

/-- The heights of the observed blocks. -/
def heights (is : List Input) : List UInt64 :=
  is.filterMap fun
    | .gossip _ => none
    | .block obs => some obs.block

/-- The loop after an input, and what it hands out. -/
def handle (cfg : RunConfig) (l : RunLoop) : Input → Option (RunLoop × List LoopOutput)
  | .gossip msg => some ({ l with node := l.node.processInboundGossip msg }, [])
  | .block obs => l.onBlock cfg obs

def step (cfg : RunConfig) (l : RunLoop) (i : Input) : Option RunLoop :=
  (l.handle cfg i).map Prod.fst

def system (cfg : RunConfig) : System RunLoop Input := ⟨step cfg⟩

@[simp] theorem system_step (cfg : RunConfig) : (system cfg).step = step cfg := rfl

end

/-! ## A node

The concrete runs of the loop are about this node and blocks at which nothing happens but
what they say. -/

section

attribute [local instance] sampleExternals

/-- A node of NFT 1 with the market `EMM/KAY`. -/
def sampleConfig : RunConfig where
  nftId := 1
  signingKey := Vector.replicate 32 1
  tokenDecimals := ((∅ : HashMap String UInt8).insert "EMM" 0).insert "KAY" 8
  marketConfigs := [⟨emmKay, 1⟩]
  hasSubmitter := true

/-- A tracker with 100 `EMM`. -/
def sampleTracker : EscrowTracker := EscrowTracker.new.setConfirmed "EMM" 100

/-- The node at start-up in REVEAL of batch 6; a batch has 10 blocks, of which 4 are
COMMIT, and gas is plenty. -/
def sampleLoop : RunLoop :=
  start sampleConfig ⟨100, 6⟩ ⟨10, 4, 3, 1, 2, 3⟩ 1 105 sampleTracker (some 10000000000)

/-- A block at which nothing is answered. -/
def silentBlock (block : UInt64) : Observation where
  block := block
  buffered := []
  strategyConnected := false
  keyOrder := []
  keyAnswer _ := .failed
  newParams := none
  newEpoch := none
  newNumPools := none
  newGasBalance := none
  canUnsubscribe := true
  canSubscribe := true
  late := []
  canAsk := false
  action := none
  nonces _ := List.replicate 32 1
  sent _ := true
  isActive _ := none
  queued _ := true
  results := []
  events := none

/-- At the first block of batch 7 the strategy connects and sells 5 `EMM` at the price of
the sample orders; the chain knows the key of NFT 2. -/
def commitBlock : Input :=
  .block { silentBlock 110 with
    strategyConnected := true
    keyOrder := [2]
    keyAnswer _ := .found buyerKey
    canAsk := true
    action := some (.commit [⟨"EMM/KAY", "sell", "0.0000001", "5"⟩]) }

/-- The loop after that COMMIT. -/
def committedLoop : RunLoop :=
  ((system sampleConfig).run sampleLoop [commitBlock]).getD sampleLoop

theorem run_committedLoop :
    (system sampleConfig).run sampleLoop [commitBlock] = some committedLoop :=
  System.run_eq_some_getD _ (by decide +kernel)

end

end RunLoop
