/-
# The orchestrator

The batch loop coordinator: it publishes the node's commits and reveals, collects the
reveals of a batch and runs the matching engine on them, and routes chain events to the
strategy.  It reaches gossip and the batch clock through the two ports.
-/
import DeadmktNode.Gossip
import DeadmktNode.Matching
import DeadmktNode.Text

/-! ## Events -/

/-- A `BatchTradeSettled` event of the chain. -/
structure BatchTradeSettledEvent where
  batchId : UInt64
  poolId : UInt64
  tradeId : String
  buyerNftId : UInt64
  sellerNftId : UInt64
  symbol : Bytes
  buyerPrice : UInt64
  sellerPrice : UInt64
  clearingPrice : UInt64
  baseAmount : UInt64
  quoteAmount : UInt64
  buyerOrderHash : String
  sellerOrderHash : String
  gasPayer : String
  timestamp : UInt64
deriving DecidableEq, Repr

/-- The chain events that the orchestrator routes; the others are `other`. -/
inductive ChainEvent where
  | batchTradeSettled (evt : BatchTradeSettledEvent)
  | marketPairAdded (symbol : Bytes)
  | pauseQueued (afterBatch : UInt64)
  | unpaused
  | withdrawalRequested (nftId : UInt64) (token : String) (amount : UInt64)
  | parameterChangeQueued (effectiveAtBatch : UInt64) (paramName : String)
      (oldValue newValue : UInt64)
  | parameterChangeApplied (batchId : UInt64) (paramName : String) (newValue : UInt64)
  | poolAdjustmentQueued (effectiveAtBatch newNumPools : UInt64)
  | poolAdjusted (batchId newNumPools : UInt64)
  | poolAdjustmentCancelled
  | other
deriving DecidableEq, Repr

/-- The data of a parameter-change notice. -/
structure ParamChangeData where
  paramName : String
  oldValue : String
  newValue : String
  effectiveAtBatch : Option UInt64
deriving DecidableEq, Repr

/-- The data of a settlement notice. -/
structure SettlementData where
  batchId : UInt64
  matchHash : String
  status : String
  pair : String
  side : String
  price : String
  quantity : String
deriving DecidableEq, Repr

/-- The notices that the orchestrator and the run loop queue for the strategy. -/
inductive StrategyEvent where
  | disconnected (reason : String)
  | paused (afterBatch : UInt64)
  | resumed (batchId : UInt64)
  | rushedWithdrawalRequested (token amount : String) (nftId : UInt64)
  | paramChangeQueued (data : ParamChangeData)
  | paramChangeApplied (data : ParamChangeData)
  | poolAdjusted (oldNumPools newNumPools : UInt64) (effectiveAtBatch : Option UInt64)
  | settlement (data : SettlementData)
  | settlementFailed (batchId : UInt64) (matchHash reason : String)
  | marketAdded (symbol minQuantity : String)
deriving DecidableEq, Repr

/-! ## State -/

/-- An order of our own, ready to be committed. -/
structure ValidatedOrder where
  commitHash : Bytes
  orderBytes : Bytes
  signature : Bytes
deriving DecidableEq

structure MatchRegistration where
  batchId : UInt64
  matchCount : ℕ
deriving DecidableEq

structure PendingParamChange where
  effectiveAtBatch : UInt64
  paramName : String
  oldValue : UInt64
  newValue : UInt64
deriving DecidableEq

structure PendingPoolAdjustment where
  effectiveAtBatch : UInt64
  newNumPools : UInt64
deriving DecidableEq

structure Orchestrator (G B : Type) where
  gossip : G
  batchState : B
  nodeNftId : UInt64
  sentEvents : List StrategyEvent
  publishedCommits : List CommitMessage
  publishedReveals : List RevealMessage
  committedOrders : List ValidatedOrder
  registeredMatches : List MatchRegistration
  currentMatches : List Match
  marketConfigs : List MarketConfig
  pendingParamChange : Option PendingParamChange
  pendingPoolAdjustment : Option PendingPoolAdjustment

namespace Orchestrator

variable {G B : Type}

/-- The orchestrator at start-up. -/
def new (gossip : G) (batchState : B) (nodeNftId : UInt64) : Orchestrator G B where
  gossip := gossip
  batchState := batchState
  nodeNftId := nodeNftId
  sentEvents := []
  publishedCommits := []
  publishedReveals := []
  committedOrders := []
  registeredMatches := []
  currentMatches := []
  marketConfigs := []
  pendingParamChange := none
  pendingPoolAdjustment := none

/-- The batch that the orchestrator's clock is in. -/
def batchId [BatchStatePort B] (o : Orchestrator G B) : UInt64 :=
  BatchStatePort.currentBatchId o.batchState

/-- The pool of this node in that batch. -/
def poolId [BatchStatePort B] (o : Orchestrator G B) : UInt64 :=
  BatchStatePort.currentPoolId o.batchState o.nodeNftId

/-! ## COMMIT -/

/-- Publish the commit of one order and keep the order for its reveal. -/
def commitOrder [GossipPort G] (batchId poolId : UInt64) (o : Orchestrator G B)
    (order : ValidatedOrder) : Orchestrator G B :=
  let commit : CommitMessage := ⟨o.nodeNftId, poolId, batchId, order.commitHash⟩
  match GossipPort.publishCommit o.gossip poolId commit with
  | .ok gossip => { o with
      gossip := gossip
      publishedCommits := o.publishedCommits ++ [commit]
      committedOrders := o.committedOrders ++ [order] }
  | .error _ => o

/-- COMMIT phase: publish a commit for every order of the strategy; a strategy that
does not answer is reported as disconnected. -/
def onCommitPhase [GossipPort G] [BatchStatePort B] (o : Orchestrator G B) (canCommit : Bool)
    (strategyOrders : Option (List ValidatedOrder)) : Orchestrator G B :=
  if !canCommit then o
  else
    match strategyOrders with
    | none => { o with sentEvents := o.sentEvents ++ [.disconnected "commit timeout"] }
    | some orders => orders.foldl (commitOrder o.batchId o.poolId) o

/-! ## REVEAL -/

/-- The indices to reveal: the strategy's choice, or all commits when it does not
answer. -/
def revealIndices (myCommitCount : ℕ) (strategyResponse : Option (List UInt32)) :
    List UInt32 :=
  strategyResponse.getD
    ((List.range (UInt32.ofNat myCommitCount).toNat).map UInt32.ofNat)

/-- The reveal of one index; an index without a committed order gives a placeholder. -/
def revealAt (o : Orchestrator G B) (batchId poolId : UInt64) (idx : UInt32) :
    RevealMessage :=
  let order := o.committedOrders[idx.toNat]?
  { nftId := o.nodeNftId
    poolId := poolId
    batchId := batchId
    orderBytes := (order.map ValidatedOrder.orderBytes).getD [idx.toUInt8]
    signature := (order.map ValidatedOrder.signature).getD (List.replicate 64 0) }

/-- Publish one reveal. -/
def revealOrder [GossipPort G] (batchId poolId : UInt64) (o : Orchestrator G B)
    (idx : UInt32) : Orchestrator G B :=
  let reveal := o.revealAt batchId poolId idx
  match GossipPort.publishReveal o.gossip poolId reveal with
  | .ok gossip => { o with
      gossip := gossip
      publishedReveals := o.publishedReveals ++ [reveal] }
  | .error _ => o

/-- REVEAL phase: publish the reveals that the strategy chose. -/
def onRevealPhase [GossipPort G] [BatchStatePort B] (o : Orchestrator G B)
    (myCommitCount : ℕ) (strategyResponse : Option (List UInt32)) : Orchestrator G B :=
  (revealIndices myCommitCount strategyResponse).foldl (revealOrder o.batchId o.poolId) o

/-! ## MATCH -/

/-- The revealed order behind encoded order bytes, if they decode. -/
def decodeRevealed [Externals] (orderBytes signature : Bytes) : Option RevealedOrder :=
  (decodeOrder orderBytes).map fun order => ⟨order, signature, orderHash order⟩

/-- The node's own committed orders as revealed orders. -/
def ownRevealed [Externals] (o : Orchestrator G B) : List RevealedOrder :=
  o.committedOrders.filterMap fun order => decodeRevealed order.orderBytes order.signature

/-- Received reveals as revealed orders. -/
def peerRevealed [Externals] (reveals : List RevealMessage) : List RevealedOrder :=
  reveals.filterMap fun reveal => decodeRevealed reveal.orderBytes reveal.signature

/-- Everything that MATCH feeds to the engine: own committed orders, then the reveals
that were received for the batch. -/
def allRevealed [Externals] [GossipPort G] [BatchStatePort B] (o : Orchestrator G B) :
    List RevealedOrder :=
  o.ownRevealed ++ peerRevealed (GossipPort.receivedReveals o.gossip o.batchId)

/-- The input of the matching engine in MATCH. -/
def matchingInput [Externals] [GossipPort G] [BatchStatePort B] (o : Orchestrator G B) :
    MatchingInput where
  batchId := o.batchId
  poolId := o.poolId
  reveals := o.allRevealed
  markets := o.marketConfigs

/-- MATCH phase: run the engine and keep its matches. -/
def onMatchPhase [Externals] [GossipPort G] [BatchStatePort B] (o : Orchestrator G B) :
    Orchestrator G B :=
  if o.allRevealed.isEmpty then { o with currentMatches := [] }
  else
    let found := runMatching o.matchingInput
    { o with
      registeredMatches :=
        if 0 < found.length then o.registeredMatches ++ [⟨o.batchId, found.length⟩]
        else o.registeredMatches
      currentMatches := found }

/-! ## SWAP -/

/-- SWAP phase: the number of matches to settle. -/
def onSwapPhase (o : Orchestrator G B) : ℕ := o.currentMatches.length

/-- Take the matches out for settlement. -/
def takeMatches (o : Orchestrator G B) : List Match × Orchestrator G B :=
  (o.currentMatches, { o with currentMatches := [] })

/-! ## Chain events -/

/-- The parameters that a parameter change reloads: fixed values, of which only the
named one comes from the event. -/
def reloadedParams (paramName : String) (newValue : UInt64) : BatchParams :=
  let params : BatchParams := ⟨10, 3, 3, 2, 2, 3⟩
  if paramName = "blocks_per_batch" then { params with blocksPerBatch := newValue }
  else if paramName = "commits_per_batch" then { params with commitsPerBatch := newValue }
  else params

/-- Queue a notice for the strategy. -/
def pushEvent (o : Orchestrator G B) (event : StrategyEvent) : Orchestrator G B :=
  { o with sentEvents := o.sentEvents ++ [event] }

/-- The notice of a settlement.  A node that is not the buyer is told that it sold. -/
def settlementNotice (o : Orchestrator G B) (evt : BatchTradeSettledEvent) :
    SettlementData where
  batchId := evt.batchId
  matchHash := evt.tradeId
  status := "confirmed"
  pair := fromUtf8Lossy evt.symbol
  side := if evt.buyerNftId = o.nodeNftId then "buy" else "sell"
  price := toString evt.clearingPrice.toNat
  quantity := toString evt.baseAmount.toNat

/-- Route a chain event. -/
def onChainEvent [BatchStatePort B] (o : Orchestrator G B) : ChainEvent → Orchestrator G B
  | .pauseQueued afterBatch => o.pushEvent (.paused afterBatch)
  | .unpaused => o.pushEvent (.resumed o.batchId)
  | .withdrawalRequested nftId token amount =>
      if nftId = o.nodeNftId then
        o.pushEvent (.rushedWithdrawalRequested token (toString amount.toNat) nftId)
      else o
  | .parameterChangeQueued effectiveAtBatch paramName oldValue newValue =>
      { o with pendingParamChange := some ⟨effectiveAtBatch, paramName, oldValue, newValue⟩ }
        |>.pushEvent (.paramChangeQueued
            ⟨paramName, toString oldValue.toNat, toString newValue.toNat,
              some effectiveAtBatch⟩)
  | .parameterChangeApplied batchId paramName newValue =>
      { o with
        batchState := BatchStatePort.reloadParams o.batchState
          (reloadedParams paramName newValue)
        pendingParamChange := none }
        |>.pushEvent (.paramChangeApplied
            ⟨paramName, "", toString newValue.toNat, some batchId⟩)
  | .poolAdjustmentQueued effectiveAtBatch newNumPools =>
      { o with pendingPoolAdjustment := some ⟨effectiveAtBatch, newNumPools⟩ }
  | .poolAdjusted batchId newNumPools =>
      { o with
        batchState := BatchStatePort.setNumPools o.batchState newNumPools
        pendingPoolAdjustment := none }
        |>.pushEvent (.poolAdjusted (BatchStatePort.numPools o.batchState) newNumPools
            (some batchId))
  | .poolAdjustmentCancelled => { o with pendingPoolAdjustment := none }
  | .batchTradeSettled evt => o.pushEvent (.settlement (o.settlementNotice evt))
  | .marketPairAdded symbol => o.pushEvent (.marketAdded (fromUtf8Lossy symbol) "0")
  | .other => o

/-! ## What the handlers leave alone -/

/-- MATCH computes the engine's matches of its input, also when there is no reveal. -/
theorem currentMatches_onMatchPhase [Externals] [GossipPort G] [BatchStatePort B]
    (o : Orchestrator G B) :
    o.onMatchPhase.currentMatches = runMatching o.matchingInput := by
  unfold onMatchPhase
  split_ifs with h
  · have hnil : o.matchingInput.reveals = [] := List.isEmpty_iff.mp h
    simp [runMatching, hnil, bySymbol, sortBy]
  · rfl

end Orchestrator
