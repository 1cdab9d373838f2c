/-
# The live node between two blocks

The orchestrator over the two bridges together with the live gossip validator, and the
parts of the run loop that touch only these two: storing inbound gossip, flushing
outbound gossip, the maintenance at a batch boundary and the phase handlers.
-/
import DeadmktNode.GossipValidator
import DeadmktNode.Orchestrator
import DeadmktNode.Runs

/-- The orchestrator of the run loop. -/
abbrev LiveOrchestrator := Orchestrator GossipBridge BatchStateBridge

/-- The orchestrator and the validator of a running node. -/
structure LiveNode where
  orchestrator : LiveOrchestrator
  validator : GossipValidator

namespace LiveNode

section

variable [Externals]

/-! ## Gossip -/

/-- Validate an inbound message and store it. -/
def processInboundGossip (n : LiveNode) : GossipMessage → LiveNode
  | .commitment batchId poolId hash nftId _ =>
      match n.validator.acceptCommit nftId batchId hash.toList with
      | (false, v) => { n with validator := v }
      | (true, v) =>
          { orchestrator := { n.orchestrator with
              gossip := n.orchestrator.gossip.storeCommit
                ⟨nftId, poolId, batchId, hash.toList⟩ }
            validator := v }
  | .reveal batchId poolId order signature =>
      let orderBytes := (encodeOrder order).getD []
      match n.validator.acceptReveal order.nftId batchId orderBytes signature with
      | (false, v) => { n with validator := v }
      | (true, v) =>
          { orchestrator := { n.orchestrator with
              gossip := n.orchestrator.gossip.storeReveal
                ⟨order.nftId, poolId, batchId, orderBytes, signature⟩ }
            validator := v }
  | .batchComplete .. => n
  | .settlementReport .. => n

/-- Hand the queued messages to the gossip task.  Its channel may be full: the `i`-th
message goes out when `sent i`. -/
def flushGossip (n : LiveNode) (sent : ℕ → Bool) :
    LiveNode × List (UInt64 × GossipMessage) :=
  let (gossip, msgs) := n.orchestrator.gossip.flush
  ({ n with orchestrator := { n.orchestrator with gossip := gossip } },
    (msgs.zipIdx.filter (fun p => sent p.2)).map Prod.fst)

/-! ## Batch boundary -/

/-- Validator and gossip maintenance at the first block of a batch. -/
def maintainGossip (n : LiveNode) (newBatchId : UInt64) : LiveNode :=
  { orchestrator := { n.orchestrator with
      gossip := n.orchestrator.gossip.expireInbound (newBatchId.saturatingSub batchWindow) }
    validator := (n.validator.updateBatch newBatchId).expireOldBatches.resetStats }

/-- Forget the reveals published in the previous batch. -/
def clearPublishedReveals (n : LiveNode) : LiveNode :=
  { n with orchestrator := { n.orchestrator with publishedReveals := [] } }

/-! ## Phase handlers -/

/-- Start a fresh commit cycle. -/
def clearCommits (n : LiveNode) : LiveNode :=
  { n with orchestrator := { n.orchestrator with publishedCommits := [], committedOrders := [] } }

/-- COMMIT handler: fresh cycle, publish, flush. -/
def commitHandler (n : LiveNode) (canCommit : Bool)
    (strategyOrders : Option (List ValidatedOrder)) (sent : ℕ → Bool) :
    LiveNode × List (UInt64 × GossipMessage) :=
  let n := n.clearCommits
  flushGossip { n with orchestrator := n.orchestrator.onCommitPhase canCommit strategyOrders }
    sent

/-- REVEAL handler: publish the chosen reveals, flush. -/
def revealHandler (n : LiveNode) (strategyResponse : Option (List UInt32)) (sent : ℕ → Bool) :
    LiveNode × List (UInt64 × GossipMessage) :=
  let myCommits := n.orchestrator.publishedCommits.length
  flushGossip { n with orchestrator := n.orchestrator.onRevealPhase myCommits strategyResponse }
    sent

/-- MATCH handler. -/
def matchHandler (n : LiveNode) : LiveNode :=
  { n with orchestrator := n.orchestrator.onMatchPhase }

/-! ### What the handlers do -/

/-- Committing orders through the bridge appends them to the three lists. -/
theorem foldl_commitOrder (b p : UInt64) (orders : List ValidatedOrder)
    (o : LiveOrchestrator) :
    orders.foldl (Orchestrator.commitOrder b p) o = { o with
      gossip := { o.gossip with
        pendingCommits := o.gossip.pendingCommits ++ orders.map fun v =>
          (p, .commitment b p (Sha256.toHash32 v.commitHash) o.nodeNftId
            (List.replicate 64 0)) }
      publishedCommits := o.publishedCommits ++ orders.map fun v =>
        ⟨o.nodeNftId, p, b, v.commitHash⟩
      committedOrders := o.committedOrders ++ orders } := by
  induction orders generalizing o with
  | nil => simp
  | cons v orders ih =>
      rw [List.foldl_cons, ih]
      simp [Orchestrator.commitOrder, GossipPort.publishCommit, GossipBridge.publishCommit]

/-- Revealing indices through the bridge appends their reveals to the two lists. -/
theorem foldl_revealOrder (b p : UInt64) (indices : List UInt32) (o : LiveOrchestrator) :
    indices.foldl (Orchestrator.revealOrder b p) o = { o with
      gossip := { o.gossip with
        pendingReveals := o.gossip.pendingReveals ++ indices.map fun i =>
          (p, GossipBridge.revealMessage (o.revealAt b p i)) }
      publishedReveals := o.publishedReveals ++ indices.map (o.revealAt b p) } := by
  induction indices generalizing o with
  | nil => simp
  | cons i indices ih =>
      rw [List.foldl_cons, ih]
      simp [Orchestrator.revealOrder, GossipPort.publishReveal, GossipBridge.publishReveal,
        Orchestrator.revealAt]

/-- The orders that COMMIT commits: the strategy's, if the node may commit. -/
def ordersToCommit (canCommit : Bool) (strategyOrders : Option (List ValidatedOrder)) :
    List ValidatedOrder :=
  if canCommit then strategyOrders.getD [] else []

/-- **COMMIT.**  It replaces commits and committed orders by those of this cycle; it also
changes the outbound queues and the notices. -/
theorem orchestrator_commitHandler (n : LiveNode) (canCommit : Bool)
    (strategyOrders : Option (List ValidatedOrder)) (sent : ℕ → Bool) :
    ∃ g events, (∀ b, g.receivedReveals b = n.orchestrator.gossip.receivedReveals b) ∧
      (n.commitHandler canCommit strategyOrders sent).1.orchestrator = { n.orchestrator with
        gossip := g
        sentEvents := events
        publishedCommits := (ordersToCommit canCommit strategyOrders).map fun v =>
          ⟨n.orchestrator.nodeNftId, n.orchestrator.poolId, n.orchestrator.batchId,
            v.commitHash⟩
        committedOrders := ordersToCommit canCommit strategyOrders } := by
  cases canCommit with
  | false =>
      refine ⟨_, _, ?_, rfl⟩
      exact fun _ => rfl
  | true =>
      cases strategyOrders with
      | none =>
          refine ⟨_, _, ?_, rfl⟩
          exact fun _ => rfl
      | some orders =>
          simp only [commitHandler, flushGossip, Orchestrator.onCommitPhase,
            foldl_commitOrder, Bool.not_true, Bool.false_eq_true, if_false]
          refine ⟨_, _, ?_, rfl⟩
          exact fun _ => rfl

/-- After COMMIT exactly the orders of this cycle are committed. -/
@[simp] theorem committedOrders_commitHandler (n : LiveNode) (canCommit : Bool)
    (strategyOrders : Option (List ValidatedOrder)) (sent : ℕ → Bool) :
    (n.commitHandler canCommit strategyOrders sent).1.orchestrator.committedOrders
      = ordersToCommit canCommit strategyOrders := by
  obtain ⟨g, events, -, h⟩ := n.orchestrator_commitHandler canCommit strategyOrders sent
  rw [h]

/-- COMMIT leaves the received reveals alone. -/
@[simp] theorem receivedReveals_commitHandler (n : LiveNode) (canCommit : Bool)
    (strategyOrders : Option (List ValidatedOrder)) (sent : ℕ → Bool) (b : UInt64) :
    (n.commitHandler canCommit strategyOrders sent).1.orchestrator.gossip.receivedReveals b
      = n.orchestrator.gossip.receivedReveals b := by
  obtain ⟨g, events, hg, h⟩ := n.orchestrator_commitHandler canCommit strategyOrders sent
  rw [h]
  exact hg b

/-- REVEAL only appends reveals to the published ones. -/
theorem orchestrator_revealHandler (n : LiveNode) (strategyResponse : Option (List UInt32))
    (sent : ℕ → Bool) :
    (n.revealHandler strategyResponse sent).1.orchestrator = { n.orchestrator with
      gossip := n.orchestrator.gossip.flush.1
      publishedReveals := n.orchestrator.publishedReveals ++
        (Orchestrator.revealIndices n.orchestrator.publishedCommits.length
          strategyResponse).map
          (n.orchestrator.revealAt n.orchestrator.batchId n.orchestrator.poolId) } := by
  simp only [revealHandler, flushGossip, Orchestrator.onRevealPhase, foldl_revealOrder]
  rfl

/-- MATCH stores the engine's matches, and counts them. -/
theorem orchestrator_matchHandler (n : LiveNode) :
    ∃ registered, n.matchHandler.orchestrator = { n.orchestrator with
      registeredMatches := registered
      currentMatches := runMatching n.orchestrator.matchingInput } := by
  have hfound := n.orchestrator.currentMatches_onMatchPhase
  unfold matchHandler
  revert hfound
  unfold Orchestrator.onMatchPhase
  dsimp only
  split_ifs <;> intro hfound <;> exact ⟨_, by rw [← hfound]⟩

/-- Of the orchestrator an inbound message changes what was received from others alone. -/
theorem orchestrator_processInboundGossip (n : LiveNode) (msg : GossipMessage) :
    ∃ commits reveals, (n.processInboundGossip msg).orchestrator = { n.orchestrator with
      gossip := { n.orchestrator.gossip with
        inboundCommits := commits
        inboundReveals := reveals } } := by
  unfold processInboundGossip
  cases msg with
  | commitment => dsimp only; split <;> exact ⟨_, _, rfl⟩
  | reveal => dsimp only; split <;> exact ⟨_, _, rfl⟩
  | batchComplete => exact ⟨_, _, rfl⟩
  | settlementReport => exact ⟨_, _, rfl⟩

/-- An inbound message leaves the committed orders alone. -/
@[simp] theorem committedOrders_processInboundGossip (n : LiveNode) (msg : GossipMessage) :
    (n.processInboundGossip msg).orchestrator.committedOrders
      = n.orchestrator.committedOrders := by
  obtain ⟨commits, reveals, h⟩ := n.orchestrator_processInboundGossip msg
  rw [h]

/-- Was the message a reveal that the validator accepts? -/
def acceptsReveal (n : LiveNode) : GossipMessage → Bool
  | .reveal batchId _ order signature =>
      (n.validator.acceptReveal order.nftId batchId ((encodeOrder order).getD []) signature).1
  | _ => false

/-- The reveal that is stored for a message. -/
def storedReveal : GossipMessage → Option RevealMessage
  | .reveal batchId poolId order signature =>
      some ⟨order.nftId, poolId, batchId, (encodeOrder order).getD [], signature⟩
  | _ => none

/-- An inbound message adds its reveal to its batch if it is accepted, and changes no
other received reveal. -/
theorem receivedReveals_processInboundGossip (n : LiveNode) (msg : GossipMessage)
    (b : UInt64) :
    (n.processInboundGossip msg).orchestrator.gossip.receivedReveals b
      = n.orchestrator.gossip.receivedReveals b ++
        (if n.acceptsReveal msg then
          (storedReveal msg).toList.filter (fun r => r.batchId = b) else []) := by
  cases msg with
  | commitment =>
      unfold processInboundGossip acceptsReveal
      dsimp only
      split <;> simp
  | reveal batchId poolId order signature =>
      unfold processInboundGossip acceptsReveal
      dsimp only
      split
      · rename_i heq
        simp [heq]
      · rename_i heq
        by_cases h : b = batchId
        · subst h; simp [heq, storedReveal]
        · simp [heq, storedReveal, h, Ne.symm h]
  | batchComplete => simp [processInboundGossip, acceptsReveal]
  | settlementReport => simp [processInboundGossip, acceptsReveal]

/-! ## Inputs -/

/-- What can happen to a live node. -/
inductive Input where
  /-- an inbound message is processed -/
  | gossip (msg : GossipMessage)
  /-- a fetched key is cached -/
  | cachePubkey (nftId : UInt64) (key : VerifyingKey)
  /-- a block is observed -/
  | advance (block : UInt64)
  /-- a new pool count was fetched -/
  | setNumPools (n : UInt64)
  /-- the first block of a batch is handled -/
  | boundary (newBatchId : UInt64)
  | commit (canCommit : Bool) (strategyOrders : Option (List ValidatedOrder)) (sent : ℕ → Bool)
  | reveal (strategyResponse : Option (List UInt32)) (sent : ℕ → Bool)
  | runMatch

/-- The node after an input, and the messages that it publishes. -/
def handle (n : LiveNode) : Input → LiveNode × List (UInt64 × GossipMessage)
  | .gossip msg => (n.processInboundGossip msg, [])
  | .cachePubkey nftId key => ({ n with validator := n.validator.cachePubkey nftId key }, [])
  | .advance block =>
      ({ n with orchestrator := { n.orchestrator with
          batchState := BatchStatePort.advanceToBlock n.orchestrator.batchState block } }, [])
  | .setNumPools k =>
      ({ n with orchestrator := { n.orchestrator with
          batchState := BatchStatePort.setNumPools n.orchestrator.batchState k } }, [])
  | .boundary newBatchId => ((n.maintainGossip newBatchId).clearPublishedReveals, [])
  | .commit canCommit strategyOrders sent => n.commitHandler canCommit strategyOrders sent
  | .reveal strategyResponse sent => n.revealHandler strategyResponse sent
  | .runMatch => (n.matchHandler, [])

/-- A node that has committed nothing and received no reveal. -/
def Fresh (n : LiveNode) : Prop :=
  n.orchestrator.committedOrders = [] ∧ ∀ b, n.orchestrator.gossip.receivedReveals b = []

/-- The node as a system; no input stops it. -/
def system : System LiveNode Input where
  step n i := some (n.handle i).1

theorem follows_cons {C : LiveNode → Input → Prop} {n : LiveNode} {i : Input}
    {is : List Input} :
    system.Follows C n (i :: is) ↔ C n i ∧ system.Follows C (n.handle i).1 is := by
  rw [System.follows_cons]
  exact and_congr_right fun _ => ⟨fun h => h _ rfl, fun h n' hn' => Option.some.inj hn' ▸ h⟩

end

end LiveNode

/-! ## Two signed orders

The concrete runs of this development exchange a sell of NFT 1 and a crossing buy of
NFT 2, both for batch 7 and with their Ed25519 signatures. -/

/-- The market `EMM/KAY`. -/
def emmKay : Bytes := [69, 77, 77, 47, 75, 65, 89]

/-- NFT 1 sells 5. -/
def sampleSell : Order := ⟨1, emmKay, 0, 10, 5, 7, List.replicate 32 1⟩

/-- NFT 2 buys 10. -/
def sampleBuy : Order := ⟨2, emmKay, 1, 10, 10, 7, List.replicate 32 2⟩

/-- The encoding of an order of the sample. -/
def sampleBytes (order : Order) : Bytes := (Order.codec.toBytes order).getD []

/-- The public key of NFT 1; its secret key is 32 bytes `1`. -/
def sellerKey : VerifyingKey :=
  Sha256.toHash32
    [138, 136, 227, 221, 116, 9, 241, 149, 253, 82, 219, 45, 60, 186, 93, 114, 202, 103, 9, 191,
      29, 148, 18, 27, 243, 116, 136, 1, 180, 15, 111, 92]

/-- The public key of NFT 2; its secret key is 32 bytes `2`. -/
def buyerKey : VerifyingKey :=
  Sha256.toHash32
    [129, 57, 119, 14, 168, 125, 23, 95, 86, 163, 84, 102, 195, 76, 126, 204, 203, 141, 138,
      145, 180, 238, 55, 162, 93, 246, 15, 91, 143, 201, 179, 148]

/-- The signature of NFT 1 on its sell. -/
def sellSignature : Bytes :=
  [91, 253, 111, 165, 240, 135, 129, 176, 37, 98, 125, 143, 141, 130, 124, 168, 245, 199, 199,
    135, 50, 81, 212, 42, 153, 225, 225, 219, 133, 208, 173, 96, 24, 248, 29, 100, 128, 241, 71,
    249, 233, 252, 123, 18, 165, 109, 206, 196, 145, 35, 58, 149, 4, 32, 105, 120, 6, 191, 84,
    93, 158, 125, 60, 13]

/-- The signature of NFT 2 on its buy. -/
def buySignature : Bytes :=
  [193, 224, 27, 14, 102, 64, 88, 133, 229, 5, 241, 84, 16, 188, 89, 90, 164, 90, 56, 78, 70,
    60, 164, 131, 190, 2, 218, 109, 139, 224, 177, 121, 213, 44, 113, 21, 116, 134, 220, 30, 81,
    50, 52, 80, 47, 27, 66, 89, 12, 75, 91, 138, 124, 123, 19, 44, 2, 238, 165, 107, 167, 1,
    242, 15]

/-- The two signatures, for the reference implementation. -/
def sampleSignatures : List SignedMessage :=
  [⟨Vector.replicate 32 1, sellerKey, sampleBytes sampleSell, sellSignature⟩,
    ⟨Vector.replicate 32 2, buyerKey, sampleBytes sampleBuy, buySignature⟩]

/-- The reference implementation that knows the two signatures. -/
@[reducible] def sampleExternals : Externals := referenceExternals sampleSignatures

/-- The sell as a committed order. -/
def committedSell [Externals] : ValidatedOrder :=
  ⟨(commitHash sampleSell).toList, sampleBytes sampleSell, sellSignature⟩

/-- The buy as a committed order. -/
def committedBuy [Externals] : ValidatedOrder :=
  ⟨(commitHash sampleBuy).toList, sampleBytes sampleBuy, buySignature⟩

/-- A node of NFT `nftId` at start-up in batch 7, in a network of one pool with the market
`EMM/KAY`, that knows both keys. -/
def sampleNode (nftId : UInt64) : LiveNode where
  orchestrator := { Orchestrator.new GossipBridge.new
      (BatchStateBridge.new ⟨100, 7⟩ ⟨10, 4, 3, 1, 2, 3⟩ 1 nftId) nftId with
    marketConfigs := [⟨emmKay, 1⟩] }
  validator := ((GossipValidator.new 7).cachePubkey 1 sellerKey).cachePubkey 2 buyerKey
