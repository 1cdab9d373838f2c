/-
# Quantity conservation at a live node

The matching engine fills an order at most to its quantity if the order enters the
books once.  At a live node an order can enter from two places, the node's own
committed orders and the reveals received for the batch.  As long as no order enters
twice (`EntersOnce`), every batch's books hold pairwise distinct hashes in every state of
a run (`distinctBooks_of_run`), and MATCH conserves quantities
(`live_quantity_conserved`).

Nothing in the node enforces `EntersOnce`: an own order that comes back through gossip
is accepted, and so is a replay after the content hashes were cleared.
-/
import DeadmktNode.LiveNode
import DeadmktNode.MatchingConservation

namespace LiveNode

section

variable [Externals]

/-! ## The books of a node -/

/-- The hashes of the node's own committed orders. -/
def ownHashes (n : LiveNode) : List Hash32 :=
  n.orchestrator.ownRevealed.map RevealedOrder.orderHash

/-- The hashes of the orders received for a batch. -/
def peerHashes (n : LiveNode) (batchId : UInt64) : List Hash32 :=
  (Orchestrator.peerRevealed (n.orchestrator.gossip.receivedReveals batchId)).map
    RevealedOrder.orderHash

/-- In every batch, no order stands twice in the books that MATCH would build. -/
def DistinctBooks (n : LiveNode) : Prop :=
  ∀ b, (n.ownHashes ++ n.peerHashes b).Nodup

/-- The hashes of the orders behind a list of validated orders. -/
def orderHashes (orders : List ValidatedOrder) : List Hash32 :=
  (orders.filterMap fun v => Orchestrator.decodeRevealed v.orderBytes v.signature).map
    RevealedOrder.orderHash

/-- The input brings no order into the books of a batch for the second time: a reveal
that the validator accepts is of an order that is neither an own committed one nor
stored under the same batch, and COMMIT commits distinct orders that were not
received. -/
def EntersOnce (n : LiveNode) : Input → Prop
  | .gossip msg => ∀ batchId poolId order signature,
      msg = .reveal batchId poolId order signature → n.acceptsReveal msg = true →
        orderHash order ∉ n.ownHashes ++ n.peerHashes batchId
  | .commit canCommit strategyOrders _ =>
      (orderHashes (ordersToCommit canCommit strategyOrders)).Nodup ∧
        ∀ b, ∀ h ∈ orderHashes (ordersToCommit canCommit strategyOrders), h ∉ n.peerHashes b
  | _ => True

/-! ## Steps -/

/-- The books depend on the committed orders and the received reveals only. -/
theorem distinctBooks_congr {n n' : LiveNode}
    (hown : n'.orchestrator.committedOrders = n.orchestrator.committedOrders)
    (hpeer : ∀ b, n'.orchestrator.gossip.receivedReveals b
      = n.orchestrator.gossip.receivedReveals b)
    (h : n.DistinctBooks) : n'.DistinctBooks := by
  intro b
  have := h b
  unfold ownHashes peerHashes Orchestrator.ownRevealed at *
  rwa [hown, hpeer b]

/-- The hash of a stored reveal is the hash of the order that was sent. -/
theorem orderHash_of_decodeRevealed {order : Order} {signature : Bytes} {r : RevealedOrder}
    (h : Orchestrator.decodeRevealed ((encodeOrder order).getD []) signature = some r) :
    r.orderHash = orderHash order := by
  obtain ⟨o, ho, rfl⟩ := Option.map_eq_some_iff.mp h
  exact orderHash_of_decodeOrder ho

/-- An inbound message that enters once keeps the books distinct. -/
theorem distinctBooks_processInboundGossip {n : LiveNode} {msg : GossipMessage}
    (hn : n.DistinctBooks) (honce : n.EntersOnce (.gossip msg)) :
    (n.processInboundGossip msg).DistinctBooks := by
  by_cases hacc : n.acceptsReveal msg = true
  · cases msg with
    | reveal batchId poolId order signature =>
        have hfresh := honce batchId poolId order signature rfl hacc
        intro b
        have hb := hn b
        have hown : (n.processInboundGossip (.reveal batchId poolId order signature)).ownHashes
            = n.ownHashes := by
          unfold ownHashes Orchestrator.ownRevealed
          rw [committedOrders_processInboundGossip]
        rw [hown]
        unfold peerHashes at hfresh hb ⊢
        rw [receivedReveals_processInboundGossip, if_pos hacc]
        -- only the book of the batch of the reveal grows
        by_cases hbb : batchId = b
        · subst hbb
          have hstored : ∀ r, Orchestrator.decodeRevealed ((encodeOrder order).getD [])
              signature = some r → r.orderHash = orderHash order :=
            fun r hr => orderHash_of_decodeRevealed hr
          simp only [storedReveal, Option.toList_some, List.filter_cons, decide_true, if_true,
            List.filter_nil, Orchestrator.peerRevealed, List.filterMap_append,
            List.filterMap_cons, List.filterMap_nil] at hfresh ⊢
          -- MATCH drops a reveal whose bytes are no order
          cases hdec : Orchestrator.decodeRevealed ((encodeOrder order).getD []) signature with
          | none => simpa [Orchestrator.peerRevealed] using hb
          | some r =>
              dsimp only
              rw [List.map_append, ← List.append_assoc, List.map_singleton, hstored r hdec]
              refine List.nodup_append.mpr ⟨hb, List.nodup_singleton _, ?_⟩
              rintro x hx y hy rfl
              rw [List.mem_singleton] at hy
              subst hy
              exact hfresh hx
        · simpa [storedReveal, hbb] using hb
    | commitment | batchComplete | settlementReport => simp [acceptsReveal] at hacc
  · refine distinctBooks_congr (committedOrders_processInboundGossip n msg) ?_ hn
    intro b
    rw [receivedReveals_processInboundGossip, if_neg hacc, List.append_nil]

/-- **One input.**  An input that brings no order in twice keeps the books distinct. -/
theorem distinctBooks_handle {n : LiveNode} {i : Input} (hn : n.DistinctBooks)
    (honce : n.EntersOnce i) : (n.handle i).1.DistinctBooks := by
  cases i with
  | gossip msg => exact distinctBooks_processInboundGossip hn honce
  | cachePubkey | advance | setNumPools =>
      exact distinctBooks_congr rfl (fun _ => rfl) hn
  | boundary newBatchId =>
      intro b
      have hb := hn b
      unfold ownHashes peerHashes Orchestrator.ownRevealed at *
      simp only [handle, clearPublishedReveals, maintainGossip,
        GossipBridge.receivedReveals_expireInbound]
      split_ifs
      · exact hb
      · simpa [Orchestrator.peerRevealed] using hb.of_append_left
  | commit canCommit strategyOrders sent =>
      obtain ⟨hnodup, hdisj⟩ := honce
      intro b
      -- a new cycle forgets the own orders and keeps what the peers revealed
      have hb := (hn b).of_append_right
      have hown : (n.handle (.commit canCommit strategyOrders sent)).1.ownHashes
          = orderHashes (ordersToCommit canCommit strategyOrders) := by
        unfold ownHashes Orchestrator.ownRevealed
        rw [handle, committedOrders_commitHandler]
        rfl
      have hpeer : (n.handle (.commit canCommit strategyOrders sent)).1.peerHashes b
          = n.peerHashes b := by
        unfold peerHashes
        rw [handle, receivedReveals_commitHandler]
      rw [hown, hpeer]
      refine List.nodup_append.mpr ⟨hnodup, hb, ?_⟩
      rintro x hx y hy rfl
      exact hdisj b x hx hy
  | reveal strategyResponse sent =>
      refine distinctBooks_congr ?_ ?_ hn
      · rw [handle, orchestrator_revealHandler]
      · intro b
        rw [handle, orchestrator_revealHandler]
        rfl
  | runMatch =>
      obtain ⟨registered, h⟩ := orchestrator_matchHandler n
      refine distinctBooks_congr ?_ ?_ hn
      · rw [handle, h]
      · intro b
        rw [handle, h]

/-! ## Runs -/

theorem distinctBooks_of_fresh {n : LiveNode} (h : n.Fresh) : n.DistinctBooks := by
  intro b
  simp [ownHashes, peerHashes, Orchestrator.ownRevealed, Orchestrator.peerRevealed, h.1, h.2 b]

/-- **Runs.**  The books stay distinct along every run that brings no order in twice. -/
theorem distinctBooks_of_run {n n' : LiveNode} {is : List Input} (hn : n.Fresh)
    (honce : system.Follows EntersOnce n is) (hrun : system.run n is = some n') :
    n'.DistinctBooks := by
  refine system.run_invariant (I := DistinctBooks) ?_ (distinctBooks_of_fresh hn) honce hrun
  intro n i n₁ hn hC hstep
  obtain rfl := Option.some.inj hstep
  exact distinctBooks_handle hn hC

/-- **Live quantity conservation.**  In every run in which no order enters the books of a
batch twice, the list that MATCH computes fills every order that takes part in it at
most to its quantity. -/
theorem live_quantity_conserved {n n' : LiveNode} {is : List Input} (hn : n.Fresh)
    (honce : system.Follows EntersOnce n is) (hrun : system.run n is = some n') :
    ∀ m ∈ n'.matchHandler.orchestrator.currentMatches,
      filledOf m.buyer.orderHash n'.matchHandler.orchestrator.currentMatches
          ≤ m.buyer.order.quantity.toNat ∧
        filledOf m.seller.orderHash n'.matchHandler.orchestrator.currentMatches
          ≤ m.seller.order.quantity.toNat := by
  have hbooks := distinctBooks_of_run hn honce hrun n'.orchestrator.batchId
  have hnodup : (n'.orchestrator.matchingInput.reveals.map RevealedOrder.orderHash).Nodup := by
    rw [show n'.orchestrator.matchingInput.reveals = n'.orchestrator.allRevealed from rfl,
      Orchestrator.allRevealed, List.map_append]
    exact hbooks
  intro m hm
  rw [matchHandler, Orchestrator.currentMatches_onMatchPhase] at hm ⊢
  obtain ⟨symbol, q, hsym⟩ := mem_runMatching hm
  obtain ⟨⟨hbuyer, -⟩, hseller, -⟩ := mem_of_mem_matchSymbol hsym
  exact ⟨filledOf_runMatching_le _ hnodup (List.mem_filter.mp hbuyer).1,
    filledOf_runMatching_le _ hnodup (List.mem_filter.mp hseller).1⟩

end

/-! ## Two runs -/

section

attribute [local instance] sampleExternals

/-- A node of NFT 1 commits and reveals the sell and receives the buy. -/
def plainRun : List Input :=
  [.commit true (some [committedSell]) (fun _ => true), .reveal none (fun _ => true),
    .gossip (.reveal 7 0 sampleBuy buySignature)]

/-- After `plainRun` the sell of 5 is filled once. -/
theorem plain_run_conserves :
    ∃ n', system.run (sampleNode 1) plainRun = some n' ∧
      n'.matchHandler.orchestrator.currentMatches.length = 1 ∧
      ∀ m ∈ n'.matchHandler.orchestrator.currentMatches,
        filledOf m.buyer.orderHash n'.matchHandler.orchestrator.currentMatches
            ≤ m.buyer.order.quantity.toNat ∧
          filledOf m.seller.orderHash n'.matchHandler.orchestrator.currentMatches
            ≤ m.seller.order.quantity.toNat := by
  have honce : system.Follows EntersOnce (sampleNode 1) plainRun := by
    rw [plainRun, follows_cons, follows_cons, follows_cons]
    refine ⟨⟨by decide +kernel, fun b h _ => ?_⟩, trivial, ?_, trivial⟩
    · exact List.not_mem_nil
    · rintro batchId poolId order signature ⟨⟩ -
      decide +kernel
  refine ⟨_, rfl, by decide +kernel, ?_⟩
  exact live_quantity_conserved (n := sampleNode 1) ⟨rfl, fun _ => rfl⟩ honce rfl

/-- A node of NFT 1 commits and reveals the sell, receives the buy, and receives its own
reveal back. -/
def echoRun : List Input :=
  [.commit true (some [committedSell]) (fun _ => true), .reveal none (fun _ => true),
    .gossip (.reveal 7 0 sampleBuy buySignature),
    .gossip (.reveal 7 0 sampleSell sellSignature)]

/-- **The echo of an own order fills it twice.**  After `echoRun` the books hold the sell
of 5 at two positions, and the buy of 10 takes both. -/
theorem echoed_sell_overfilled :
    (sampleNode 1).Fresh ∧
      ¬ ∀ n', system.run (sampleNode 1) echoRun = some n' →
        ∀ m ∈ n'.matchHandler.orchestrator.currentMatches,
          filledOf m.buyer.orderHash n'.matchHandler.orchestrator.currentMatches
              ≤ m.buyer.order.quantity.toNat ∧
            filledOf m.seller.orderHash n'.matchHandler.orchestrator.currentMatches
              ≤ m.seller.order.quantity.toNat := by
  refine ⟨⟨rfl, fun _ => rfl⟩, ?_⟩
  intro h
  have hbad : ∃ m ∈ (((system.run (sampleNode 1) echoRun).map fun n' =>
      n'.matchHandler.orchestrator.currentMatches).getD []),
      m.seller.order.quantity.toNat < filledOf m.seller.orderHash
        (((system.run (sampleNode 1) echoRun).map fun n' =>
          n'.matchHandler.orchestrator.currentMatches).getD []) := by
    decide +kernel
  obtain ⟨m, hm, hlt⟩ := hbad
  cases hrun : system.run (sampleNode 1) echoRun with
  | none => rw [hrun] at hm; simp at hm
  | some n' =>
      rw [hrun] at hm hlt
      exact absurd (h n' hrun m hm).2 (Nat.not_le.mpr hlt)

end

end LiveNode
