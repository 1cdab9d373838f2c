/-
# What binds a matched order to its batch

MATCH of a batch takes the peer orders that were stored for it.  The live validator stores a
commitment and a reveal each for itself: no reveal needs a commitment, and the batch that an
order is stored under is that of the envelope, which nobody signed.  So every order that MATCH
can take was committed before exactly if every reveal that passes finds its commitment stored
(`LiveNode.ordersCommitted_iff`), and it is one of the batch and pool exactly if every reveal
that passes is (`LiveNode.ordersInContext_iff`).
-/
import DeadmktNode.Censorship
import DeadmktNode.LiveAgreement

namespace GossipBridge

@[simp] theorem receivedCommits_storeReveal (g : GossipBridge) (r : RevealMessage) (b : UInt64) :
    (g.storeReveal r).receivedCommits b = g.receivedCommits b := rfl

@[simp] theorem receivedCommits_storeCommit (g : GossipBridge) (c : CommitMessage) (b : UInt64) :
    (g.storeCommit c).receivedCommits b
      = if b = c.batchId then g.receivedCommits b ++ [c] else g.receivedCommits b := by
  unfold receivedCommits storeCommit
  rw [AList.getD_lookup_upsert]
  by_cases h : b = c.batchId
  · subst h
    rfl
  · rw [if_neg h, if_neg h]

/-- Expiry keeps a batch or drops all its commits. -/
@[simp] theorem receivedCommits_expireInbound (g : GossipBridge) (lower b : UInt64) :
    (g.expireInbound lower).receivedCommits b
      = if lower ≤ b then g.receivedCommits b else [] := by
  unfold receivedCommits expireInbound
  dsimp only
  rw [AList.lookup_retain]
  cases g.inboundCommits.lookup b with
  | none => simp
  | some cs => by_cases h : lower ≤ b <;> simp [h, Option.filter]

end GossipBridge

namespace LiveNode

/-- A node that has heard nothing yet. -/
def HeardNothing (n : LiveNode) : Prop :=
  ∀ b, n.orchestrator.gossip.receivedCommits b = [] ∧
    n.orchestrator.gossip.receivedReveals b = []

/-- The commitment of an NFT to a hash is stored for the batch. -/
def HoldsCommit (n : LiveNode) (nftId b : UInt64) (hash : Hash32) : Prop :=
  ∃ c ∈ n.orchestrator.gossip.receivedCommits b, c.nftId = nftId ∧ c.commitHash = hash.toList

instance (n : LiveNode) (nftId b : UInt64) (hash : Hash32) :
    Decidable (n.HoldsCommit nftId b hash) :=
  inferInstanceAs (Decidable (∃ c ∈ n.orchestrator.gossip.receivedCommits b, _))

/-- A commitment of the NFT to the hash in the batch is among the messages. -/
def CommittedTo (msgs : List GossipMessage) (nftId b : UInt64) (hash : Hash32) : Prop :=
  ∃ poolId signature, .commitment b poolId hash nftId signature ∈ msgs

theorem committedTo_append {msgs msgs' : List GossipMessage} {nftId b : UInt64} {hash : Hash32} :
    CommittedTo (msgs ++ msgs') nftId b hash ↔
      CommittedTo msgs nftId b hash ∨ CommittedTo msgs' nftId b hash := by
  constructor
  · rintro ⟨poolId, signature, h⟩
    rcases List.mem_append.mp h with h | h
    · exact .inl ⟨poolId, signature, h⟩
    · exact .inr ⟨poolId, signature, h⟩
  · rintro (⟨poolId, signature, h⟩ | ⟨poolId, signature, h⟩)
    · exact ⟨poolId, signature, List.mem_append_left _ h⟩
    · exact ⟨poolId, signature, List.mem_append_right _ h⟩

section

variable [Externals]

/-- The peer orders that MATCH of batch `b` takes. -/
def peerOrders (n : LiveNode) (b : UInt64) : List RevealedOrder :=
  Orchestrator.peerRevealed (n.orchestrator.gossip.receivedReveals b)

/-- MATCH feeds them to the engine after the node's own orders. -/
theorem reveals_matchingInput (n : LiveNode) :
    n.orchestrator.matchingInput.reveals
      = n.orchestrator.ownRevealed ++ n.peerOrders n.orchestrator.batchId := rfl

/-- The message that is accepted in a step, if any. -/
def acceptedMessage (n : LiveNode) : Input → Option GossipMessage
  | .gossip msg => if (n.validator.receive msg).1 then some msg else none
  | _ => none

/-- The input is a reveal that passes the validator, of an order that can be encoded. -/
def Brings (n : LiveNode) (i : Input) (b : UInt64) (r : RevealedOrder) : Prop :=
  ∃ poolId, i = .gossip (.reveal b poolId r.order r.signature) ∧
    n.validator.Passes (.reveal b poolId r.order r.signature) ∧
    (encodeOrder r.order).isSome ∧ r.orderHash = orderHash r.order

/-- Every order that comes in finds the commitment of its NFT stored for the batch. -/
def RevealsCommitted (n : LiveNode) (i : Input) : Prop :=
  ∀ b r, n.Brings i b r → n.HoldsCommit r.order.nftId b r.orderHash

/-- Every peer order that MATCH can take was committed to in its batch by its NFT. -/
def OrdersCommitted (accepted : List GossipMessage) (n : LiveNode) : Prop :=
  ∀ b, ∀ r ∈ n.peerOrders b, CommittedTo accepted r.order.nftId b r.orderHash

/-! ## What is stored -/

theorem processInboundGossip_of_refused {n : LiveNode} {msg : GossipMessage}
    (h : (n.validator.receive msg).1 = false) :
    (n.processInboundGossip msg).orchestrator = n.orchestrator := by
  cases msg with
  | commitment batchId poolId hash nftId signature =>
      rw [GossipValidator.receive] at h
      unfold processInboundGossip
      dsimp only
      split <;> simp_all
  | reveal batchId poolId order signature =>
      rw [GossipValidator.receive] at h
      unfold processInboundGossip
      dsimp only
      split <;> simp_all
  | batchComplete => rfl
  | settlementReport => rfl

omit [Externals] in
theorem holdsCommit_congr {n n' : LiveNode}
    (h : n'.orchestrator.gossip.receivedCommits = n.orchestrator.gossip.receivedCommits)
    (nftId b : UInt64) (hash : Hash32) :
    n'.HoldsCommit nftId b hash ↔ n.HoldsCommit nftId b hash := by
  unfold HoldsCommit
  rw [h]

/-- An accepted commitment is stored. -/
theorem gossip_of_accepted {n : LiveNode} {batchId poolId nftId : UInt64} {hash : Hash32}
    {signature : Bytes}
    (h : (n.validator.receive (.commitment batchId poolId hash nftId signature)).1 = true) :
    (n.processInboundGossip (.commitment batchId poolId hash nftId signature)).orchestrator.gossip
      = n.orchestrator.gossip.storeCommit ⟨nftId, poolId, batchId, hash.toList⟩ := by
  rw [GossipValidator.receive] at h
  unfold processInboundGossip
  dsimp only
  split <;> simp_all

/-- A reveal stores no commit. -/
theorem receivedCommits_reveal (n : LiveNode) (batchId poolId : UInt64) (order : Order)
    (signature : Bytes) :
    (n.processInboundGossip
        (.reveal batchId poolId order signature)).orchestrator.gossip.receivedCommits
      = n.orchestrator.gossip.receivedCommits := by
  unfold processInboundGossip
  dsimp only
  split <;> rfl

omit [Externals] in
/-- Storing a commit holds its commitment and those that were held. -/
theorem holdsCommit_of_stored {n n' : LiveNode} {batchId poolId nftId' : UInt64} {hash' : Hash32}
    (signature : Bytes)
    (h : n'.orchestrator.gossip
      = n.orchestrator.gossip.storeCommit ⟨nftId', poolId, batchId, hash'.toList⟩)
    (nftId b : UInt64) (hash : Hash32) :
    n'.HoldsCommit nftId b hash ↔ n.HoldsCommit nftId b hash ∨
      CommittedTo [.commitment batchId poolId hash' nftId' signature] nftId b hash := by
  rw [HoldsCommit, h, GossipBridge.receivedCommits_storeCommit]
  split_ifs with hb
  · subst hb
    constructor
    · rintro ⟨c, hc, hnft, hhash⟩
      rcases List.mem_append.mp hc with hold | hlast
      · exact .inl ⟨c, hold, hnft, hhash⟩
      · right
        obtain rfl := List.mem_singleton.mp hlast
        -- a hash is determined by its bytes
        have heq := congrArg Sha256.toHash32 hhash
        rw [Sha256.toHash32_toList, Sha256.toHash32_toList] at heq
        subst hnft heq
        exact ⟨poolId, signature, List.mem_cons_self⟩
    · rintro (⟨c, hc, hnft, hhash⟩ | ⟨poolId', signature', hmem⟩)
      · exact ⟨c, List.mem_append_left _ hc, hnft, hhash⟩
      · obtain ⟨-, rfl, rfl, rfl, -⟩ := GossipMessage.commitment.inj (List.mem_singleton.mp hmem)
        exact ⟨_, List.mem_append_right _ List.mem_cons_self, rfl, rfl⟩
  · rw [HoldsCommit, or_iff_left]
    rintro ⟨poolId', signature', hmem⟩
    exact hb (GossipMessage.commitment.inj (List.mem_singleton.mp hmem)).1

/-- An inbound message stores its commitment if it is accepted. -/
theorem holdsCommit_processInboundGossip (n : LiveNode) (msg : GossipMessage) (nftId b : UInt64)
    (hash : Hash32) :
    (n.processInboundGossip msg).HoldsCommit nftId b hash ↔ n.HoldsCommit nftId b hash ∨
      CommittedTo (n.acceptedMessage (.gossip msg)).toList nftId b hash := by
  cases haccepted : (n.validator.receive msg).1 with
  | false =>
      have hnone : n.acceptedMessage (.gossip msg) = none := by simp [acceptedMessage, haccepted]
      rw [HoldsCommit, processInboundGossip_of_refused haccepted, hnone, HoldsCommit, or_iff_left]
      rintro ⟨poolId, signature, h⟩
      cases h
  | true =>
      have hsome : n.acceptedMessage (.gossip msg) = some msg := by
        simp [acceptedMessage, haccepted]
      rw [hsome]
      cases msg with
      | commitment batchId poolId hash' nftId' signature =>
          exact holdsCommit_of_stored signature (gossip_of_accepted haccepted) nftId b hash
      | reveal batchId poolId order signature =>
          rw [holdsCommit_congr (n.receivedCommits_reveal batchId poolId order signature),
            or_iff_left]
          rintro ⟨poolId', signature', h⟩
          cases List.mem_singleton.mp h
      | batchComplete => cases haccepted
      | settlementReport => cases haccepted

/-- The order behind bytes that an encoding made. -/
theorem decodeRevealed_encode (order : Order) (signature : Bytes) :
    Orchestrator.decodeRevealed ((encodeOrder order).getD []) signature
      = (encodeOrder order).map fun _ => ⟨order, signature, orderHash order⟩ := by
  unfold Orchestrator.decodeRevealed
  cases henc : encodeOrder order with
  | none =>
      rw [Option.getD_none, decodeOrder_of_length_lt (by decide)]
      rfl
  | some bytes =>
      rw [Option.getD_some, Externals.decode_encode henc]
      rfl

/-- A message brings the order of its reveal if it is accepted, and changes no other peer
order. -/
theorem mem_peerOrders_processInboundGossip (n : LiveNode) (msg : GossipMessage) (b : UInt64)
    (r : RevealedOrder) :
    r ∈ (n.processInboundGossip msg).peerOrders b
      ↔ r ∈ n.peerOrders b ∨ n.Brings (.gossip msg) b r := by
  unfold peerOrders Orchestrator.peerRevealed
  rw [receivedReveals_processInboundGossip, List.filterMap_append, List.mem_append]
  refine or_congr_right ?_
  cases msg with
  | reveal batchId poolId order signature =>
      -- what is stored is what the validator accepted
      have hverdict := (n.validator.effect_receive (.reveal batchId poolId order signature)).verdict
      rw [show n.acceptsReveal (.reveal batchId poolId order signature)
        = (n.validator.receive (.reveal batchId poolId order signature)).1 from rfl]
      constructor
      · intro hr
        split_ifs at hr with haccepted
        · obtain ⟨m, hm, hdecoded⟩ := List.mem_filterMap.mp hr
          obtain ⟨hm, hb⟩ := List.mem_filter.mp hm
          obtain rfl := Option.some.inj (Option.mem_toList.mp hm)
          obtain rfl := of_decide_eq_true hb
          rw [decodeRevealed_encode] at hdecoded
          obtain ⟨bytes, henc, rfl⟩ := Option.map_eq_some_iff.mp hdecoded
          exact ⟨poolId, rfl, hverdict.mp haccepted,
            Option.isSome_iff_exists.mpr ⟨bytes, henc⟩, rfl⟩
        · cases hr
      · rintro ⟨poolId', hmsg, hpasses, henc, hhash⟩
        obtain ⟨rfl, -, rfl, rfl⟩ := GossipMessage.reveal.inj (Input.gossip.inj hmsg)
        obtain ⟨bytes, hbytes⟩ := Option.isSome_iff_exists.mp henc
        rw [if_pos (hverdict.mpr (by cases hmsg; exact hpasses))]
        refine List.mem_filterMap.mpr ⟨_, List.mem_filter.mpr
          ⟨Option.mem_toList.mpr rfl, decide_eq_true rfl⟩, ?_⟩
        rw [decodeRevealed_encode, hbytes, Option.map_some, ← hhash]
  | commitment | batchComplete | settlementReport =>
      refine iff_of_false ?_ ?_
      · simp [acceptsReveal]
      · rintro ⟨poolId, hmsg, -⟩
        cases hmsg

/-- Other inputs leave the peer orders of a batch alone or drop all of them. -/
theorem peerOrders_handle_subset {n : LiveNode} {i : Input} (hgossip : ∀ msg, i ≠ .gossip msg)
    (b : UInt64) : (n.handle i).1.peerOrders b ⊆ n.peerOrders b := by
  have hsame : (∀ c, i ≠ .boundary c) → (n.handle i).1.peerOrders b = n.peerOrders b := by
    intro hboundary
    rw [peerOrders, Network.receivedReveals_handle hgossip fun c hc => absurd hc (hboundary c),
      peerOrders]
  cases i with
  | gossip msg => exact absurd rfl (hgossip msg)
  | boundary newBatchId =>
      unfold peerOrders
      rw [handle, clearPublishedReveals, maintainGossip]
      dsimp only
      rw [GossipBridge.receivedReveals_expireInbound]
      split_ifs
      · exact List.Subset.refl _
      · exact List.nil_subset _
  | cachePubkey | advance | setNumPools | commit | reveal | runMatch =>
      rw [hsame fun c hc => by cases hc]
      exact List.Subset.refl _

/-- COMMIT leaves the received commits alone. -/
theorem receivedCommits_commitHandler (n : LiveNode) (canCommit : Bool)
    (strategyOrders : Option (List ValidatedOrder)) (sent : ℕ → Bool) :
    (n.commitHandler canCommit strategyOrders sent).1.orchestrator.gossip.receivedCommits
      = n.orchestrator.gossip.receivedCommits := by
  cases canCommit with
  | false => rfl
  | true =>
      cases strategyOrders with
      | none => rfl
      | some orders =>
          simp only [commitHandler, flushGossip, Orchestrator.onCommitPhase, foldl_commitOrder,
            Bool.not_true, Bool.false_eq_true, if_false]
          rfl

omit [Externals] in
/-- What a boundary to `newBatchId` keeps: what is in the window of the later batch is in the
windows of both. -/
theorem window_le_of_later {current newBatchId b : UInt64}
    (h : (if current < newBatchId then newBatchId else current).saturatingSub batchWindow ≤ b) :
    newBatchId.saturatingSub batchWindow ≤ b ∧ current.saturatingSub batchWindow ≤ b := by
  rw [UInt64.le_iff_toNat_le, UInt64.toNat_saturatingSub] at h ⊢
  rw [UInt64.le_iff_toNat_le, UInt64.toNat_saturatingSub]
  split_ifs at h with hlt
  · rw [UInt64.lt_iff_toNat_lt] at hlt
    omega
  · rw [UInt64.lt_iff_toNat_lt] at hlt
    omega

/-- At a boundary the window follows the batch, and the store keeps what is in the window of the
new batch. -/
theorem holdsCommit_boundary (n : LiveNode) (newBatchId nftId b : UInt64) (hash : Hash32) :
    ((n.handle (.boundary newBatchId)).1.HoldsCommit nftId b hash
        ↔ newBatchId.saturatingSub batchWindow ≤ b ∧ n.HoldsCommit nftId b hash) ∧
      (n.handle (.boundary newBatchId)).1.validator.currentBatchId
        = if n.validator.currentBatchId < newBatchId then newBatchId
          else n.validator.currentBatchId := by
  have hstored : (n.handle (.boundary newBatchId)).1.orchestrator.gossip.receivedCommits b
      = if newBatchId.saturatingSub batchWindow ≤ b then
          n.orchestrator.gossip.receivedCommits b else [] :=
    GossipBridge.receivedCommits_expireInbound _ _ _
  constructor
  · rw [HoldsCommit, hstored]
    split_ifs with hwindow
    · exact (and_iff_right hwindow).symm
    · refine iff_of_false ?_ fun h => hwindow h.1
      rintro ⟨c, hc, -⟩
      cases hc
  · show ((n.validator.updateBatch newBatchId).expireOldBatches.resetStats).currentBatchId = _
    rw [show ∀ v : GossipValidator, v.resetStats.currentBatchId = v.currentBatchId from
      fun _ => rfl, GossipValidator.currentBatchId_expireOldBatches,
      GossipValidator.updateBatch_eq]

/-- The window of the validator only moves up, and only the commitments of batches that leave
it are dropped. -/
theorem holdsCommit_handle {n : LiveNode} {i : Input} (hgossip : ∀ msg, i ≠ .gossip msg)
    (nftId b : UInt64) (hash : Hash32) :
    ((n.handle i).1.HoldsCommit nftId b hash → n.HoldsCommit nftId b hash) ∧
      ((n.handle i).1.validator.currentBatchId.saturatingSub batchWindow ≤ b →
        n.validator.currentBatchId.saturatingSub batchWindow ≤ b ∧
          (n.HoldsCommit nftId b hash → (n.handle i).1.HoldsCommit nftId b hash)) := by
  -- all inputs but a boundary leave commits and window alone
  have hsame : (n.handle i).1.orchestrator.gossip.receivedCommits
        = n.orchestrator.gossip.receivedCommits →
      (n.handle i).1.validator.currentBatchId = n.validator.currentBatchId →
      ((n.handle i).1.HoldsCommit nftId b hash → n.HoldsCommit nftId b hash) ∧
        ((n.handle i).1.validator.currentBatchId.saturatingSub batchWindow ≤ b →
          n.validator.currentBatchId.saturatingSub batchWindow ≤ b ∧
            (n.HoldsCommit nftId b hash → (n.handle i).1.HoldsCommit nftId b hash)) := by
    intro hcommits hcurrent
    rw [holdsCommit_congr hcommits, hcurrent]
    exact ⟨id, fun h => ⟨h, id⟩⟩
  cases i with
  | gossip msg => exact absurd rfl (hgossip msg)
  | boundary newBatchId =>
      obtain ⟨hheld, hcurrent⟩ := n.holdsCommit_boundary newBatchId nftId b hash
      rw [hheld, hcurrent]
      constructor
      · intro h
        exact h.2
      · intro hwindow
        obtain ⟨hnew, hold⟩ := window_le_of_later hwindow
        exact ⟨hold, fun h => ⟨hnew, h⟩⟩
  | commit canCommit strategyOrders sent =>
      exact hsame (receivedCommits_commitHandler n canCommit strategyOrders sent) rfl
  | reveal strategyResponse sent =>
      refine hsame ?_ rfl
      rw [handle, orchestrator_revealHandler]
      rfl
  | runMatch =>
      refine hsame ?_ rfl
      obtain ⟨registered, h⟩ := n.orchestrator_matchHandler
      rw [handle, h]
  | cachePubkey | advance | setNumPools => exact hsame rfl rfl

/-! ## Commit before reveal -/

/-- The accepted commitments of the batches that have not left the window are stored. -/
structure Stores (accepted : List GossipMessage) (n : LiveNode) : Prop where
  logged : ∀ nftId b hash, n.HoldsCommit nftId b hash → CommittedTo accepted nftId b hash
  held : ∀ nftId b hash, n.validator.currentBatchId.saturatingSub batchWindow ≤ b →
    CommittedTo accepted nftId b hash → n.HoldsCommit nftId b hash

theorem acceptedMessage_of_not_gossip {n : LiveNode} {i : Input}
    (hgossip : ∀ msg, i ≠ .gossip msg) : n.acceptedMessage i = none := by
  cases i with
  | gossip msg => exact absurd rfl (hgossip msg)
  | cachePubkey | advance | setNumPools | boundary | commit | reveal | runMatch => rfl

/-- **Step.**  Every input preserves it. -/
theorem Stores.handle {accepted : List GossipMessage} {n : LiveNode} (h : Stores accepted n)
    (i : Input) : Stores (accepted ++ (n.acceptedMessage i).toList) (n.handle i).1 := by
  by_cases hgossip : ∃ msg, i = .gossip msg
  · obtain ⟨msg, rfl⟩ := hgossip
    have hcurrent : (n.processInboundGossip msg).validator.currentBatchId
        = n.validator.currentBatchId := by
      rw [validator_processInboundGossip]
      exact (n.validator.effect_receive msg).current
    refine ⟨fun nftId b hash hheld => ?_, fun nftId b hash hwindow hcommitted => ?_⟩
    · rw [committedTo_append]
      exact ((n.holdsCommit_processInboundGossip msg nftId b hash).mp hheld).imp
        (h.logged nftId b hash) id
    · rw [LiveNode.handle, hcurrent] at hwindow
      rw [committedTo_append] at hcommitted
      exact (n.holdsCommit_processInboundGossip msg nftId b hash).mpr
        (hcommitted.imp (h.held nftId b hash hwindow) id)
  · have hother := not_exists.mp hgossip
    rw [acceptedMessage_of_not_gossip hother, Option.toList_none, List.append_nil]
    refine ⟨fun nftId b hash hheld => ?_, fun nftId b hash hwindow hcommitted => ?_⟩
    · exact h.logged nftId b hash ((holdsCommit_handle hother nftId b hash).1 hheld)
    · obtain ⟨hbefore, hkept⟩ := (holdsCommit_handle hother nftId b hash).2 hwindow
      exact hkept (h.held nftId b hash hbefore hcommitted)

/-- A message that passes is of a batch in the window. -/
theorem window_le_of_passes {v : GossipValidator} {msg : GossipMessage} (h : v.Passes msg) :
    v.currentBatchId.saturatingSub batchWindow ≤ msg.batch := by
  obtain ⟨⟨c, -, hrange, -⟩, -⟩ := h
  unfold GossipValidator.isBatchInRange at hrange
  split_ifs at hrange with hzero
  · rw [UInt64.le_iff_toNat_le, UInt64.toNat_saturatingSub, hzero, UInt64.toNat_zero]
    omega
  · rw [Bool.and_eq_true, decide_eq_true_eq] at hrange
    exact hrange.1

/-- After an input all orders are committed exactly if those that it brings are. -/
theorem ordersCommitted_handle_iff {accepted : List GossipMessage} {n : LiveNode} {i : Input}
    (hstores : Stores accepted n) (h : n.OrdersCommitted accepted) :
    (n.handle i).1.OrdersCommitted (accepted ++ (n.acceptedMessage i).toList)
      ↔ n.RevealsCommitted i := by
  by_cases hgossip : ∃ msg, i = .gossip msg
  · obtain ⟨msg, rfl⟩ := hgossip
    constructor
    · intro hafter b r hbrings
      have hcommitted := hafter b r
        ((n.mem_peerOrders_processInboundGossip msg b r).mpr (.inr hbrings))
      obtain ⟨poolId, hmsg, hpasses, -⟩ := hbrings
      obtain rfl := Input.gossip.inj hmsg
      -- the message itself is a reveal, so the commitment was there before
      refine hstores.held _ _ _ (window_le_of_passes hpasses) ?_
      rcases committedTo_append.mp hcommitted with hold | ⟨poolId', signature, hlast⟩
      · exact hold
      · rw [acceptedMessage] at hlast
        split_ifs at hlast
        · cases List.mem_singleton.mp hlast
        · cases hlast
    · intro hcond b r hr
      rw [committedTo_append]
      rcases (n.mem_peerOrders_processInboundGossip msg b r).mp hr with hold | hbrings
      · exact .inl (h b r hold)
      · exact .inl (hstores.logged _ _ _ (hcond b r hbrings))
  · have hother := not_exists.mp hgossip
    refine iff_of_true ?_ ?_
    · intro b r hr
      rw [committedTo_append]
      exact .inl (h b r (peerOrders_handle_subset hother b hr))
    · rintro b r ⟨poolId, rfl, -⟩
      exact absurd rfl (hother _)

/-- No input stops the node. -/
theorem exists_run (n : LiveNode) (is : List Input) : ∃ n', system.run n is = some n' := by
  induction is generalizing n with
  | nil => exact ⟨n, rfl⟩
  | cons i is ih => exact ih (n.handle i).1

omit [Externals] in
theorem HeardNothing.stores {n : LiveNode} (h : n.HeardNothing) : Stores [] n := by
  refine ⟨?_, ?_⟩
  · rintro nftId b hash ⟨c, hc, -⟩
    rw [(h b).1] at hc
    cases hc
  · rintro nftId b hash - ⟨poolId, signature, hmem⟩
    cases hmem

theorem HeardNothing.peerOrders {n : LiveNode} (h : n.HeardNothing) (b : UInt64) :
    n.peerOrders b = [] := by
  rw [LiveNode.peerOrders, (h b).2]
  rfl

/-- **Commit before reveal.**  At every point of a run all peer orders that MATCH can take were
committed to before, if and only if every reveal that passes finds its commitment stored. -/
theorem ordersCommitted_iff {n : LiveNode} (hn : n.HeardNothing) (is : List Input) :
    system.Throughout acceptedMessage (fun accepted n' => n'.OrdersCommitted accepted) [] n is
      ↔ system.Follows RevealsCommitted n is := by
  obtain ⟨n', hrun⟩ := exists_run n is
  refine system.throughout_iff acceptedMessage (J := Stores) ?_ ?_ hn.stores ?_ hrun
  · intro accepted n i n' h hstep
    obtain rfl := Option.some.inj hstep
    exact h.handle i
  · intro accepted n i n' hstores h hstep
    obtain rfl := Option.some.inj hstep
    exact ordersCommitted_handle_iff hstores h
  · intro b r hr
    rw [hn.peerOrders] at hr
    cases hr

/-! ## Batch and pool -/

/-- The pool of an NFT in a batch, for the pool count that the clock knows. -/
def poolIn (n : LiveNode) (b nftId : UInt64) : UInt64 :=
  computePoolAssignment nftId b (max n.orchestrator.batchState.numPools 1)

/-- The order was signed for the batch, and its NFT is in the pool of the node. -/
def InContext (n : LiveNode) (b : UInt64) (r : RevealedOrder) : Prop :=
  r.order.batchId = b ∧ n.poolIn b r.order.nftId = n.poolIn b n.orchestrator.nodeNftId

instance (n : LiveNode) (b : UInt64) (r : RevealedOrder) : Decidable (n.InContext b r) :=
  inferInstanceAs (Decidable (_ ∧ _))

/-- Every peer order that MATCH can take belongs to its batch and pool. -/
def OrdersInContext (n : LiveNode) : Prop := ∀ b, ∀ r ∈ n.peerOrders b, n.InContext b r

/-- Every order that comes in belongs to batch and pool, and a new pool count keeps the NFTs of
the stored ones together with the node. -/
def KeepsContext (n : LiveNode) (i : Input) : Prop :=
  (∀ b r, n.Brings i b r → n.InContext b r) ∧
    ∀ k, i = .setNumPools k → ∀ b, ∀ r ∈ n.peerOrders b,
      computePoolAssignment r.order.nftId b (max k 1)
        = computePoolAssignment n.orchestrator.nodeNftId b (max k 1)

/-- Only a new pool count changes pools. -/
theorem poolIn_handle {n : LiveNode} {i : Input} (hpools : ∀ k, i ≠ .setNumPools k) :
    (n.handle i).1.orchestrator.nodeNftId = n.orchestrator.nodeNftId ∧
      (n.handle i).1.poolIn = n.poolIn := by
  cases i with
  | gossip msg =>
      obtain ⟨commits, reveals, h⟩ := n.orchestrator_processInboundGossip msg
      unfold poolIn
      rw [handle, h]
      exact ⟨rfl, rfl⟩
  | setNumPools k => exact absurd rfl (hpools k)
  | commit canCommit strategyOrders sent =>
      obtain ⟨g, events, -, h⟩ := n.orchestrator_commitHandler canCommit strategyOrders sent
      unfold poolIn
      rw [handle, h]
      exact ⟨rfl, rfl⟩
  | reveal strategyResponse sent =>
      unfold poolIn
      rw [handle, orchestrator_revealHandler]
      exact ⟨rfl, rfl⟩
  | runMatch =>
      obtain ⟨registered, h⟩ := n.orchestrator_matchHandler
      unfold poolIn
      rw [handle, h]
      exact ⟨rfl, rfl⟩
  | cachePubkey | advance | boundary => exact ⟨rfl, rfl⟩

theorem inContext_handle {n : LiveNode} {i : Input} (hpools : ∀ k, i ≠ .setNumPools k)
    (b : UInt64) (r : RevealedOrder) : (n.handle i).1.InContext b r ↔ n.InContext b r := by
  obtain ⟨hnft, hpool⟩ := poolIn_handle (n := n) hpools
  rw [InContext, hnft, hpool, InContext]

/-- After an input all orders are in context exactly if the input keeps it so. -/
theorem ordersInContext_handle_iff {n : LiveNode} {i : Input} (h : n.OrdersInContext) :
    (n.handle i).1.OrdersInContext ↔ n.KeepsContext i := by
  -- a new pool count moves the context under the orders that are stored
  by_cases hpools : ∃ k, i = .setNumPools k
  · obtain ⟨k, rfl⟩ := hpools
    constructor
    · intro hafter
      refine ⟨?_, ?_⟩
      · rintro b r ⟨poolId, hmsg, -⟩
        cases hmsg
      · intro k' hk b r hr
        obtain rfl := Input.setNumPools.inj hk
        exact (hafter b r hr).2
    · rintro ⟨-, hpool⟩ b r hr
      exact ⟨(h b r hr).1, hpool k rfl b r hr⟩
  · have hsame := inContext_handle (n := n) (not_exists.mp hpools)
    have hcount : ∀ k, i = .setNumPools k → ∀ b, ∀ r ∈ n.peerOrders b,
        computePoolAssignment r.order.nftId b (max k 1)
          = computePoolAssignment n.orchestrator.nodeNftId b (max k 1) :=
      fun k hk => absurd ⟨k, hk⟩ hpools
    -- else only gossip brings orders
    by_cases hgossip : ∃ msg, i = .gossip msg
    · obtain ⟨msg, rfl⟩ := hgossip
      constructor
      · intro hafter
        refine ⟨fun b r hbrings => ?_, hcount⟩
        exact (hsame b r).mp
          (hafter b r ((n.mem_peerOrders_processInboundGossip msg b r).mpr (.inr hbrings)))
      · rintro ⟨hcond, -⟩ b r hr
        rw [hsame]
        rcases (n.mem_peerOrders_processInboundGossip msg b r).mp hr with hold | hbrings
        · exact h b r hold
        · exact hcond b r hbrings
    · have hother := not_exists.mp hgossip
      refine iff_of_true ?_ ⟨?_, hcount⟩
      · intro b r hr
        rw [hsame]
        exact h b r (peerOrders_handle_subset hother b hr)
      · rintro b r ⟨poolId, rfl, -⟩
        exact absurd rfl (hother _)

/-- **Batch and pool.**  At every point of a run all peer orders that MATCH can take were signed
for its batch and belong to its pool, if and only if every step keeps it so. -/
theorem ordersInContext_iff {n : LiveNode} (hn : n.HeardNothing) (is : List Input) :
    system.Always OrdersInContext n is
      ↔ system.Follows KeepsContext n is := by
  obtain ⟨n', hrun⟩ := exists_run n is
  refine system.always_iff (J := fun _ => True) ?_ ?_ trivial ?_ hrun
  · intros
    trivial
  · rintro n i n' - h hstep
    obtain rfl := Option.some.inj hstep
    exact ordersInContext_handle_iff h
  · intro b r hr
    rw [hn.peerOrders] at hr
    cases hr

end

/-! ## Reveals without a commitment, of another batch, from another pool -/

section

attribute [local instance] GossipValidation.commitExternals

/-- A node that has heard nothing receives the reveal of the sample buy. -/
def strayReveal : List Input := [.gossip (.reveal 7 0 sampleBuy buySignature)]

/-- The sample buy comes in under the envelope of batch 8, and batch 8 begins. -/
def replayedReveal : List Input := [.gossip (.reveal 8 0 sampleBuy buySignature), .advance 117]

/-- With three pools the buyer is in pool 1 of batch 7, and the node in pool 2. -/
def foreignReveal : List Input := [.setNumPools 3, .gossip (.reveal 7 1 sampleBuy buySignature)]

/-- The sample buy as MATCH takes it. -/
def revealedBuy : RevealedOrder := ⟨sampleBuy, buySignature, orderHash sampleBuy⟩

theorem heardNothing_sampleNode (nftId : UInt64) : (sampleNode nftId).HeardNothing :=
  fun _ => ⟨rfl, rfl⟩

/-- MATCH takes an order that nobody committed to. -/
theorem uncommitted_order_is_taken :
    (sampleNode 1).HeardNothing ∧
      (∃ n', system.run (sampleNode 1) strayReveal = some n' ∧
        revealedBuy ∈ n'.orchestrator.matchingInput.reveals) ∧
      ¬ system.Throughout acceptedMessage (fun accepted n' => n'.OrdersCommitted accepted) []
        (sampleNode 1) strayReveal := by
  refine ⟨heardNothing_sampleNode 1, ⟨_, rfl, by decide +kernel⟩, fun h => ?_⟩
  obtain ⟨poolId, signature, hmem⟩ :=
    h strayReveal (List.prefix_refl _) _ rfl 7 revealedBuy (by decide +kernel)
  have hlog : system.trace acceptedMessage (sampleNode 1) strayReveal
      = [.reveal 7 0 sampleBuy buySignature] := by
    decide +kernel
  rw [hlog] at hmem
  cases List.mem_singleton.mp hmem

/-- Committed to and then revealed, the buy is bound. -/
theorem ordersCommitted_buyerMessages :
    system.Throughout acceptedMessage (fun accepted n' => n'.OrdersCommitted accepted) []
      (sampleNode 1) (buyerMessages.map .gossip) := by
  refine (ordersCommitted_iff (heardNothing_sampleNode 1) _).mpr ?_
  rw [buyerMessages, List.map_cons, List.map_cons, follows_cons, follows_cons]
  refine ⟨?_, ?_, trivial⟩
  · rintro b r ⟨poolId, hmsg, -⟩
    cases hmsg
  · rintro b r ⟨poolId, hmsg, -, -, hhash⟩
    obtain ⟨rfl, -, horder, -⟩ := GossipMessage.reveal.inj (Input.gossip.inj hmsg)
    rw [hhash, ← horder]
    decide +kernel

/-- MATCH takes an order of another batch, and one of another pool. -/
theorem foreign_orders_are_taken :
    (sampleNode 1).HeardNothing ∧
      (∃ n', system.run (sampleNode 1) replayedReveal = some n' ∧
        revealedBuy ∈ n'.orchestrator.matchingInput.reveals ∧
        n'.orchestrator.matchingInput.batchId ≠ revealedBuy.order.batchId) ∧
      (∃ n', system.run (sampleNode 1) foreignReveal = some n' ∧
        revealedBuy ∈ n'.orchestrator.matchingInput.reveals ∧
        n'.orchestrator.matchingInput.poolId
          ≠ n'.poolIn n'.orchestrator.matchingInput.batchId revealedBuy.order.nftId) ∧
      ¬ system.Always OrdersInContext (sampleNode 1) replayedReveal ∧
      ¬ system.Always OrdersInContext (sampleNode 1) foreignReveal := by
  refine ⟨heardNothing_sampleNode 1, ⟨_, rfl, by decide +kernel, by decide +kernel⟩,
    ⟨_, rfl, by decide +kernel, by decide +kernel⟩, fun h => ?_, fun h => ?_⟩
  · have hcontext := h replayedReveal (List.prefix_refl _) _ rfl 8 revealedBuy (by decide +kernel)
    exact absurd hcontext.1 (by decide)
  · have hcontext := h foreignReveal (List.prefix_refl _) _ rfl 7 revealedBuy (by decide +kernel)
    exact absurd hcontext.2 (by decide +kernel)

/-- In its own batch and with one pool the buy is in context. -/
theorem ordersInContext_strayReveal :
    system.Always OrdersInContext (sampleNode 1) strayReveal := by
  refine (ordersInContext_iff (heardNothing_sampleNode 1) _).mpr ?_
  rw [strayReveal, follows_cons]
  refine ⟨⟨?_, ?_⟩, trivial⟩
  · rintro b r ⟨poolId, hmsg, -⟩
    obtain ⟨rfl, -, horder, -⟩ := GossipMessage.reveal.inj (Input.gossip.inj hmsg)
    rw [InContext, ← horder]
    exact ⟨rfl, by decide +kernel⟩
  · intro k hk
    cases hk

end

end LiveNode
