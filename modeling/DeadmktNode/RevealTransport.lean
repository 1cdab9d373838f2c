/-
# A reveal on its way to a peer

A committed order crosses two codecs four times: COMMIT encodes it with BCS, publishing decodes
it, bincode carries the message in a versioned envelope, and the peer encodes the order with BCS
again.  `bincode` is a third-party crate, of which only the round trip is used.  The peer stores
the bytes and the signature that COMMIT stored, so both nodes and the commitment have one hash
(`reveal_transport`).
-/
import DeadmktNode.RunLoop

/-! ## The wire -/

/-- Bumped when the messages change. -/
def protocolVersion : UInt16 := 1

/-- What stands on the wire. -/
structure GossipEnvelope where
  version : UInt16
  message : GossipMessage
deriving DecidableEq

inductive GossipCodecError where
  | bincode
  | versionMismatch (got expected : UInt16)
deriving DecidableEq

/-- The functions that gossip takes from the crate `bincode`. -/
class Bincode where
  /-- `bincode::serialize` at `GossipEnvelope` -/
  encode : GossipEnvelope → Option Bytes
  /-- `bincode::deserialize` at `GossipEnvelope` -/
  decode : Bytes → Option GossipEnvelope
  decode_encode : ∀ {e bs}, encode e = some bs → decode bs = some e

namespace GossipMessage

variable [Bincode]

/-- Wrap a message in an envelope of this version. -/
def serialize (msg : GossipMessage) : Except GossipCodecError Bytes :=
  match Bincode.encode ⟨protocolVersion, msg⟩ with
  | some bytes => .ok bytes
  | none => .error .bincode

/-- Unwrap a message; other versions are refused. -/
def deserialize (bytes : Bytes) : Except GossipCodecError GossipMessage :=
  match Bincode.decode bytes with
  | none => .error .bincode
  | some envelope =>
      if envelope.version ≠ protocolVersion then
        .error (.versionMismatch envelope.version protocolVersion)
      else .ok envelope.message

/-- **Round trip of the wire.** -/
theorem deserialize_serialize {msg : GossipMessage} {bytes : Bytes}
    (h : msg.serialize = .ok bytes) : deserialize bytes = .ok msg := by
  unfold serialize at h
  cases henc : Bincode.encode ⟨protocolVersion, msg⟩ with
  | none =>
      rw [henc] at h
      cases h
  | some bytes' =>
      rw [henc] at h
      obtain rfl := Except.ok.inj h
      unfold deserialize
      rw [Bincode.decode_encode henc]
      exact if_neg (not_not.mpr rfl)

end GossipMessage

/-! ## The stored order -/

section

variable [Externals]

/-- An order that COMMIT could encode, behind what it stored. -/
structure SealedAs (v : ValidatedOrder) (order : Order) : Prop where
  encoded : encodeOrder order = some v.orderBytes
  hash : v.commitHash = (orderHash order).toList

/-- COMMIT stores the encoding of an order and its hash.  The source stops at an order without
an encoding, for which there are no bytes here. -/
theorem sealedAs_of_convert {orderSpecs : List OrderSpec} {signingKey : SigningKey}
    {nftId batchId : UInt64} {params : BatchParams} {tracker : EscrowTracker}
    {tokenDecimals : HashMap String UInt8} {marketConfigs : List MarketConfig}
    {nonces : ℕ → Bytes} {orders : List ValidatedOrder}
    (h : convertStrategyOrders orderSpecs signingKey nftId batchId params tracker tokenDecimals
      marketConfigs nonces = some orders) {v : ValidatedOrder} (hv : v ∈ orders)
    (hencoded : v.orderBytes ≠ []) : ∃ order, SealedAs v order := by
  obtain ⟨result, -, rfl⟩ := Option.map_eq_some_iff.mp h
  obtain ⟨⟨spec, c⟩, -, rfl⟩ := List.mem_map.mp hv
  cases henc : encodeOrder c.toOrder with
  | none =>
      refine absurd ?_ hencoded
      rw [CanonicalOrder.seal, henc, Option.getD_none]
  | some bytes =>
      refine ⟨c.toOrder, ?_, rfl⟩
      rw [CanonicalOrder.seal, henc, Option.getD_some]

section

variable {v : ValidatedOrder} {order : Order}

theorem SealedAs.decoded (h : SealedAs v order) : decodeOrder v.orderBytes = some order :=
  Externals.decode_encode h.encoded

/-- The reveal of a committed order carries the order. -/
theorem SealedAs.revealMessage (h : SealedAs v order) {o : LiveOrchestrator} {idx : UInt32}
    (hidx : o.committedOrders[idx.toNat]? = some v) (batchId poolId : UInt64) :
    GossipBridge.revealMessage (o.revealAt batchId poolId idx)
      = .reveal batchId poolId order v.signature := by
  have hreveal : o.revealAt batchId poolId idx
      = ⟨o.nodeNftId, poolId, batchId, v.orderBytes, v.signature⟩ := by
    rw [Orchestrator.revealAt, hidx]
    rfl
  rw [GossipBridge.revealMessage, hreveal]
  dsimp only
  rw [h.decoded, Option.getD_some]

/-- The publisher matches its own committed order. -/
theorem SealedAs.mem_ownRevealed (h : SealedAs v order) {o : LiveOrchestrator}
    (hv : v ∈ o.committedOrders) : ⟨order, v.signature, orderHash order⟩ ∈ o.ownRevealed := by
  refine List.mem_filterMap.mpr ⟨v, hv, ?_⟩
  rw [Orchestrator.decodeRevealed, h.decoded, Option.map_some]

/-- The commitment that is published for it. -/
theorem SealedAs.publishCommit (h : SealedAs v order) (g : GossipBridge)
    (nftId batchId poolId : UInt64) :
    (g.publishCommit poolId ⟨nftId, poolId, batchId, v.commitHash⟩).pendingCommits
      = g.pendingCommits ++ [(poolId, .commitment batchId poolId (orderHash order) nftId
        (List.replicate 64 0))] := by
  rw [GossipBridge.publishCommit, h.hash]
  dsimp only
  rw [Sha256.toHash32_toList]

/-- What a peer that accepts the message stores. -/
theorem SealedAs.receivedReveals (h : SealedAs v order) {peer : LiveNode}
    {batchId poolId : UInt64}
    (haccepts : peer.acceptsReveal (.reveal batchId poolId order v.signature) = true) :
    (peer.processInboundGossip (.reveal batchId poolId order
        v.signature)).orchestrator.gossip.receivedReveals batchId
      = peer.orchestrator.gossip.receivedReveals batchId
        ++ [⟨order.nftId, poolId, batchId, v.orderBytes, v.signature⟩] := by
  rw [LiveNode.receivedReveals_processInboundGossip, if_pos haccepts, LiveNode.storedReveal,
    h.encoded]
  simp

end

/-- **Reveal transport.**  However an order that COMMIT stored is revealed, what a peer stores of
it has the bytes and the signature that were stored; publisher and peer match the same order,
under the hash that was committed. -/
theorem reveal_transport [Bincode] {orderSpecs : List OrderSpec} {signingKey : SigningKey}
    {nftId batchId : UInt64} {params : BatchParams} {tracker : EscrowTracker}
    {tokenDecimals : HashMap String UInt8} {marketConfigs : List MarketConfig}
    {nonces : ℕ → Bytes} {orders : List ValidatedOrder}
    (h : convertStrategyOrders orderSpecs signingKey nftId batchId params tracker tokenDecimals
      marketConfigs nonces = some orders) {v : ValidatedOrder} (hv : v ∈ orders)
    (hencoded : v.orderBytes ≠ []) {o : LiveOrchestrator} {idx : UInt32}
    (hidx : o.committedOrders[idx.toNat]? = some v) (b p : UInt64) {wire : Bytes}
    (hwire : (GossipBridge.revealMessage (o.revealAt b p idx)).serialize = .ok wire) :
    ∃ msg order, (o.gossip.publishReveal p (o.revealAt b p idx)).pendingReveals
        = o.gossip.pendingReveals ++ [(p, msg)] ∧
      GossipMessage.deserialize wire = .ok msg ∧
      (∀ peer : LiveNode, peer.acceptsReveal msg = true →
        ∃ stored : RevealMessage,
          (peer.processInboundGossip msg).orchestrator.gossip.receivedReveals b
            = peer.orchestrator.gossip.receivedReveals b ++ [stored] ∧
          stored.orderBytes = v.orderBytes ∧ stored.signature = v.signature ∧
          Orchestrator.decodeRevealed stored.orderBytes stored.signature
            = some ⟨order, v.signature, orderHash order⟩) ∧
      ⟨order, v.signature, orderHash order⟩ ∈ o.ownRevealed ∧
      ∀ g : GossipBridge,
        (g.publishCommit p ⟨o.nodeNftId, p, b, v.commitHash⟩).pendingCommits
          = g.pendingCommits ++ [(p, .commitment b p (orderHash order) o.nodeNftId
            (List.replicate 64 0))] := by
  obtain ⟨order, hsealed⟩ := sealedAs_of_convert h hv hencoded
  have hmsg := hsealed.revealMessage hidx b p
  refine ⟨_, order, rfl, GossipMessage.deserialize_serialize hwire, ?_,
    hsealed.mem_ownRevealed (List.mem_of_getElem? hidx),
    fun g => hsealed.publishCommit g o.nodeNftId b p⟩
  intro peer haccepts
  rw [hmsg] at haccepts ⊢
  refine ⟨_, hsealed.receivedReveals haccepts, rfl, rfl, ?_⟩
  rw [Orchestrator.decodeRevealed, hsealed.decoded, Option.map_some]

end

/-! ## The sample sell -/

/-- A byte string as bincode writes it: its length as `u64`, then the bytes. -/
def bincodeBytes (bs : Bytes) : Bytes := (UInt64.ofNat bs.length).toLeBytes ++ bs

/-- A reveal in its envelope as bincode writes it; a reveal is variant 1 of the messages. -/
def bincodeReveal (batchId poolId : UInt64) (order : Order) (signature : Bytes) : Bytes :=
  [1, 0] ++ [1, 0, 0, 0] ++ batchId.toLeBytes ++ poolId.toLeBytes ++ order.nftId.toLeBytes
    ++ bincodeBytes order.symbol ++ [order.side] ++ order.price.toLeBytes
    ++ order.quantity.toLeBytes ++ order.batchId.toLeBytes ++ bincodeBytes order.nonce
    ++ bincodeBytes signature

/-- Bincode on the reveal of the sample sell. -/
@[reducible] def sampleBincode : Bincode where
  encode e :=
    if e = ⟨1, .reveal 7 0 sampleSell sellSignature⟩ then
      some (bincodeReveal 7 0 sampleSell sellSignature)
    else none
  decode bs :=
    if bs = bincodeReveal 7 0 sampleSell sellSignature then
      some ⟨1, .reveal 7 0 sampleSell sellSignature⟩
    else none
  decode_encode h := by
    split_ifs at h with he
    obtain rfl := Option.some.inj h
    rw [if_pos rfl, he]

section

attribute [local instance] sampleExternals sampleBincode

/-- The publisher of the sample sell after its COMMIT. -/
def samplePublisher : LiveOrchestrator :=
  { (sampleNode 1).orchestrator with committedOrders := [committedSell] }

/-- The sample sell is converted, revealed, sent and stored by NFT 2. -/
theorem sell_is_transported :
    ∃ msg order, (samplePublisher.gossip.publishReveal 0
          (samplePublisher.revealAt 7 0 0)).pendingReveals = [(0, msg)] ∧
      GossipMessage.deserialize (bincodeReveal 7 0 sampleSell sellSignature) = .ok msg ∧
      ∃ stored : RevealMessage,
        ((sampleNode 2).processInboundGossip msg).orchestrator.gossip.receivedReveals 7 = [stored] ∧
        stored.orderBytes = committedSell.orderBytes ∧ stored.signature = sellSignature ∧
        Orchestrator.decodeRevealed stored.orderBytes stored.signature
          = some ⟨order, sellSignature, orderHash order⟩ := by
  have hconvert : convertStrategyOrders [⟨"EMM/KAY", "sell", "0.0000001", "5"⟩]
      RunLoop.sampleConfig.signingKey 1 7 ⟨10, 4, 3, 1, 2, 3⟩ RunLoop.sampleTracker
      RunLoop.sampleConfig.tokenDecimals RunLoop.sampleConfig.marketConfigs
      (fun _ => List.replicate 32 1) = some [committedSell] := by
    decide +kernel
  have hidx : samplePublisher.committedOrders[(0 : UInt32).toNat]? = some committedSell := rfl
  have hwire : (GossipBridge.revealMessage (samplePublisher.revealAt 7 0 0)).serialize
      = .ok (bincodeReveal 7 0 sampleSell sellSignature) := by
    decide +kernel
  obtain ⟨msg, order, hpublished, hread, hstored, -⟩ := reveal_transport hconvert
    List.mem_cons_self (by decide +kernel) hidx 7 0 hwire
  have hmsg : GossipMessage.deserialize (bincodeReveal 7 0 sampleSell sellSignature)
      = .ok (.reveal 7 0 sampleSell sellSignature) := by
    decide +kernel
  obtain rfl := Except.ok.inj (hread.symm.trans hmsg)
  obtain ⟨stored, hreceived, hbytes, hsignature, hdecoded⟩ :=
    hstored (sampleNode 2) (by decide +kernel)
  exact ⟨_, order, hpublished, hread, stored, hreceived, hbytes, hsignature, hdecoded⟩

end
