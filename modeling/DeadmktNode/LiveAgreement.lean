/-
# Agreement of two live nodes

Two nodes and third parties exchange gossip: what a node publishes is on the way to the
other one, what a third party publishes is on the way to both, and messages arrive in
any order.  Reveals are conserved (`Conserved`): what a node has stored for a batch and
what is still on the way to it is what the others published.

So when every reveal of a batch has been accepted, the two nodes match the same reveals
exactly if each node's committed orders are what it revealed (`live_match_agreement`).
MATCH feeds all committed orders of the own node to the engine, also those that the
strategy chose not to reveal; then the lists differ (`selective_reveal_disagrees`).
-/
import DeadmktNode.LiveNode
import DeadmktNode.MatchingOrder
import Mathlib.Data.Multiset.Filter
import Mathlib.Algebra.Order.Group.Multiset

/-! ## The network -/

/-- The two nodes. -/
inductive Party where
  | a
  | b
deriving DecidableEq

/-- The other node. -/
def Party.other : Party → Party
  | .a => .b
  | .b => .a

@[simp] theorem Party.other_other (p : Party) : p.other.other = p := by cases p <;> rfl

theorem Party.other_ne (p : Party) : p.other ≠ p := by cases p <;> decide

theorem Party.eq_other_of_ne {p q : Party} (h : p ≠ q) : p = q.other := by
  cases p <;> cases q <;> simp_all [Party.other]

structure Network where
  node : Party → LiveNode
  /-- the messages on the way to a node -/
  inFlight : Party → Multiset GossipMessage
  /-- the messages that a node has published so far -/
  published : Party → Multiset GossipMessage
  /-- the messages that third parties have published so far -/
  thirdParty : Multiset GossipMessage

namespace Network

/-- What can happen in the network. -/
inductive Input where
  /-- a node handles an input other than inbound gossip -/
  | handle (p : Party) (i : LiveNode.Input)
  /-- a third party publishes a message -/
  | inject (msg : GossipMessage)
  /-- a message arrives at a node -/
  | deliver (p : Party) (msg : GossipMessage)

/-- The network after an input; a message can only arrive if it is on the way. -/
def handle [Externals] (N : Network) : Input → Option Network
  | .handle _ (.gossip _) => none
  | .handle p i =>
      let out := (N.node p).handle i
      let msgs : Multiset GossipMessage := out.2.map Prod.snd
      some { N with
        node := Function.update N.node p out.1
        inFlight := Function.update N.inFlight p.other (N.inFlight p.other + msgs)
        published := Function.update N.published p (N.published p + msgs) }
  | .inject msg => some { N with
      inFlight := fun p => N.inFlight p + {msg}
      thirdParty := N.thirdParty + {msg} }
  | .deliver p msg =>
      if msg ∈ N.inFlight p then some { N with
        node := Function.update N.node p ((N.node p).processInboundGossip msg)
        inFlight := Function.update N.inFlight p ((N.inFlight p).erase msg) }
      else none

def system [Externals] : System Network Input := ⟨handle⟩

section

variable [Externals]

/-! ## Reveals of a batch -/

/-- The reveals of a batch among some messages, as a node stores them. -/
def revealsOf (b : UInt64) (msgs : Multiset GossipMessage) : Multiset RevealMessage :=
  msgs.filterMap fun msg => (LiveNode.storedReveal msg).filter (fun r => r.batchId = b)

@[simp] theorem revealsOf_add (b : UInt64) (M M' : Multiset GossipMessage) :
    revealsOf b (M + M') = revealsOf b M + revealsOf b M' :=
  Multiset.filterMap_add _ M M'

/-- The orders behind some reveals. -/
def decoded (reveals : Multiset RevealMessage) : Multiset RevealedOrder :=
  reveals.filterMap fun r => Orchestrator.decodeRevealed r.orderBytes r.signature

/-- The steps before MATCH of batch `b` in which every reveal of `b` that arrives is
accepted; no node has passed into a later batch. -/
def AcceptsReveals (b : UInt64) (N : Network) : Input → Prop
  | .handle _ (.boundary newBatchId) => newBatchId ≤ b
  | .deliver p msg => revealsOf b {msg} = 0 ∨ (N.node p).acceptsReveal msg = true
  | _ => True

instance (b : UInt64) (N : Network) : ∀ i, Decidable (AcceptsReveals b N i)
  | .handle _ (.boundary newBatchId) => inferInstanceAs (Decidable (newBatchId ≤ b))
  | .deliver p msg => inferInstanceAs
      (Decidable (revealsOf b {msg} = 0 ∨ (N.node p).acceptsReveal msg = true))
  | .handle _ (.gossip _) | .handle _ (.cachePubkey ..) | .handle _ (.advance _)
  | .handle _ (.setNumPools _) | .handle _ (.commit ..) | .handle _ (.reveal ..)
  | .handle _ .runMatch | .inject _ => isTrue trivial

/-- Reveals are conserved: stored or on the way is what the others published. -/
def Conserved (b : UInt64) (N : Network) : Prop :=
  ∀ p, ((N.node p).orchestrator.gossip.receivedReveals b : Multiset RevealMessage)
      + revealsOf b (N.inFlight p)
    = revealsOf b (N.published p.other) + revealsOf b N.thirdParty

/-! ## Steps -/

/-- Only inbound gossip changes the stored reveals of a batch that has not passed. -/
theorem receivedReveals_handle {n : LiveNode} {i : LiveNode.Input} {b : UInt64}
    (hgossip : ∀ msg, i ≠ .gossip msg) (hboundary : ∀ c, i = .boundary c → c ≤ b) :
    (n.handle i).1.orchestrator.gossip.receivedReveals b
      = n.orchestrator.gossip.receivedReveals b := by
  cases i with
  | gossip msg => exact absurd rfl (hgossip msg)
  | cachePubkey | advance | setNumPools => rfl
  | boundary c =>
      have hle : c.saturatingSub batchWindow ≤ b := by
        have hc := UInt64.le_iff_toNat_le.mp (hboundary c rfl)
        rw [UInt64.le_iff_toNat_le, UInt64.toNat_saturatingSub]
        omega
      simp only [LiveNode.handle, LiveNode.clearPublishedReveals, LiveNode.maintainGossip,
        GossipBridge.receivedReveals_expireInbound, if_pos hle]
  | commit canCommit strategyOrders sent =>
      exact LiveNode.receivedReveals_commitHandler n canCommit strategyOrders sent b
  | reveal strategyResponse sent =>
      rw [LiveNode.handle, LiveNode.orchestrator_revealHandler]
      rfl
  | runMatch =>
      obtain ⟨registered, h⟩ := LiveNode.orchestrator_matchHandler n
      rw [LiveNode.handle, h]

/-- A message that arrives moves its reveal from the way to the store. -/
theorem receivedReveals_deliver {n : LiveNode} {msg : GossipMessage} {b : UInt64}
    (h : revealsOf b {msg} = 0 ∨ n.acceptsReveal msg = true) :
    (((n.processInboundGossip msg).orchestrator.gossip.receivedReveals b :
        List RevealMessage) : Multiset RevealMessage)
      = n.orchestrator.gossip.receivedReveals b + revealsOf b {msg} := by
  rw [LiveNode.receivedReveals_processInboundGossip, ← Multiset.coe_add]
  congr 1
  have hsingle : revealsOf b {msg}
      = (((LiveNode.storedReveal msg).filter (fun r => r.batchId = b)).toList :
          Multiset RevealMessage) := by
    unfold revealsOf
    cases hf : (LiveNode.storedReveal msg).filter (fun r => r.batchId = b) with
    | none => exact Multiset.filterMap_cons_none msg 0 hf
    | some r => exact Multiset.filterMap_cons_some _ msg 0 hf
  have hlist : (LiveNode.storedReveal msg).toList.filter (fun r => r.batchId = b)
      = ((LiveNode.storedReveal msg).filter (fun r => r.batchId = b)).toList := by
    cases LiveNode.storedReveal msg with
    | none => rfl
    | some r => by_cases hr : r.batchId = b <;> simp [hr, Option.filter]
  rw [hlist, hsingle]
  split_ifs with hacc
  · rfl
  · rcases h with h | h
    · rw [hsingle] at h
      exact h.symm
    · exact absurd h hacc

/-- **One step.**  A step in which arriving reveals are accepted conserves reveals. -/
theorem conserved_handle {b : UInt64} {N N' : Network} {i : Input} (hN : N.Conserved b)
    (hacc : AcceptsReveals b N i) (hstep : N.handle i = some N') : N'.Conserved b := by
  intro p
  have hp := hN p
  cases i with
  | handle q i =>
      have hgossip : ∀ msg, i ≠ .gossip msg := by
        rintro msg rfl
        simp [handle] at hstep
      have hboundary : ∀ c, i = .boundary c → c ≤ b := by
        rintro c rfl
        exact hacc
      -- what the handler publishes is in flight to the other party
      have hN' : N' = { N with
          node := Function.update N.node q ((N.node q).handle i).1
          inFlight := Function.update N.inFlight q.other
            (N.inFlight q.other + (((N.node q).handle i).2.map Prod.snd : List _))
          published := Function.update N.published q
            (N.published q + (((N.node q).handle i).2.map Prod.snd : List _)) } := by
        cases i with
        | gossip msg => exact absurd rfl (hgossip msg)
        | cachePubkey | advance | setNumPools | boundary | commit | reveal | runMatch =>
            exact (Option.some.inj hstep).symm
      subst hN'
      dsimp only
      by_cases hpq : p = q
      · subst hpq
        rw [Function.update_self, receivedReveals_handle hgossip hboundary,
          Function.update_of_ne p.other_ne.symm, Function.update_of_ne p.other_ne]
        exact hp
      · obtain rfl := Party.eq_other_of_ne hpq
        rw [Function.update_of_ne hpq, Function.update_self, Party.other_other,
          Function.update_self, revealsOf_add, revealsOf_add, ← add_assoc, hp,
          Party.other_other]
        exact add_right_comm _ _ _
  | inject msg =>
      obtain rfl := Option.some.inj hstep
      dsimp only
      rw [revealsOf_add, revealsOf_add, ← add_assoc, hp, add_assoc]
  | deliver q msg =>
      simp only [handle] at hstep
      split_ifs at hstep with hmem
      obtain rfl := Option.some.inj hstep
      dsimp only
      by_cases hpq : p = q
      · subst hpq
        -- the delivered message moves from the messages in flight to the received ones
        have hsplit : revealsOf b (N.inFlight p)
            = revealsOf b {msg} + revealsOf b ((N.inFlight p).erase msg) := by
          rw [← revealsOf_add, Multiset.singleton_add, Multiset.cons_erase hmem]
        rw [Function.update_self, Function.update_self, receivedReveals_deliver hacc, ← hp,
          hsplit, add_assoc]
      · rw [Function.update_of_ne hpq, Function.update_of_ne hpq]
        exact hp

/-! ## Runs up to MATCH -/

/-- Nothing was exchanged yet. -/
structure Initial (N : Network) : Prop where
  fresh : ∀ p, (N.node p).Fresh
  inFlight : ∀ p, N.inFlight p = 0
  published : ∀ p, N.published p = 0
  thirdParty : N.thirdParty = 0

theorem conserved_of_initial {N : Network} (h : N.Initial) (b : UInt64) : N.Conserved b := by
  intro p
  rw [(h.fresh p).2 b, h.inFlight, h.published, h.thirdParty]
  rfl

/-- **Runs conserve reveals**, as long as every reveal that arrives is accepted. -/
theorem conserved_of_run {b : UInt64} {N N' : Network} {is : List Input} (hN : N.Initial)
    (hacc : system.Follows (AcceptsReveals b) N is) (hrun : system.run N is = some N') :
    N'.Conserved b :=
  system.run_invariant (fun _ _ _ hN hC hstep => conserved_handle hN hC hstep)
    (conserved_of_initial hN b) hacc hrun

/-- A run after which both nodes are about to match batch `b` in one pool over the same
markets, every reveal of `b` having been accepted where it was sent. -/
structure MatchReady (b : UInt64) (N : Network) (is : List Input) (N' : Network) : Prop where
  initial : N.Initial
  accepted : system.Follows (AcceptsReveals b) N is
  run : system.run N is = some N'
  delivered : ∀ p, revealsOf b (N'.inFlight p) = 0
  batch : ∀ p, (N'.node p).orchestrator.batchId = b
  pool : (N'.node .a).orchestrator.poolId = (N'.node .b).orchestrator.poolId
  markets : (N'.node .a).orchestrator.marketConfigs = (N'.node .b).orchestrator.marketConfigs

/-- The node's committed orders are what it revealed for batch `b`. -/
def RevealedOwn (b : UInt64) (N : Network) (p : Party) : Prop :=
  ((N.node p).orchestrator.ownRevealed : Multiset RevealedOrder)
    = decoded (revealsOf b (N.published p))

/-- Published reveals of batch `b` with the same order hash are the same, signature
included. -/
def HashesDetermine (b : UInt64) (N : Network) : Prop :=
  ∀ r ∈ decoded (revealsOf b (N.published .a + N.published .b + N.thirdParty)),
    ∀ r' ∈ decoded (revealsOf b (N.published .a + N.published .b + N.thirdParty)),
      r.orderHash = r'.orderHash → r = r'

@[simp] theorem decoded_add (R R' : Multiset RevealMessage) :
    decoded (R + R') = decoded R + decoded R' :=
  Multiset.filterMap_add _ R R'

/-- A node whose committed orders are what it revealed matches everything that was
published for the batch. -/
theorem allRevealed_eq {b : UInt64} {N N' : Network} {is : List Input}
    (h : MatchReady b N is N') {p : Party} (hown : RevealedOwn b N' p) :
    ((N'.node p).orchestrator.allRevealed : Multiset RevealedOrder)
      = decoded (revealsOf b (N'.published p)) +
        (decoded (revealsOf b (N'.published p.other)) +
          decoded (revealsOf b N'.thirdParty)) := by
  have hpeer := conserved_of_run h.initial h.accepted h.run p
  rw [h.delivered p, add_zero] at hpeer
  have hdec : ((Orchestrator.peerRevealed
      ((N'.node p).orchestrator.gossip.receivedReveals b) : List RevealedOrder) :
        Multiset RevealedOrder)
      = decoded (revealsOf b (N'.published p.other)) + decoded (revealsOf b N'.thirdParty) := by
    rw [← decoded_add, ← hpeer]
    rfl
  rw [Orchestrator.allRevealed, ← Multiset.coe_add, hown, h.batch p]
  exact congrArg _ hdec

omit [Externals] in
/-- Looking up every position of a list goes through the list. -/
theorem filterMap_range_getElem? {α β : Type*} (l : List α) (f : α → Option β) :
    (List.range l.length).filterMap (fun j => (l[j]?).bind f) = l.filterMap f := by
  induction l with
  | nil => rfl
  | cons a l ih =>
      rw [List.length_cons, List.range_succ_eq_map, List.filterMap_cons, List.filterMap_map,
        List.filterMap_cons]
      simp only [List.getElem?_cons_zero, Option.bind_some, Function.comp_def,
        List.getElem?_cons_succ, ih]

/-- The message that a node makes of a committed order when it reveals it. -/
theorem revealsOf_revealMessage {b : UInt64} {r : RevealMessage} {order : Order}
    (hbatch : r.batchId = b) (hdec : decodeOrder r.orderBytes = some order) :
    (LiveNode.storedReveal (GossipBridge.revealMessage r)).filter (fun r => r.batchId = b)
      = some { r with nftId := order.nftId } := by
  simp [GossipBridge.revealMessage, LiveNode.storedReveal, hdec,
    Externals.encode_decode hdec, hbatch, Option.filter]

/-- **Revealing everything.**  If the strategy's choice is, in some order, every committed
order once, and the channel takes the messages, then what the REVEAL handler publishes is
what MATCH will take from the committed orders. -/
theorem decoded_revealHandler {n : LiveNode} {b : UInt64} {response : Option (List UInt32)}
    (hqueue : n.orchestrator.gossip.pendingCommits = [] ∧
      n.orchestrator.gossip.pendingReveals = [])
    (hbatch : n.orchestrator.batchId = b)
    (hall : ((Orchestrator.revealIndices n.orchestrator.publishedCommits.length
      response).map UInt32.toNat).Perm (List.range n.orchestrator.committedOrders.length))
    (hdec : ∀ v ∈ n.orchestrator.committedOrders, (decodeOrder v.orderBytes).isSome) :
    decoded (revealsOf b (((n.revealHandler response (fun _ => true)).2.map Prod.snd :
        List GossipMessage) : Multiset GossipMessage))
      = (n.orchestrator.ownRevealed : Multiset RevealedOrder) := by
  set o := n.orchestrator
  -- the message of the committed order at a position
  let message (j : ℕ) : Option RevealedOrder :=
    (o.committedOrders[j]?).bind fun v => Orchestrator.decodeRevealed v.orderBytes v.signature
  have hmsgs : (n.revealHandler response (fun _ => true)).2.map Prod.snd
      = (Orchestrator.revealIndices o.publishedCommits.length response).map fun i =>
          GossipBridge.revealMessage (o.revealAt o.batchId o.poolId i) := by
    simp only [LiveNode.revealHandler, LiveNode.flushGossip, Orchestrator.onRevealPhase,
      LiveNode.foldl_revealOrder, GossipBridge.flush]
    rw [hqueue.1, hqueue.2]
    simp [o, Function.comp_def, List.filter_true]
  have hmessage : ∀ i ∈ Orchestrator.revealIndices o.publishedCommits.length response,
      ((LiveNode.storedReveal (GossipBridge.revealMessage
          (o.revealAt o.batchId o.poolId i))).filter (fun r => r.batchId = b)).bind
        (fun r => Orchestrator.decodeRevealed r.orderBytes r.signature)
      = message i.toNat := by
    intro i hi
    have hlt : i.toNat < o.committedOrders.length :=
      List.mem_range.mp (hall.mem_iff.mp (List.mem_map_of_mem hi))
    obtain ⟨order, horder⟩ :=
      Option.isSome_iff_exists.mp (hdec _ (List.getElem_mem hlt))
    have hbytes : (o.revealAt o.batchId o.poolId i).orderBytes
        = o.committedOrders[i.toNat].orderBytes := by
      simp [Orchestrator.revealAt, List.getElem?_eq_getElem hlt]
    rw [revealsOf_revealMessage hbatch (hbytes ▸ horder)]
    simp [message, Orchestrator.revealAt, List.getElem?_eq_getElem hlt]
  have hdecoded : decoded (revealsOf b
        (((n.revealHandler response (fun _ => true)).2.map Prod.snd : List GossipMessage) :
          Multiset GossipMessage))
      = ((((Orchestrator.revealIndices o.publishedCommits.length response).map
          UInt32.toNat).filterMap message : List RevealedOrder) : Multiset RevealedOrder) := by
    rw [hmsgs, revealsOf, decoded, Multiset.filterMap_coe, Multiset.filterMap_coe,
      List.filterMap_filterMap, List.filterMap_map, List.filterMap_map]
    congr 1
    exact List.filterMap_congr hmessage
  rw [hdecoded, Multiset.coe_eq_coe, Orchestrator.ownRevealed,
    ← filterMap_range_getElem? o.committedOrders]
  exact hall.filterMap message

/-- **Live match agreement.**  Two nodes in one pool, after any run in which every reveal
of the batch is accepted where it is sent, compute the same list of matches if each
node's committed orders are what it revealed for the batch, and published reveals are
determined by their order hash. -/
theorem live_match_agreement {b : UInt64} {N N' : Network} {is : List Input}
    (h : MatchReady b N is N') (hown : ∀ p, RevealedOwn b N' p)
    (hhash : HashesDetermine b N') :
    (N'.node .a).matchHandler.orchestrator.currentMatches
      = (N'.node .b).matchHandler.orchestrator.currentMatches := by
  have ha := allRevealed_eq h (hown .a)
  have hb := allRevealed_eq h (hown .b)
  have hperm : (N'.node .a).orchestrator.allRevealed.Perm
      (N'.node .b).orchestrator.allRevealed := by
    rw [← Multiset.coe_eq_coe, ha, hb]
    exact add_left_comm _ _ _
  have hmem : ∀ r ∈ (N'.node .a).orchestrator.allRevealed,
      r ∈ decoded (revealsOf b (N'.published .a + N'.published .b + N'.thirdParty)) := by
    intro r hr
    rw [revealsOf_add, revealsOf_add, decoded_add, decoded_add, add_assoc]
    exact ha ▸ Multiset.mem_coe.mpr hr
  simp only [LiveNode.matchHandler, Orchestrator.currentMatches_onMatchPhase,
    Orchestrator.matchingInput]
  rw [h.batch, h.batch, h.pool, h.markets]
  exact runMatching_perm b _ hperm (fun r hr r' hr' => hhash r (hmem r hr) r' (hmem r' hr'))
    (fun _ => rfl)

end

/-! ## Two runs -/

/-- The buyer NFT 2 is node `a`, the seller NFT 1 is node `b`. -/
def sample : Network where
  node
    | .a => sampleNode 2
    | .b => sampleNode 1
  inFlight _ := 0
  published _ := 0
  thirdParty := 0

theorem initial_sample : sample.Initial where
  fresh p := by cases p <;> exact ⟨rfl, fun _ => rfl⟩
  inFlight _ := rfl
  published _ := rfl
  thirdParty := rfl

/-- Both nodes commit one order; the buyer reveals what `response` says, the seller
reveals its sell, and the reveals arrive. -/
def sampleRun [Externals] (response : Option (List UInt32)) (arrivals : List Input) :
    List Input :=
  [.handle .a (.commit true (some [committedBuy]) (fun _ => true)),
    .handle .b (.commit true (some [committedSell]) (fun _ => true)),
    .handle .a (.reveal response (fun _ => true)),
    .handle .b (.reveal none (fun _ => true)),
    .deliver .a (.reveal 7 0 sampleSell sellSignature)] ++ arrivals

/-- The buyer reveals everything and its reveal arrives. -/
def completeRun [Externals] : List Input :=
  sampleRun none [.deliver .b (.reveal 7 0 sampleBuy buySignature)]

/-- The buyer chooses to reveal nothing. -/
def selectiveRun [Externals] : List Input := sampleRun (some []) []

/-- The network after a run of the sample. -/
def sampleAfter [Externals] (is : List Input) : Network := (system.run sample is).getD sample

section

attribute [local instance] sampleExternals

/-- After `completeRun` both nodes compute the same one match. -/
theorem complete_reveal_agrees :
    MatchReady 7 sample completeRun (sampleAfter completeRun) ∧
      ((sampleAfter completeRun).node .a).matchHandler.orchestrator.currentMatches.length = 1 ∧
      ((sampleAfter completeRun).node .a).matchHandler.orchestrator.currentMatches
        = ((sampleAfter completeRun).node .b).matchHandler.orchestrator.currentMatches := by
  have hchecked : system.Follows (AcceptsReveals 7) sample completeRun ∧
      (system.run sample completeRun).isSome ∧
      (revealsOf 7 ((sampleAfter completeRun).inFlight .a) = 0 ∧
        revealsOf 7 ((sampleAfter completeRun).inFlight .b) = 0) ∧
      (((sampleAfter completeRun).node .a).orchestrator.batchId = 7 ∧
        ((sampleAfter completeRun).node .b).orchestrator.batchId = 7) ∧
      ((sampleAfter completeRun).node .a).orchestrator.poolId
        = ((sampleAfter completeRun).node .b).orchestrator.poolId ∧
      ((sampleAfter completeRun).node .a).orchestrator.marketConfigs
        = ((sampleAfter completeRun).node .b).orchestrator.marketConfigs ∧
      ((sampleAfter completeRun).node .a).matchHandler.orchestrator.currentMatches.length = 1 := by
    decide +kernel
  obtain ⟨haccepted, hruns, ⟨hflightA, hflightB⟩, ⟨hbatchA, hbatchB⟩, hpool, hmarkets, hlength⟩ :=
    hchecked
  have hready : MatchReady 7 sample completeRun (sampleAfter completeRun) := {
    initial := initial_sample
    accepted := haccepted
    run := system.run_eq_some_getD hruns
    delivered
      | .a => hflightA
      | .b => hflightB
    batch
      | .a => hbatchA
      | .b => hbatchB
    pool := hpool
    markets := hmarkets }
  refine ⟨hready, hlength, ?_⟩
  refine live_match_agreement hready ?_ (by unfold HashesDetermine; decide +kernel)
  rintro (_ | _) <;> (unfold RevealedOwn; decide +kernel)

/-- **A selective reveal splits the nodes.**  After `selectiveRun` the buyer matches its
unrevealed buy with the seller's reveal, and the seller finds no match. -/
theorem selective_reveal_disagrees :
    ¬ (MatchReady 7 sample selectiveRun (sampleAfter selectiveRun) →
      ((sampleAfter selectiveRun).node .a).matchHandler.orchestrator.currentMatches
        = ((sampleAfter selectiveRun).node .b).matchHandler.orchestrator.currentMatches) := by
  have hchecked : system.Follows (AcceptsReveals 7) sample selectiveRun ∧
      (system.run sample selectiveRun).isSome ∧
      (revealsOf 7 ((sampleAfter selectiveRun).inFlight .a) = 0 ∧
        revealsOf 7 ((sampleAfter selectiveRun).inFlight .b) = 0) ∧
      (((sampleAfter selectiveRun).node .a).orchestrator.batchId = 7 ∧
        ((sampleAfter selectiveRun).node .b).orchestrator.batchId = 7) ∧
      ((sampleAfter selectiveRun).node .a).orchestrator.poolId
        = ((sampleAfter selectiveRun).node .b).orchestrator.poolId ∧
      ((sampleAfter selectiveRun).node .a).orchestrator.marketConfigs
        = ((sampleAfter selectiveRun).node .b).orchestrator.marketConfigs ∧
      ((sampleAfter selectiveRun).node .a).matchHandler.orchestrator.currentMatches
        ≠ ((sampleAfter selectiveRun).node .b).matchHandler.orchestrator.currentMatches := by
    decide +kernel
  obtain ⟨haccepted, hruns, ⟨hflightA, hflightB⟩, ⟨hbatchA, hbatchB⟩, hpool, hmarkets, hdiffer⟩ :=
    hchecked
  have hready : MatchReady 7 sample selectiveRun (sampleAfter selectiveRun) := {
    initial := initial_sample
    accepted := haccepted
    run := system.run_eq_some_getD hruns
    delivered
      | .a => hflightA
      | .b => hflightB
    batch
      | .a => hbatchA
      | .b => hbatchB
    pool := hpool
    markets := hmarkets }
  exact fun h => hdiffer (h hready)

end

end Network
