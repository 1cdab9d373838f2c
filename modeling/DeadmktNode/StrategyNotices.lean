/-
# What the strategy is told of trades

MATCH tells the strategy of the matches of its pool, and the orchestrator of the settlements
that the chain reports.  Neither asks whether the node has a part in them: a trade of two other
nodes is told as a sale of the own node.  The notices are those of the own trades exactly if
there are no others (`notices_own_iff`).
-/
import DeadmktNode.Heartbeat

/-! ## The notices -/

/-- A match as the strategy is told of it. -/
structure MatchSummary where
  pair : String
  side : String
  price : String
  quantity : String
  counterpartyNftId : UInt64
deriving DecidableEq

structure MatchResultData where
  batchId : UInt64
  matches_ : List MatchSummary
deriving DecidableEq

/-- The summary of a match for a node.  A node that is not the buyer is told that it sold. -/
def matchSummary (nftId : UInt64) (m : Match) : MatchSummary where
  pair := fromUtf8Lossy m.symbol
  side := if m.buyer.order.nftId = nftId then "buy" else "sell"
  price := toString m.settlementPrice.toNat
  quantity := toString m.fillQuantity.toNat
  counterpartyNftId :=
    if m.buyer.order.nftId = nftId then m.seller.order.nftId else m.buyer.order.nftId

/-- The notice of MATCH, which a connected strategy is sent. -/
def matchResult (nftId newBatchId : UInt64) (currentMatches : List Match) : MatchResultData where
  batchId := newBatchId
  matches_ := currentMatches.map (matchSummary nftId)

/-- The settlements that the strategy is told of. -/
def settlementNotices (sentEvents : List StrategyEvent) : List SettlementData :=
  sentEvents.filterMap fun
    | .settlement data => some data
    | _ => none

/-! ## Own trades -/

/-- The NFT is buyer or seller of the match. -/
def Match.concerns (nftId : UInt64) (m : Match) : Prop :=
  m.buyer.order.nftId = nftId ∨ m.seller.order.nftId = nftId

instance (nftId : UInt64) (m : Match) : Decidable (m.concerns nftId) :=
  inferInstanceAs (Decidable (_ ∨ _))

/-- The event does not settle a trade of two other nodes. -/
def ChainEvent.concerns (nftId : UInt64) : ChainEvent → Bool
  | .batchTradeSettled evt => evt.involves nftId
  | _ => true

/-- What a node should be told of a match: its side and the other party, if it has a part. -/
def ownSummary (nftId : UInt64) (m : Match) : Option MatchSummary :=
  if m.buyer.order.nftId = nftId then
    some ⟨fromUtf8Lossy m.symbol, "buy", toString m.settlementPrice.toNat,
      toString m.fillQuantity.toNat, m.seller.order.nftId⟩
  else if m.seller.order.nftId = nftId then
    some ⟨fromUtf8Lossy m.symbol, "sell", toString m.settlementPrice.toNat,
      toString m.fillQuantity.toNat, m.buyer.order.nftId⟩
  else none

/-- What a node should be told of a settlement. -/
def ownSettlement (nftId : UInt64) (evt : BatchTradeSettledEvent) : Option SettlementData :=
  if evt.buyerNftId = nftId then
    some ⟨evt.batchId, evt.tradeId, "confirmed", fromUtf8Lossy evt.symbol, "buy",
      toString evt.clearingPrice.toNat, toString evt.baseAmount.toNat⟩
  else if evt.sellerNftId = nftId then
    some ⟨evt.batchId, evt.tradeId, "confirmed", fromUtf8Lossy evt.symbol, "sell",
      toString evt.clearingPrice.toNat, toString evt.baseAmount.toNat⟩
  else none

/-- The summary of an own match is right. -/
theorem ownSummary_of_concerns {nftId : UInt64} {m : Match} (h : m.concerns nftId) :
    ownSummary nftId m = some (matchSummary nftId m) := by
  unfold ownSummary matchSummary
  by_cases hbuyer : m.buyer.order.nftId = nftId
  · simp only [if_pos hbuyer]
  · have hseller : m.seller.order.nftId = nftId := h.resolve_left hbuyer
    simp only [if_neg hbuyer, if_pos hseller]

theorem ownSummary_of_not_concerns {nftId : UInt64} {m : Match} (h : ¬ m.concerns nftId) :
    ownSummary nftId m = none := by
  obtain ⟨hbuyer, hseller⟩ := not_or.mp h
  unfold ownSummary
  rw [if_neg hbuyer, if_neg hseller]

/-! ## Filters that drop nothing -/

section

variable {α β : Type*} (p : α → Prop) [DecidablePred p] (f : α → β) (l : List α)

/-- Dropping what fails `p` keeps the list of values if nothing fails it. -/
theorem map_filter_eq_map_iff : (l.filter p).map f = l.map f ↔ ∀ a ∈ l, p a := by
  constructor
  · intro h
    have hlength := congrArg List.length h
    rw [List.length_map, List.length_map, List.length_filter_eq_length_iff] at hlength
    exact fun a ha => of_decide_eq_true (hlength a ha)
  · intro h
    rw [List.filter_eq_self.mpr fun a ha => decide_eq_true (h a ha)]

/-- A partial function that is `f` where `p` holds and undefined elsewhere. -/
theorem filterMap_eq_map_filter {g : α → Option β} (hpos : ∀ a, p a → g a = some (f a))
    (hneg : ∀ a, ¬ p a → g a = none) : l.filterMap g = (l.filter p).map f := by
  induction l with
  | nil => rfl
  | cons a l ih =>
      by_cases h : p a
      · rw [List.filterMap_cons_some (hpos a h), ih,
          List.filter_cons_of_pos (by simpa using h), List.map_cons]
      · rw [List.filterMap_cons_none (hneg a h), ih,
          List.filter_cons_of_neg (by simpa using h)]

end

namespace Orchestrator

variable {G B : Type} [BatchStatePort B] (o : Orchestrator G B)

omit [BatchStatePort B] in
/-- The notice of an own settlement is right. -/
theorem ownSettlement_of_involves {evt : BatchTradeSettledEvent}
    (h : evt.involves o.nodeNftId) :
    ownSettlement o.nodeNftId evt = some (o.settlementNotice evt) := by
  unfold ownSettlement settlementNotice
  by_cases hbuyer : evt.buyerNftId = o.nodeNftId
  · simp only [if_pos hbuyer]
  · have hseller : evt.sellerNftId = o.nodeNftId := h.resolve_left hbuyer
    simp only [if_neg hbuyer, if_pos hseller]

omit [BatchStatePort B] in
theorem ownSettlement_of_not_involves {evt : BatchTradeSettledEvent}
    (h : ¬ evt.involves o.nodeNftId) : ownSettlement o.nodeNftId evt = none := by
  obtain ⟨hbuyer, hseller⟩ := not_or.mp h
  unfold ownSettlement
  rw [if_neg hbuyer, if_neg hseller]

/-! ## What the chain's settlements queue -/

/-- **Step.**  A chain event keeps the NFT, and queues a notice for every settlement. -/
theorem notices_onChainEvent (event : ChainEvent) :
    (o.onChainEvent event).nodeNftId = o.nodeNftId ∧
      settlementNotices (o.onChainEvent event).sentEvents
        = settlementNotices o.sentEvents
          ++ (RunLoop.settledEvents [event]).map o.settlementNotice := by
  have hpush : ∀ (o' : Orchestrator G B) (notice : StrategyEvent),
      settlementNotices (o'.pushEvent notice).sentEvents
        = settlementNotices o'.sentEvents ++ settlementNotices [notice] := by
    intro o' notice
    exact List.filterMap_append
  cases event with
  | withdrawalRequested nftId token amount =>
      dsimp only [onChainEvent]
      split_ifs
      · exact ⟨rfl, hpush o _⟩
      · exact ⟨rfl, (List.append_nil _).symm⟩
  | poolAdjustmentQueued effectiveAtBatch newNumPools => exact ⟨rfl, (List.append_nil _).symm⟩
  | poolAdjustmentCancelled => exact ⟨rfl, (List.append_nil _).symm⟩
  | other => exact ⟨rfl, (List.append_nil _).symm⟩
  | _ => exact ⟨rfl, hpush _ _⟩

/-- **Run.**  A sequence of chain events queues one notice for every settlement in it. -/
theorem settlementNotices_foldl (events : List ChainEvent) :
    settlementNotices (events.foldl onChainEvent o).sentEvents
      = settlementNotices o.sentEvents
        ++ (RunLoop.settledEvents events).map o.settlementNotice := by
  induction events generalizing o with
  | nil => exact (List.append_nil _).symm
  | cons event events ih =>
      obtain ⟨hnft, hnotices⟩ := o.notices_onChainEvent event
      have hsame : (o.onChainEvent event).settlementNotice = o.settlementNotice := by
        funext evt
        unfold settlementNotice
        rw [hnft]
      have hevents : RunLoop.settledEvents (event :: events)
          = RunLoop.settledEvents [event] ++ RunLoop.settledEvents events := by
        rw [← List.singleton_append]
        exact List.filterMap_append
      rw [List.foldl_cons, ih, hnotices, hsame, hevents, List.map_append, List.append_assoc]

/-- Leaving out the events of foreign trades leaves the own settlements. -/
theorem settledEvents_filter (nftId : UInt64) (events : List ChainEvent) :
    RunLoop.settledEvents (events.filter (·.concerns nftId))
      = (RunLoop.settledEvents events).filter (·.involves nftId) := by
  unfold RunLoop.settledEvents
  rw [List.filterMap_filter, List.filter_filterMap]
  refine List.filterMap_congr fun event _ => ?_
  cases event with
  | batchTradeSettled evt =>
      by_cases h : evt.involves nftId
      · simp [ChainEvent.concerns, Option.filter_some, h]
      · simp [ChainEvent.concerns, Option.filter_some, h]
  | _ => rfl

/-! ## Own trades only -/

/-- The strategy is told of the own matches and of the own settlements, with the own side of
each, if and only if no other match is found and no other settlement reported; and leaving out
the trades of others changes nothing that it is told if and only if there are none. -/
theorem notices_own_iff (newBatchId : UInt64) (currentMatches : List Match)
    (events : List ChainEvent) :
    let foreignFree := (∀ m ∈ currentMatches, m.concerns o.nodeNftId) ∧
      ∀ evt ∈ RunLoop.settledEvents events, evt.involves o.nodeNftId
    ((matchResult o.nodeNftId newBatchId currentMatches).matches_
          = currentMatches.filterMap (ownSummary o.nodeNftId) ∧
        settlementNotices (events.foldl onChainEvent o).sentEvents
          = settlementNotices o.sentEvents
            ++ (RunLoop.settledEvents events).filterMap (ownSettlement o.nodeNftId) ↔
      foreignFree) ∧
    ((matchResult o.nodeNftId newBatchId (currentMatches.filter (·.concerns o.nodeNftId))).matches_
          = (matchResult o.nodeNftId newBatchId currentMatches).matches_ ∧
        settlementNotices
            ((events.filter (·.concerns o.nodeNftId)).foldl onChainEvent o).sentEvents
          = settlementNotices (events.foldl onChainEvent o).sentEvents ↔
      foreignFree) := by
  intro foreignFree
  have hmatches : currentMatches.filterMap (ownSummary o.nodeNftId)
      = (currentMatches.filter (·.concerns o.nodeNftId)).map (matchSummary o.nodeNftId) :=
    filterMap_eq_map_filter _ _ _ (fun _ => ownSummary_of_concerns)
      (fun _ => ownSummary_of_not_concerns)
  have hsettled : (RunLoop.settledEvents events).filterMap (ownSettlement o.nodeNftId)
      = ((RunLoop.settledEvents events).filter (·.involves o.nodeNftId)).map
          o.settlementNotice :=
    filterMap_eq_map_filter _ _ _ (fun _ => o.ownSettlement_of_involves)
      (fun _ => o.ownSettlement_of_not_involves)
  -- both parts compare the notices of all trades with those of the own ones
  have hiff : (currentMatches.filter (·.concerns o.nodeNftId)).map (matchSummary o.nodeNftId)
          = currentMatches.map (matchSummary o.nodeNftId) ∧
        settlementNotices o.sentEvents
            ++ ((RunLoop.settledEvents events).filter (·.involves o.nodeNftId)).map
              o.settlementNotice
          = settlementNotices o.sentEvents
            ++ (RunLoop.settledEvents events).map o.settlementNotice ↔ foreignFree := by
    rw [List.append_cancel_left_eq]
    exact and_congr (map_filter_eq_map_iff _ _ _) (map_filter_eq_map_iff _ _ _)
  rw [settlementNotices_foldl, settlementNotices_foldl, settledEvents_filter, hmatches, hsettled]
  refine ⟨?_, hiff⟩
  rw [← hiff]
  exact and_congr eq_comm eq_comm

section

attribute [local instance] sampleExternals

/-- What MATCH finds for the two sample orders. -/
def sampleMatches : List Match :=
  runMatching ⟨7, 0, [⟨sampleSell, sellSignature, orderHash sampleSell⟩,
    ⟨sampleBuy, buySignature, orderHash sampleBuy⟩], [⟨emmKay, 1⟩]⟩

/-- The node of NFT 3 is told of the match of NFT 1 with NFT 2, and of its settlement, as its
own sales. -/
theorem told_of_trade_of_others :
    (¬ ∀ (o : LiveOrchestrator) (newBatchId : UInt64) (currentMatches : List Match),
      (matchResult o.nodeNftId newBatchId currentMatches).matches_
        = currentMatches.filterMap (ownSummary o.nodeNftId)) ∧
    ¬ ∀ (o : LiveOrchestrator) (events : List ChainEvent),
      settlementNotices (events.foldl onChainEvent o).sentEvents
        = settlementNotices o.sentEvents
          ++ (RunLoop.settledEvents events).filterMap (ownSettlement o.nodeNftId) := by
  constructor
  · intro h
    have hlength := congrArg List.length (h (sampleNode 3).orchestrator 7 sampleMatches)
    exact absurd hlength (by decide +kernel)
  · intro h
    have hlength := congrArg List.length
      (h (sampleNode 3).orchestrator [.batchTradeSettled SettlementManager.sampleSettled])
    exact absurd hlength (by decide +kernel)

end

end Orchestrator
