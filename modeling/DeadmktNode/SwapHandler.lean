/-
# SWAP and the settlement bookkeeping of the run loop

The part of the run loop that touches the settlement manager: the SWAP handler, the
reports of the background worker, settlement events and the expiry at a batch boundary.
A run of these steps is a run of `SettlementManager.system`.
-/
import DeadmktNode.LiveNode
import DeadmktNode.MatchingConservation
import DeadmktNode.Settlement

/-- A request to the background worker. -/
structure SettleRequest where
  matchData : Match
  matchHash : String
  isGasPayer : Bool
deriving DecidableEq

/-- What SWAP reads besides the matches: the block, the batch length, the decimals of the
tokens and the cached activity of NFTs. -/
structure SwapContext where
  block : UInt64
  blocksPerBatch : UInt64
  tokenDecimals : HashMap String UInt8
  isActive : UInt64 → Option Bool

namespace SwapContext

variable (ctx : SwapContext)

/-- The decimals of a token; an unknown token has 5. -/
def decimals (token : String) : UInt8 := (ctx.tokenDecimals.lookup token).getD 5

/-- The registration of a match by the node `nftId`. -/
def terms (nftId : UInt64) (m : Match) : MatchTerms :=
  let (baseToken, quoteToken) := splitSymbol (fromUtf8Lossy m.symbol)
  { m := m
    isGasPayer := m.gasPayerNftId = nftId
    swapStartBlock := ctx.block
    blocksPerBatch := ctx.blocksPerBatch
    baseToken := baseToken
    quoteToken := quoteToken
    baseDecimals := ctx.decimals baseToken
    quoteDecimals := ctx.decimals quoteToken }

/-- The party of a match that is known to be inactive, the buyer first. -/
def deadNft (m : Match) : Option UInt64 :=
  if ctx.isActive m.buyer.order.nftId = some false then some m.buyer.order.nftId
  else if ctx.isActive m.seller.order.nftId = some false then some m.seller.order.nftId
  else none

end SwapContext

namespace SettlementManager

section

variable [HexCrate]

/-- The rest of SWAP for one match, after its registration: the gas payer skips a match
with an inactive party and hands the others to the background worker. -/
def submitMatch (ctx : SwapContext) (m : Match) :
    Except SettlementError Unit × SettlementManager → SettlementManager × Option SettleRequest
  | (.error _, mgr) => (mgr, none)
  | (.ok (), mgr) =>
      if m.gasPayerNftId = mgr.ownNftId then
        match ctx.deadNft m with
        | some dead => (mgr.registerSkipped m.hashHex (.inactive dead), none)
        | none => (mgr, some ⟨m, m.hashHex, true⟩)
      else (mgr, none)

/-- One match of SWAP.  `none` is the panic of the tracker. -/
def swapMatch (mgr : SettlementManager) (ctx : SwapContext) (m : Match) :
    Option (SettlementManager × Option SettleRequest) :=
  (mgr.registerMatch (ctx.terms mgr.ownNftId m)).map (submitMatch ctx m)

/-- The SWAP handler on the matches that it takes. -/
def swapMatches (mgr : SettlementManager) (ctx : SwapContext) :
    List Match → Option (SettlementManager × List SettleRequest)
  | [] => some (mgr, [])
  | m :: ms =>
      (mgr.swapMatch ctx m).bind fun (mgr, request) =>
        (mgr.swapMatches ctx ms).map fun (mgr, requests) =>
          (mgr, request.toList ++ requests)

/-- A report of the background worker at a block. -/
def drainResult (mgr : SettlementManager) (block : UInt64) : SettleResult → SettlementManager
  | .submitted matchHash txHash => mgr.markSubmitted matchHash txHash block
  | other => (mgr.processResult other).2

/-! ## The steps as a system -/

/-- What the run loop does to the settlement manager. -/
inductive Input where
  | swap (ctx : SwapContext) (m : Match)
  | report (block : UInt64) (result : SettleResult)
  | event (order : List String) (event : BatchTradeSettledEvent)
  | expire (newBatchId : UInt64)

def step (mgr : SettlementManager) : Input → Option SettlementManager
  | .swap ctx m => (mgr.swapMatch ctx m).map Prod.fst
  | .report block result => some (mgr.drainResult block result)
  | .event order event => some (mgr.onSettlementConfirmed order event).2
  | .expire newBatchId => some (mgr.expireStale newBatchId 100)

def system : System SettlementManager Input := ⟨step⟩

@[simp] theorem system_step : system.step = step := rfl

/-- SWAP is the run of its single matches. -/
theorem swapMatches_eq_run (mgr : SettlementManager) (ctx : SwapContext) (ms : List Match) :
    (mgr.swapMatches ctx ms).map Prod.fst = system.run mgr (ms.map (.swap ctx)) := by
  induction ms generalizing mgr with
  | nil => rfl
  | cons m ms ih =>
      rw [List.map_cons, System.run_cons, system_step, step, swapMatches]
      cases mgr.swapMatch ctx m with
      | none => rfl
      | some r =>
          rw [Option.bind_some, Option.map_map, Option.map_some, Option.bind_some, ← ih]
          rfl

/-! ## The node stays who it is -/

theorem ownNftId_submitMatch (ctx : SwapContext) (m : Match)
    (r : Except SettlementError Unit × SettlementManager) :
    (submitMatch ctx m r).1.ownNftId = r.2.ownNftId := by
  obtain ⟨e | _, mgr⟩ := r
  · rfl
  · simp only [submitMatch]
    split_ifs with hgas
    · cases ctx.deadNft m with
      | none => rfl
      | some dead => exact ownNftId_releasePendingInternal _ _
    · rfl

/-- No step changes the NFT that the manager works for. -/
theorem ownNftId_step {mgr mgr' : SettlementManager} {i : Input}
    (h : mgr.step i = some mgr') : mgr'.ownNftId = mgr.ownNftId := by
  cases i with
  | swap ctx m =>
      obtain ⟨r, hr, rfl⟩ := Option.map_eq_some_iff.mp h
      obtain ⟨p, hp, rfl⟩ := Option.map_eq_some_iff.mp hr
      rw [registerMatch_eq] at hp
      split_ifs at hp
      obtain rfl := Option.some.inj hp
      rw [ownNftId_submitMatch, ownNftId_registered]
  | report block result =>
      obtain rfl := Option.some.inj h
      cases result with
      | submitted | rpcError => rfl
      | alreadySettled matchHash => exact ownNftId_onSettlementFailed mgr matchHash .alreadySettled
      | failed matchHash code => exact ownNftId_onSettlementFailed mgr matchHash code
  | event order event =>
      obtain rfl := Option.some.inj h
      exact ownNftId_onSettlementConfirmed mgr order event
  | expire newBatchId =>
      obtain rfl := Option.some.inj h
      exact ownNftId_expireStale _ _ _

end

end SettlementManager

/-! ## A match

The concrete runs of settlement are about the match of the two sample orders. -/

section

attribute [local instance] sampleExternals

/-- The match of the sell of NFT 1 and the buy of NFT 2. -/
def sampleMatch : Match :=
  Book.makeMatch ⟨7, 0, emmKay, [], [], 1⟩ ⟨sampleBuy, buySignature, orderHash sampleBuy⟩
    ⟨sampleSell, sellSignature, orderHash sampleSell⟩ 5

theorem sampleMatch_mem : sampleMatch ∈ runMatching ⟨7, 0,
    [⟨sampleBuy, buySignature, orderHash sampleBuy⟩,
      ⟨sampleSell, sellSignature, orderHash sampleSell⟩], [⟨emmKay, 1⟩]⟩ := by
  decide +kernel

/-- SWAP at block 107, with decimals at which `EMM` costs its price in `KAY`. -/
def sampleSwap : SwapContext where
  block := 107
  blocksPerBatch := 10
  tokenDecimals := ((∅ : HashMap String UInt8).insert "EMM" 0).insert "KAY" 8
  isActive _ := none

end
