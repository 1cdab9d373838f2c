/-
# The settlement manager

Matches in flight: registered matches with their reservation in the escrow tracker, the
abort codes of the settlement contract and what they do to a registered match, settlement
events, skipped matches and expiry.
-/
import DeadmktNode.EscrowTracker
import DeadmktNode.Orchestrator

/-! ## Abort codes and actions -/

/-- The abort codes of `settle_match`. -/
inductive AbortCode where
  | alreadySettled
  | insufficientBalance
  | buyerInactive
  | sellerInactive
  | buyerOverfill
  | sellerOverfill
  | nftBlocked
  | nftBurned
  | batchTooOld
  | quantityTooSmall
  | selfTrade
  | invalidSide
  | signatureVerifyFailed
  | marketNotActive
  | quoteAmountZero
  | other (code : UInt64)
deriving DecidableEq, Repr

/-- The name of an abort code in the contract. -/
def AbortCode.name : AbortCode → String
  | .alreadySettled => "E_ALREADY_SETTLED"
  | .insufficientBalance => "E_INSUFFICIENT_BALANCE"
  | .buyerInactive => "E_BUYER_INACTIVE"
  | .sellerInactive => "E_SELLER_INACTIVE"
  | .buyerOverfill => "E_BUYER_OVERFILL"
  | .sellerOverfill => "E_SELLER_OVERFILL"
  | .nftBlocked => "E_NFT_BLOCKED"
  | .nftBurned => "E_NFT_BURNED"
  | .batchTooOld => "E_BATCH_TOO_OLD"
  | .quantityTooSmall => "E_QUANTITY_TOO_SMALL"
  | .selfTrade => "E_SELF_TRADE"
  | .invalidSide => "E_INVALID_SIDE"
  | .signatureVerifyFailed => "E_SIGNATURE_VERIFY_FAILED"
  | .marketNotActive => "E_MARKET_NOT_ACTIVE"
  | .quoteAmountZero => "E_QUOTE_AMOUNT_ZERO"
  | .other code => "E_UNKNOWN(" ++ toString code.toNat ++ ")"

/-- What follows from a settlement abort. -/
inductive SettlementAction where
  | keepPending
  | releasePending
  | enterLimited
deriving DecidableEq, Repr

/-- The error of a registration, or of an address. -/
inductive SettlementError where
  | bcsError (message : String)
  | invalidAddress (message : String)
deriving DecidableEq, Repr

/-- Why a registered match was not submitted. -/
inductive SkipReason where
  | inactive (nftId : UInt64)
deriving DecidableEq, Repr

/-- What the background worker reports of a submission. -/
inductive SettleResult where
  | submitted (matchHash txHash : String)
  | alreadySettled (matchHash : String)
  | failed (matchHash : String) (code : AbortCode)
  | rpcError (matchHash error : String)
deriving DecidableEq, Repr

/-- The match that a report is about. -/
def SettleResult.matchHash : SettleResult → String
  | .submitted matchHash _ => matchHash
  | .alreadySettled matchHash => matchHash
  | .failed matchHash _ => matchHash
  | .rpcError matchHash _ => matchHash

/-- The reason of a failure that the strategy is told; it is empty for the other reports. -/
def SettleResult.errorReason : SettleResult → String
  | .failed _ code => code.name
  | .rpcError _ error => error
  | .submitted .. | .alreadySettled _ => ""

/-! ## State -/

/-- A match that is registered and not confirmed on chain yet. -/
structure PendingSettlement where
  m : Match
  isGasPayer : Bool
  submittedAt : Option UInt64
  txHash : Option String
  backstopEligibleAt : UInt64
  createdAtBatch : UInt64
deriving DecidableEq

/-- The matches in flight, by the hexadecimal match hash, and the escrow tracker. -/
structure SettlementManager where
  tracker : EscrowTracker
  pending : HashMap String PendingSettlement
  ownNftId : UInt64
  alreadySettledCount : UInt32
  totalSettlementCount : UInt32
  skippedInactiveTotal : UInt64
  skippedLast : HashMap String SkipReason
deriving DecidableEq

/-- The arguments of a registration. -/
structure MatchTerms where
  m : Match
  isGasPayer : Bool
  swapStartBlock : UInt64
  blocksPerBatch : UInt64
  baseToken : String
  quoteToken : String
  baseDecimals : UInt8
  quoteDecimals : UInt8
deriving DecidableEq

/-- The key of a match in the pending map. -/
def Match.hashHex [HexCrate] (m : Match) : String := HexCrate.encode m.matchHash.toList

theorem Match.hashHex_eq_iff [HexCrate] {m m' : Match} :
    m.hashHex = m'.hashHex ↔ m.matchHash = m'.matchHash := by
  rw [hashHex, hashHex, HexCrate.encode_injective.eq_iff, Vector.toList_inj]

namespace SettlementManager

def new (tracker : EscrowTracker) (ownNftId : UInt64) : SettlementManager where
  tracker := tracker
  pending := ∅
  ownNftId := ownNftId
  alreadySettledCount := 0
  totalSettlementCount := 0
  skippedInactiveTotal := 0
  skippedLast := ∅

/-! ## Registration -/

/-- Our side of a match.  A node that is not the buyer takes itself for the seller. -/
def sideOf (mgr : SettlementManager) (m : Match) : Side :=
  if m.buyer.order.nftId = mgr.ownNftId then .buy else .sell

/-- The entry of a new match. -/
def entryOf (args : MatchTerms) : PendingSettlement where
  m := args.m
  isGasPayer := args.isGasPayer
  submittedAt := none
  txHash := none
  backstopEligibleAt := args.swapStartBlock + args.blocksPerBatch
  createdAtBatch := args.m.batchId

/-- The rest of a registration, after the tracker's answer: an error is passed on, a match
with a reservation is kept as pending. -/
def registered [HexCrate] (mgr : SettlementManager) (args : MatchTerms) :
    Except EscrowError Unit × EscrowTracker → Except SettlementError Unit × SettlementManager
  | (.error e, tracker) =>
      (.error (.bcsError ("escrow error: " ++ e.message)), { mgr with tracker := tracker })
  | (.ok (), tracker) =>
      (.ok (), { mgr with
        tracker := tracker
        pending := mgr.pending.insert args.m.hashHex (entryOf args) })

/-- Register a match: reserve its outflow and keep it as pending.  `none` is the panic of
the escrow tracker. -/
def registerMatch [HexCrate] (mgr : SettlementManager) (args : MatchTerms) :
    Option (Except SettlementError Unit × SettlementManager) :=
  (mgr.tracker.applyMatch args.m.hashHex (mgr.sideOf args.m) args.baseToken args.quoteToken
      args.m.fillQuantity args.m.buyer.order.price args.m.settlementPrice
      args.baseDecimals args.quoteDecimals).map (mgr.registered args)

/-- What a registration moves for our side. -/
def flowOf (mgr : SettlementManager) (args : MatchTerms) : EscrowFlow :=
  EscrowTracker.matchFlow (mgr.sideOf args.m) args.baseToken args.quoteToken
    args.m.fillQuantity args.m.buyer.order.price args.m.settlementPrice
    (EscrowTracker.priceDivisor args.baseDecimals args.quoteDecimals)

/-- A registration panics on a zero divisor; else it moves the flow of the match. -/
theorem registerMatch_eq [HexCrate] (mgr : SettlementManager) (args : MatchTerms) :
    mgr.registerMatch args
      = if EscrowTracker.priceDivisor args.baseDecimals args.quoteDecimals = 0 then none
        else some (mgr.registered args
          (mgr.tracker.applyFlow args.m.hashHex (mgr.flowOf args))) := by
  unfold registerMatch EscrowTracker.applyMatch flowOf
  dsimp only
  split_ifs <;> rfl

/-! ## Release and expiry -/

/-- Drop a pending match and give its reservation back. -/
def releasePendingInternal (mgr : SettlementManager) (matchHash : String) :
    SettlementManager :=
  match mgr.pending.lookup matchHash with
  | none => mgr
  | some _ => { mgr with
      tracker := (mgr.tracker.releasePending matchHash).2
      pending := mgr.pending.erase matchHash }

/-- Record a match that was intentionally not submitted. -/
def registerSkipped (mgr : SettlementManager) (matchHash : String) (reason : SkipReason) :
    SettlementManager :=
  let mgr := mgr.releasePendingInternal matchHash
  { mgr with
    skippedInactiveTotal := mgr.skippedInactiveTotal + 1
    skippedLast := mgr.skippedLast.insert matchHash reason }

/-- The pending matches that are too old. -/
def expiredKeys (mgr : SettlementManager) (currentBatchId settlementMaxAge : UInt64) :
    List String :=
  (mgr.pending.entries.filter fun e =>
    currentBatchId > e.2.createdAtBatch + settlementMaxAge).map Sigma.fst

/-- Release the pending matches that are too old. -/
def expireStale (mgr : SettlementManager) (currentBatchId settlementMaxAge : UInt64) :
    SettlementManager :=
  (mgr.expiredKeys currentBatchId settlementMaxAge).foldl releasePendingInternal mgr

/-! ## Settlement events -/

/-- Does the event describe this pending match? -/
def fieldsMatch (ps : PendingSettlement) (event : BatchTradeSettledEvent) : Bool :=
  ps.m.batchId == event.batchId
    && ps.m.buyer.order.nftId == event.buyerNftId
    && ps.m.seller.order.nftId == event.sellerNftId
    && ps.m.fillQuantity == event.baseAmount

/-- The pending match of an event: the one under its trade id, else the first one in the
iteration order of the map whose fields agree.  `order` lists the keys in that order. -/
def findPendingForEvent (mgr : SettlementManager) (order : List String)
    (event : BatchTradeSettledEvent) : Option String :=
  if (mgr.pending.lookup event.tradeId).isSome then some event.tradeId
  else order.find? fun key =>
    (mgr.pending.lookup key).any fun ps => fieldsMatch ps event

/-- A settlement event of the chain. -/
def onSettlementConfirmed (mgr : SettlementManager) (order : List String)
    (event : BatchTradeSettledEvent) : Bool × SettlementManager :=
  match mgr.findPendingForEvent order event with
  | none => (false, mgr)
  | some key => (true, { mgr with
      tracker := (mgr.tracker.confirmSettlement key).2
      pending := mgr.pending.erase key })

/-! ## Settlement results -/

/-- Count a settlement attempt for the isolation check. -/
def countAttempt (mgr : SettlementManager) (code : AbortCode) : SettlementManager :=
  { mgr with
    totalSettlementCount := mgr.totalSettlementCount + 1
    alreadySettledCount :=
      if code = .alreadySettled then mgr.alreadySettledCount + 1
      else mgr.alreadySettledCount }

/-- Is a party of the pending match, chosen by `parties`, our own NFT? -/
def isOwn (mgr : SettlementManager) (matchHash : String) (parties : Match → List UInt64) :
    Bool :=
  (mgr.pending.lookup matchHash).any fun ps => (parties ps.m).contains mgr.ownNftId

/-- Release a match; the node enters the limited mode if the abort is about itself. -/
def releaseWith (mgr : SettlementManager) (matchHash : String)
    (parties : Match → List UInt64) : SettlementAction × SettlementManager :=
  (if mgr.isOwn matchHash parties then .enterLimited else .releasePending,
    mgr.releasePendingInternal matchHash)

/-- A settlement was aborted. -/
def onSettlementFailed (mgr : SettlementManager) (matchHash : String) (code : AbortCode) :
    SettlementAction × SettlementManager :=
  let mgr := mgr.countAttempt code
  match code with
  | .alreadySettled => (.keepPending, mgr)
  | .insufficientBalance => (.keepPending, mgr)
  | .buyerInactive => mgr.releaseWith matchHash fun m => [m.buyer.order.nftId]
  | .sellerInactive => mgr.releaseWith matchHash fun m => [m.seller.order.nftId]
  | .nftBlocked | .nftBurned =>
      mgr.releaseWith matchHash fun m => [m.buyer.order.nftId, m.seller.order.nftId]
  | .buyerOverfill | .sellerOverfill => mgr.releaseWith matchHash fun _ => []
  | _ => mgr.releaseWith matchHash fun _ => []

/-- A settlement was submitted and waits for its event. -/
def markSubmitted (mgr : SettlementManager) (matchHash txHash : String)
    (blockHeight : UInt64) : SettlementManager :=
  { mgr with pending := mgr.pending.modify matchHash fun ps =>
      { ps with txHash := some txHash, submittedAt := some blockHeight } }

/-- A report of the background worker. -/
def processResult (mgr : SettlementManager) :
    SettleResult → Option SettlementAction × SettlementManager
  | .submitted matchHash txHash => (none, mgr.markSubmitted matchHash txHash 0)
  | .alreadySettled matchHash =>
      let (action, mgr) := mgr.onSettlementFailed matchHash .alreadySettled
      (some action, mgr)
  | .failed matchHash code =>
      let (action, mgr) := mgr.onSettlementFailed matchHash code
      (some action, mgr)
  | .rpcError .. => (none, mgr)

/-! ## The node stays who it is -/

@[simp] theorem ownNftId_registered [HexCrate] (mgr : SettlementManager) (args : MatchTerms)
    (r : Except EscrowError Unit × EscrowTracker) :
    (mgr.registered args r).2.ownNftId = mgr.ownNftId := by
  obtain ⟨e | _, t⟩ := r <;> rfl

@[simp] theorem ownNftId_releasePendingInternal (mgr : SettlementManager)
    (matchHash : String) :
    (mgr.releasePendingInternal matchHash).ownNftId = mgr.ownNftId := by
  unfold releasePendingInternal
  cases mgr.pending.lookup matchHash <;> rfl

@[simp] theorem ownNftId_onSettlementFailed (mgr : SettlementManager) (matchHash : String)
    (code : AbortCode) : (mgr.onSettlementFailed matchHash code).2.ownNftId = mgr.ownNftId := by
  cases code <;>
    first
    | rfl
    | exact ownNftId_releasePendingInternal _ _

@[simp] theorem ownNftId_expireStale (mgr : SettlementManager)
    (currentBatchId settlementMaxAge : UInt64) :
    (mgr.expireStale currentBatchId settlementMaxAge).ownNftId = mgr.ownNftId := by
  unfold expireStale
  generalize mgr.expiredKeys currentBatchId settlementMaxAge = keys
  induction keys generalizing mgr with
  | nil => rfl
  | cons key keys ih => rw [List.foldl_cons, ih, ownNftId_releasePendingInternal]

@[simp] theorem ownNftId_processResult (mgr : SettlementManager) (r : SettleResult) :
    (mgr.processResult r).2.ownNftId = mgr.ownNftId := by
  cases r with
  | submitted | rpcError => rfl
  | alreadySettled matchHash => exact ownNftId_onSettlementFailed mgr matchHash .alreadySettled
  | failed matchHash code => exact ownNftId_onSettlementFailed mgr matchHash code

@[simp] theorem ownNftId_onSettlementConfirmed (mgr : SettlementManager) (order : List String)
    (event : BatchTradeSettledEvent) :
    (mgr.onSettlementConfirmed order event).2.ownNftId = mgr.ownNftId := by
  unfold onSettlementConfirmed
  cases mgr.findPendingForEvent order event <;> rfl

/-- What a match moves depends on our NFT, not on the state of the manager. -/
theorem flowOf_congr {mgr mgr' : SettlementManager} (h : mgr'.ownNftId = mgr.ownNftId)
    (args : MatchTerms) : mgr'.flowOf args = mgr.flowOf args := by
  unfold flowOf sideOf
  rw [h]

end SettlementManager
