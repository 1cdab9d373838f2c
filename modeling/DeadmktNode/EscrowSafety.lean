/-
# The tracker against the chain

The escrow tracker and the on-chain escrow of the node's tokens, side by side.  The node
registers its own matches; the chain settles registered matches at a price up to the
buyer's; settlement events, aborts, skips and expiry follow in any order.

A reservation covers what the chain takes (`amount_covers`), so the projected balances stay
below the chain's as long as reservations stand for settled matches.  A settlement event
drops the reservation without debiting the confirmed balance: the invariant survives
exactly those events whose match cost nothing (`projected_le_chain`).
-/
import DeadmktNode.SwapHandler

/-- What a settled match moved on chain for our NFT. -/
structure ChainFlow where
  outToken : String
  outAmount : ℕ
  inToken : String
  inAmount : ℕ
deriving DecidableEq

namespace ChainFlow

/-- What it took of a token. -/
def takes (flow : ChainFlow) (token : String) : ℕ :=
  if token = flow.outToken then flow.outAmount else 0

/-- What it brought of a token. -/
def brings (flow : ChainFlow) (token : String) : ℕ :=
  if token = flow.inToken then flow.inAmount else 0

end ChainFlow

/-- `10 ^ k`: the scale between `quantity * price` and quote units. -/
def chainScale (args : MatchTerms) : ℕ :=
  10 ^ (args.baseDecimals.toNat + 8 - args.quoteDecimals.toNat)

/-- What the settlement of a match at a price moves for one side. -/
def chainFlow (side : Side) (args : MatchTerms) (price : UInt64) : ChainFlow :=
  let quote := args.m.fillQuantity.toNat * price.toNat / chainScale args
  match side with
  | .buy => ⟨args.quoteToken, quote, args.baseToken, args.m.fillQuantity.toNat⟩
  | .sell => ⟨args.baseToken, args.m.fillQuantity.toNat, args.quoteToken, quote⟩

/-- The manager, the on-chain escrow, and what the matches moved that settled on chain and
whose event did not arrive yet. -/
structure EscrowWorld where
  manager : SettlementManager
  chain : String → ℕ
  settled : HashMap String ChainFlow

namespace EscrowWorld

/-! ## Steps -/

inductive Input where
  | register (args : MatchTerms)
  | settle (matchHash : String) (price : UInt64)
  | confirmed (order : List String) (event : BatchTradeSettledEvent)
  | failed (matchHash : String) (code : AbortCode)
  | skipped (matchHash : String) (reason : SkipReason)
  | expire (currentBatchId settlementMaxAge : UInt64)

section

-- the trade that a match hash stands for
variable (trade : String → MatchTerms)

/-- What the chain moves when it settles a match at a price. -/
def settlementFlow (w : EscrowWorld) (matchHash : String) (price : UInt64) : ChainFlow :=
  chainFlow (w.manager.sideOf (trade matchHash).m) (trade matchHash) price

/-- May the chain settle a match?  It is registered and not settled yet, it is no self
trade, the price is at most the buyer's and the escrow covers it. -/
def CanSettle (w : EscrowWorld) (matchHash : String) (price : UInt64) : Prop :=
  (w.manager.pending.lookup matchHash).isSome ∧
    w.settled.lookup matchHash = none ∧
    (trade matchHash).m.buyer.order.nftId ≠ (trade matchHash).m.seller.order.nftId ∧
    price ≤ (trade matchHash).m.buyer.order.price ∧
    (w.settlementFlow trade matchHash price).outAmount
      ≤ w.chain (w.settlementFlow trade matchHash price).outToken

instance (w : EscrowWorld) (matchHash : String) (price : UInt64) :
    Decidable (w.CanSettle trade matchHash price) :=
  inferInstanceAs (Decidable (_ ∧ _))

/-- The chain settles a match, if it may. -/
def settle (w : EscrowWorld) (matchHash : String) (price : UInt64) : EscrowWorld :=
  let flow := w.settlementFlow trade matchHash price
  if w.CanSettle trade matchHash price then
    { w with
      chain := fun token => w.chain token - flow.takes token + flow.brings token
      settled := w.settled.insert matchHash flow }
  else w

/-- A settlement event reaches the node. -/
def confirm (w : EscrowWorld) (order : List String) (event : BatchTradeSettledEvent) :
    EscrowWorld :=
  { w with
    manager := (w.manager.onSettlementConfirmed order event).2
    settled :=
      match w.manager.findPendingForEvent order event with
      | none => w.settled
      | some key => w.settled.erase key }

def step [HexCrate] (w : EscrowWorld) : Input → Option EscrowWorld
  | .register args =>
      (w.manager.registerMatch args).map fun r => { w with manager := r.2 }
  | .settle matchHash price => some (w.settle trade matchHash price)
  | .confirmed order event => some (w.confirm order event)
  | .failed matchHash code =>
      some { w with manager := (w.manager.onSettlementFailed matchHash code).2 }
  | .skipped matchHash reason =>
      some { w with manager := w.manager.registerSkipped matchHash reason }
  | .expire currentBatchId settlementMaxAge =>
      some { w with manager := w.manager.expireStale currentBatchId settlementMaxAge }

def system [HexCrate] : System EscrowWorld Input := ⟨step trade⟩

/-! ## The runs -/

/-- The same match with the same tokens. -/
def SameTrade (args args' : MatchTerms) : Prop :=
  args.m = args'.m ∧ args.baseToken = args'.baseToken ∧ args.quoteToken = args'.quoteToken ∧
    args.baseDecimals = args'.baseDecimals ∧ args.quoteDecimals = args'.quoteDecimals

/-- Does the abort release the match? -/
def releases (code : AbortCode) : Bool :=
  code ≠ .alreadySettled && code ≠ .insufficientBalance

/-- The runs in question: the node registers its own matches, a match hash stands for one
trade, and no settled match is released. -/
def OwnMatches [HexCrate] (w : EscrowWorld) : Input → Prop
  | .register args => SameTrade args (trade args.m.hashHex) ∧
      (args.m.buyer.order.nftId = w.manager.ownNftId ∨
        args.m.seller.order.nftId = w.manager.ownNftId)
  | .settle .. => True
  | .confirmed .. => True
  | .failed matchHash code => releases code = true → w.settled.lookup matchHash = none
  | .skipped matchHash _ => w.settled.lookup matchHash = none
  | .expire currentBatchId settlementMaxAge =>
      ∀ key ∈ w.manager.expiredKeys currentBatchId settlementMaxAge,
        w.settled.lookup key = none

/-- The worst-case outflow of a buy fits into 64 bits, and a settlement event finds no
match, or one that settled at no cost. -/
def NoDebit (w : EscrowWorld) : Input → Prop
  | .register args => w.manager.sideOf args.m = .buy →
      args.m.fillQuantity.toNat * args.m.buyer.order.price.toNat / chainScale args < 2 ^ 64
  | .confirmed order event => ∀ key, w.manager.findPendingForEvent order event = some key →
      ∃ flow, w.settled.lookup key = some flow ∧ flow.outAmount = 0
  | _ => True

/-- A settlement event is that of a match that settled and was not confirmed. -/
def EventsOfSettled (w : EscrowWorld) : Input → Prop
  | .confirmed order event => (w.manager.findPendingForEvent order event).any fun key =>
      (w.settled.lookup key).isSome
  | _ => True

instance (w : EscrowWorld) : (i : Input) → Decidable (w.EventsOfSettled i)
  | .confirmed .. => inferInstanceAs (Decidable (_ = true))
  | .register _ | .settle .. | .failed .. | .skipped .. | .expire .. => .isTrue trivial

/-- The tracker was just seeded from the chain. -/
structure Seeded (w : EscrowWorld) : Prop where
  pending : w.manager.pending = ∅
  settled : w.settled = ∅
  confirmed : ∀ token, (w.manager.tracker.balance token).confirmed.toNat = w.chain token
  pendingOut : ∀ token, (w.manager.tracker.balance token).pendingOut = ∅
  pendingIn : ∀ token, (w.manager.tracker.balance token).pendingIn = ∅

end

/-! ## A reservation covers the settlement -/

/-- The reserved quote amount of a buy is at least what any lower price costs. -/
theorem amount_covers {args : MatchTerms} {price : UInt64}
    (hdiv : EscrowTracker.priceDivisor args.baseDecimals args.quoteDecimals ≠ 0)
    (hprice : price ≤ args.m.buyer.order.price)
    (hsmall : args.m.fillQuantity.toNat * args.m.buyer.order.price.toNat / chainScale args
      < 2 ^ 64) :
    args.m.fillQuantity.toNat * price.toNat / chainScale args
      ≤ (EscrowTracker.quoteAmount args.m.fillQuantity args.m.buyer.order.price
          (EscrowTracker.priceDivisor args.baseDecimals args.quoteDecimals)).toNat := by
  have hle : args.m.fillQuantity.toNat * price.toNat / chainScale args
      ≤ args.m.fillQuantity.toNat * args.m.buyer.order.price.toNat / chainScale args :=
    Nat.div_le_div_right (Nat.mul_le_mul_left _ (UInt64.le_iff_toNat_le.mp hprice))
  by_cases hscale : chainScale args < 2 ^ 128
  · rw [EscrowTracker.priceDivisor_eq hdiv, ← chainScale, Nat.mod_eq_of_lt hscale,
      EscrowTracker.quoteAmount,
      UInt64.toNat_ofNat_of_lt' hsmall]
    exact hle
  · -- the scale is larger than any product of two amounts
    have hprod : args.m.fillQuantity.toNat * args.m.buyer.order.price.toNat < 2 ^ 128 := by
      calc _ < 2 ^ 64 * 2 ^ 64 :=
            Nat.mul_lt_mul'' args.m.fillQuantity.toNat_lt args.m.buyer.order.price.toNat_lt
        _ = 2 ^ 128 := by norm_num
    rw [Nat.div_eq_of_lt (hprod.trans_le (not_lt.mp hscale)), Nat.le_zero] at hle
    rw [hle]
    exact Nat.zero_le _

/-! ## The invariant -/

section

variable (trade : String → MatchTerms)

/-- What the registration of a match hash moves. -/
def tradeFlow (w : EscrowWorld) (matchHash : String) : EscrowFlow :=
  w.manager.flowOf (trade matchHash)

/-- Every pending match has its reservation, every settled match is pending, and the
confirmed balances are backed: with what settled matches brought they are at most the
chain's balances with what settled matches took. -/
structure Inv (w : EscrowWorld) : Prop where
  reserved : ∀ h, (w.manager.pending.lookup h).isSome →
    (w.manager.tracker.balance (w.tradeFlow trade h).outToken).pendingOut.lookup h
      = some (w.tradeFlow trade h).outAmount
  inflow : ∀ token h a, (w.manager.tracker.balance token).pendingIn.lookup h = some a →
    token = (w.tradeFlow trade h).inToken ∧ a = (w.tradeFlow trade h).inAmount
  divisor : ∀ h, (w.manager.pending.lookup h).isSome →
    EscrowTracker.priceDivisor (trade h).baseDecimals (trade h).quoteDecimals ≠ 0
  small : ∀ h, (w.manager.pending.lookup h).isSome → w.manager.sideOf (trade h).m = .buy →
    (trade h).m.fillQuantity.toNat * (trade h).m.buyer.order.price.toNat
      / chainScale (trade h) < 2 ^ 64
  settled : ∀ h flow, w.settled.lookup h = some flow →
    (w.manager.pending.lookup h).isSome ∧
      ∃ price, price ≤ (trade h).m.buyer.order.price ∧ flow = w.settlementFlow trade h price
  exact : ∀ token, exactSum (w.manager.tracker.balance token).pendingOut < 2 ^ 64
  backed : ∀ token, (w.manager.tracker.balance token).confirmed.toNat
      + w.settled.sumValues (fun flow => flow.brings token)
    ≤ w.chain token + w.settled.sumValues (fun flow => flow.takes token)

variable {trade} {w : EscrowWorld}

theorem Seeded.inv (h : w.Seeded) : w.Inv trade where
  reserved := by simp [h.pending]
  inflow := by simp [h.pendingIn]
  divisor := by simp [h.pending]
  small := by simp [h.pending]
  settled := by simp [h.settled]
  exact token := by rw [h.pendingOut]; exact Nat.two_pow_pos 64
  backed token := by rw [h.settled, h.confirmed]; exact le_refl _

/-- A settlement takes at most what is reserved for its match. -/
theorem settlementFlow_outAmount_le {h : String} {price : UInt64}
    (hdiv : EscrowTracker.priceDivisor (trade h).baseDecimals (trade h).quoteDecimals ≠ 0)
    (hsmall : w.manager.sideOf (trade h).m = .buy →
      (trade h).m.fillQuantity.toNat * (trade h).m.buyer.order.price.toNat
        / chainScale (trade h) < 2 ^ 64)
    (hprice : price ≤ (trade h).m.buyer.order.price) :
    (w.settlementFlow trade h price).outToken = (w.tradeFlow trade h).outToken ∧
      (w.settlementFlow trade h price).outAmount
        ≤ (w.tradeFlow trade h).outAmount.toNat := by
  unfold settlementFlow tradeFlow SettlementManager.flowOf
  cases hside : w.manager.sideOf (trade h).m with
  | buy => exact ⟨rfl, amount_covers hdiv hprice (hsmall hside)⟩
  | sell => exact ⟨rfl, le_refl _⟩

/-- What settled matches took is still reserved. -/
theorem Inv.takes_le (hw : w.Inv trade) (token : String) :
    w.settled.sumValues (fun flow => flow.takes token)
      ≤ exactSum (w.manager.tracker.balance token).pendingOut := by
  refine AList.sumValues_le_of_lookup ?_
  intro h flow hflow
  obtain ⟨hpend, price, hprice, rfl⟩ := hw.settled h flow hflow
  obtain ⟨htok, hle⟩ := settlementFlow_outAmount_le (hw.divisor h hpend) (hw.small h hpend)
    hprice
  unfold ChainFlow.takes
  split_ifs with heq
  · subst heq
    rw [htok]
    exact .inr ⟨_, hw.reserved h hpend, hle⟩
  · exact .inl rfl

/-- **The invariant bounds the projected balances.** -/
theorem Inv.projected_le (hw : w.Inv trade) (token : String) :
    (w.manager.tracker.projected token).toNat ≤ w.chain token := by
  rw [EscrowTracker.projected_eq, TokenBalance.toNat_projected (hw.exact token)]
  have hbacked := hw.backed token
  have htakes := hw.takes_le token
  omega

/-! ### Registration -/

/-- Granting an outflow does not overflow the sum. -/
theorem exactSum_insert_lt {bal : TokenBalance} {matchHash : String} {amount : UInt64}
    (hsum : exactSum bal.pendingOut < 2 ^ 64) (h : ¬ bal.Refuses matchHash amount) :
    exactSum (bal.pendingOut.insert matchHash amount) < 2 ^ 64 := by
  obtain ⟨hdup, hlow⟩ := not_or.mp h
  have hnot : matchHash ∉ bal.pendingOut := fun hmem => hdup (AList.lookup_isSome.mpr hmem)
  have hle : amount.toNat ≤ bal.projected.toNat :=
    UInt64.le_iff_toNat_le.mp (UInt64.not_lt.mp hlow)
  rw [TokenBalance.toNat_projected hsum] at hle
  have hconf := bal.confirmed.toNat_lt
  unfold exactSum at *
  rw [AList.sumValues_insert_of_notMem hnot]
  omega

/-- The tracker's part of a registration keeps the invariant, whether it is granted or
not. -/
theorem Inv.applyFlow (hw : w.Inv trade) (h : String) :
    Inv trade { w with manager := { w.manager with
      tracker := (w.manager.tracker.applyFlow h (w.tradeFlow trade h)).2 } } where
  reserved := by
    intro h' hpend
    have hold := hw.reserved h' hpend
    show ((w.manager.tracker.applyFlow h (w.tradeFlow trade h)).2.balance
      (w.tradeFlow trade h').outToken).pendingOut.lookup h' = some (w.tradeFlow trade h').outAmount
    rw [EscrowTracker.pendingOut_applyFlow]
    split_ifs with hgrant
    · by_cases hh : h' = h
      · rw [hh, AList.lookup_insert]
      · rw [AList.lookup_insert_ne hh, hold]
    · exact hold
  inflow := by
    intro token h' a hin
    rcases EscrowTracker.pendingIn_applyFlow _ _ _ hin with hold | ⟨rfl, htok, hamt⟩
    · exact hw.inflow token h' a hold
    · exact ⟨htok, hamt⟩
  divisor := hw.divisor
  small := hw.small
  settled := hw.settled
  exact := by
    intro token
    show exactSum ((w.manager.tracker.applyFlow h (w.tradeFlow trade h)).2.balance
      token).pendingOut < 2 ^ 64
    rw [EscrowTracker.pendingOut_applyFlow]
    split_ifs with hgrant
    · obtain ⟨rfl, hgrant⟩ := hgrant
      -- a reservation is granted only if the sum stays below `2 ^ 64`
      exact exactSum_insert_lt (hw.exact _) hgrant
    · exact hw.exact token
  backed := by
    intro token
    show ((w.manager.tracker.applyFlow h (w.tradeFlow trade h)).2.balance
      token).confirmed.toNat + _ ≤ _
    rw [(EscrowTracker.frame_applyFlow _ _ _ token).1]
    exact hw.backed token

/-- A match with a reservation may be kept as pending. -/
theorem Inv.insertPending (hw : w.Inv trade) {h : String} (ps : PendingSettlement)
    (hres : (w.manager.tracker.balance (w.tradeFlow trade h).outToken).pendingOut.lookup h
      = some (w.tradeFlow trade h).outAmount)
    (hdiv : EscrowTracker.priceDivisor (trade h).baseDecimals (trade h).quoteDecimals ≠ 0)
    (hsmall : w.manager.sideOf (trade h).m = .buy →
      (trade h).m.fillQuantity.toNat * (trade h).m.buyer.order.price.toNat
        / chainScale (trade h) < 2 ^ 64) :
    Inv trade { w with manager := { w.manager with
      pending := w.manager.pending.insert h ps } } := by
  have hcases : ∀ h', ((w.manager.pending.insert h ps).lookup h').isSome →
      h' = h ∨ (w.manager.pending.lookup h').isSome := by
    intro h' hpend
    by_cases hh : h' = h
    · exact .inl hh
    · rw [AList.lookup_insert_ne hh] at hpend
      exact .inr hpend
  refine ⟨fun h' hpend => ?_, hw.inflow, fun h' hpend => ?_, fun h' hpend => ?_,
    fun h' flow hflow => ?_, hw.exact, hw.backed⟩
  · rcases hcases h' hpend with rfl | hold
    · exact hres
    · exact hw.reserved h' hold
  · rcases hcases h' hpend with rfl | hold
    · exact hdiv
    · exact hw.divisor h' hold
  · rcases hcases h' hpend with rfl | hold
    · exact hsmall
    · exact hw.small h' hold
  · obtain ⟨hpend, hrest⟩ := hw.settled h' flow hflow
    refine ⟨?_, hrest⟩
    by_cases hh : h' = h
    · subst hh
      show ((w.manager.pending.insert h' ps).lookup h').isSome
      rw [AList.lookup_insert]
      rfl
    · show ((w.manager.pending.insert h ps).lookup h').isSome
      rw [AList.lookup_insert_ne hh]
      exact hpend

/-- A registration keeps the invariant. -/
theorem Inv.register [HexCrate] {args : MatchTerms}
    {r : Except SettlementError Unit × SettlementManager}
    (hw : w.Inv trade) (htrade : SameTrade args (trade args.m.hashHex))
    (hsmall : w.manager.sideOf args.m = .buy →
      args.m.fillQuantity.toNat * args.m.buyer.order.price.toNat / chainScale args < 2 ^ 64)
    (hr : w.manager.registerMatch args = some r) :
    Inv trade { w with manager := r.2 } := by
  obtain ⟨hm, hbase, hquote, hbd, hqd⟩ := htrade
  have hflow : w.manager.flowOf args = w.tradeFlow trade args.m.hashHex := by
    simp only [tradeFlow, SettlementManager.flowOf, ← hm, ← hbase, ← hquote, ← hbd, ← hqd]
  rw [SettlementManager.registerMatch_eq, hflow] at hr
  -- a zero divisor panics
  split_ifs at hr with hdiv
  obtain rfl := Option.some.inj hr
  have happ := hw.applyFlow args.m.hashHex
  have hgrant := EscrowTracker.not_refuses_of_applyFlow w.manager.tracker args.m.hashHex
    (w.tradeFlow trade args.m.hashHex)
  have hout := EscrowTracker.pendingOut_applyFlow w.manager.tracker args.m.hashHex
    (w.tradeFlow trade args.m.hashHex) (w.tradeFlow trade args.m.hashHex).outToken
  generalize w.manager.tracker.applyFlow args.m.hashHex (w.tradeFlow trade args.m.hashHex) = out
    at happ hgrant hout
  obtain ⟨e | _, t⟩ := out
  -- refused: the tracker may keep what was granted, but nothing becomes pending
  · exact happ
  · rw [if_pos ⟨rfl, hgrant rfl⟩] at hout
    refine happ.insertPending (h := args.m.hashHex) (SettlementManager.entryOf args) ?_ ?_ ?_
    · show ((t.balance (w.tradeFlow trade args.m.hashHex).outToken).pendingOut.lookup _) = _
      rw [hout, AList.lookup_insert]
      rfl
    · rw [← hbd, ← hqd]
      exact hdiv
    · rw [← hm, show chainScale (trade args.m.hashHex) = chainScale args by
        unfold chainScale; rw [hbd, hqd]]
      exact hsmall

/-! ### Settlement on chain -/

/-- A settlement on chain keeps the invariant: what it takes is reserved. -/
theorem Inv.settle (hw : w.Inv trade) (h : String) (price : UInt64) :
    (w.settle trade h price).Inv trade := by
  unfold EscrowWorld.settle
  dsimp only
  split_ifs with hcan
  · obtain ⟨hpend, hnew, -, hprice, hcover⟩ := hcan
    have hnot : h ∉ w.settled := AList.lookup_eq_none.mp hnew
    refine ⟨hw.reserved, hw.inflow, hw.divisor, hw.small, ?_, hw.exact, ?_⟩
    · intro h' flow hflow
      by_cases hh : h' = h
      · subst hh
        rw [AList.lookup_insert] at hflow
        exact ⟨hpend, price, hprice, (Option.some.inj hflow).symm⟩
      · rw [AList.lookup_insert_ne hh] at hflow
        exact hw.settled h' flow hflow
    · intro token
      have hbacked := hw.backed token
      have htakes : (w.settlementFlow trade h price).takes token ≤ w.chain token := by
        unfold ChainFlow.takes
        split_ifs with heq
        · rw [heq]; exact hcover
        · exact Nat.zero_le _
      dsimp only
      rw [AList.sumValues_insert_of_notMem hnot, AList.sumValues_insert_of_notMem hnot]
      omega
  · exact hw

/-! ### Leaving the pending matches -/

/-- A match leaves: its entries are dropped from the tracker and from the pending matches,
and it is no longer counted as settled. -/
theorem Inv.drop (hw : w.Inv trade) {h : String} {tracker : EscrowTracker}
    {settled : HashMap String ChainFlow}
    (hout : ∀ token, (tracker.balance token).pendingOut
      = (w.manager.tracker.balance token).pendingOut.erase h)
    (hin : ∀ token, (tracker.balance token).pendingIn
      = (w.manager.tracker.balance token).pendingIn.erase h)
    (hsettled : ∀ h' flow, settled.lookup h' = some flow →
      h' ≠ h ∧ w.settled.lookup h' = some flow)
    (hbacked : ∀ token, (tracker.balance token).confirmed.toNat
        + settled.sumValues (fun flow => flow.brings token)
      ≤ w.chain token + settled.sumValues (fun flow => flow.takes token)) :
    Inv trade { w with
      manager := { w.manager with
        tracker := tracker
        pending := w.manager.pending.erase h }
      settled := settled } := by
  -- what is still pending is another match
  have hpend : ∀ h', ((w.manager.pending.erase h).lookup h').isSome →
      h' ≠ h ∧ (w.manager.pending.lookup h').isSome := by
    intro h' hh'
    have hne : h' ≠ h := by
      rintro rfl
      rw [AList.lookup_erase] at hh'
      cases hh'
    rw [AList.lookup_erase_ne hne] at hh'
    exact ⟨hne, hh'⟩
  refine ⟨fun h' hh' => ?_, fun token h' a hlook => ?_, fun h' hh' => ?_,
    fun h' hh' => ?_, fun h' flow hflow => ?_, fun token => ?_, hbacked⟩
  · obtain ⟨hne, hold⟩ := hpend h' hh'
    dsimp only
    rw [hout, AList.lookup_erase_ne hne]
    exact hw.reserved h' hold
  · dsimp only at hlook
    rw [hin] at hlook
    by_cases hne : h' = h
    · subst hne
      rw [AList.lookup_erase] at hlook
      cases hlook
    · rw [AList.lookup_erase_ne hne] at hlook
      exact hw.inflow token h' a hlook
  · exact hw.divisor h' (hpend h' hh').2
  · exact hw.small h' (hpend h' hh').2
  · obtain ⟨hne, hold⟩ := hsettled h' flow hflow
    obtain ⟨hstill, hrest⟩ := hw.settled h' flow hold
    refine ⟨?_, hrest⟩
    show ((w.manager.pending.erase h).lookup h').isSome
    rw [AList.lookup_erase_ne hne]
    exact hstill
  · dsimp only
    rw [hout]
    exact (exactSum_erase_le _ _).trans_lt (hw.exact token)

/-- Releasing a match that did not settle keeps the invariant. -/
theorem Inv.release (hw : w.Inv trade) {h : String} (hnot : w.settled.lookup h = none) :
    Inv trade { w with manager := w.manager.releasePendingInternal h } := by
  unfold SettlementManager.releasePendingInternal
  cases w.manager.pending.lookup h with
  | none => exact hw
  | some ps =>
      refine hw.drop (fun token => ?_) (fun token => ?_) (fun h' flow hflow => ⟨?_, hflow⟩)
        (fun token => ?_)
      · rw [EscrowTracker.balance_releasePending, TokenBalance.release_pendingOut]
      · rw [EscrowTracker.balance_releasePending, TokenBalance.release_pendingIn]
      · rintro rfl
        rw [hnot] at hflow
        cases hflow
      · rw [EscrowTracker.balance_releasePending, TokenBalance.release_confirmed]
        exact hw.backed token

/-- Releasing several matches that did not settle keeps the invariant. -/
theorem Inv.releaseAll (hw : w.Inv trade) {keys : List String}
    (hnot : ∀ h ∈ keys, w.settled.lookup h = none) :
    Inv trade { w with
      manager := keys.foldl SettlementManager.releasePendingInternal w.manager } := by
  induction keys generalizing w with
  | nil => exact hw
  | cons h keys ih =>
      exact ih (hw.release (hnot h List.mem_cons_self))
        fun h' hh' => hnot h' (List.mem_cons_of_mem h hh')

/-- A match that cost nothing brought at least what the tracker expects. -/
theorem Inv.inflow_le_brings (hw : w.Inv trade) {h : String} {flow : ChainFlow}
    (hflow : w.settled.lookup h = some flow) (hzero : flow.outAmount = 0) (token : String) :
    (((w.manager.tracker.balance token).pendingIn.lookup h).getD 0).toNat
      ≤ flow.brings token := by
  cases hin : (w.manager.tracker.balance token).pendingIn.lookup h with
  | none => exact Nat.zero_le _
  | some a =>
      obtain ⟨htok, hamt⟩ := hw.inflow token h a hin
      obtain ⟨-, price, -, rfl⟩ := hw.settled h flow hflow
      rw [Option.getD_some, hamt]
      unfold settlementFlow at hzero ⊢
      unfold tradeFlow SettlementManager.flowOf at htok ⊢
      cases hside : w.manager.sideOf (trade h).m with
      | buy =>
          rw [hside] at htok
          have htok' : token = (chainFlow .buy (trade h) price).inToken := htok
          rw [ChainFlow.brings, if_pos htok']
          exact le_refl _
      | sell =>
          rw [hside] at hzero
          -- the sell moved no base, so it is worth no quote
          have hfill : (trade h).m.fillQuantity.toNat = 0 := hzero
          simp only [EscrowTracker.matchFlow, EscrowTracker.quoteAmount, hfill, Nat.zero_mul,
            Nat.zero_div]
          exact Nat.zero_le _

/-- The event of a match that settled at no cost keeps the invariant. -/
theorem Inv.confirm (hw : w.Inv trade) {order : List String} {event : BatchTradeSettledEvent}
    (hno : ∀ key, w.manager.findPendingForEvent order event = some key →
      ∃ flow, w.settled.lookup key = some flow ∧ flow.outAmount = 0) :
    (w.confirm order event).Inv trade := by
  unfold EscrowWorld.confirm SettlementManager.onSettlementConfirmed
  cases hfind : w.manager.findPendingForEvent order event with
  | none => exact hw
  | some key =>
      obtain ⟨flow, hflow, hzero⟩ := hno key hfind
      refine hw.drop (fun token => ?_) (fun token => ?_) (fun h' flow' hflow' => ?_)
        (fun token => ?_)
      · rw [EscrowTracker.balance_confirmSettlement, TokenBalance.confirm_pendingOut]
      · rw [EscrowTracker.balance_confirmSettlement, TokenBalance.confirm_pendingIn]
      · have hne : h' ≠ key := by
          rintro rfl
          rw [AList.lookup_erase] at hflow'
          cases hflow'
        rw [AList.lookup_erase_ne hne] at hflow'
        exact ⟨hne, hflow'⟩
      · have hbacked := hw.backed token
        rw [AList.sumValues_erase hflow, AList.sumValues_erase hflow] at hbacked
        have hin := hw.inflow_le_brings hflow hzero token
        -- the chain took nothing: the invariant needs that what it brings covers the inflow
        have htakes : flow.takes token = 0 := by
          unfold ChainFlow.takes
          split_ifs
          · exact hzero
          · rfl
        rw [EscrowTracker.balance_confirmSettlement, TokenBalance.confirm_confirmed,
          UInt64.toNat_add]
        have hmod := Nat.mod_le ((w.manager.tracker.balance token).confirmed.toNat
          + (((w.manager.tracker.balance token).pendingIn.lookup key).getD 0).toNat) (2 ^ 64)
        dsimp only at hbacked ⊢
        omega

/-! ### Every step -/

theorem Inv.failed (hw : w.Inv trade) {h : String} {code : AbortCode}
    (hnot : releases code = true → w.settled.lookup h = none) :
    Inv trade { w with manager := (w.manager.onSettlementFailed h code).2 } := by
  have hcount : Inv trade { w with manager := w.manager.countAttempt code } :=
    ⟨hw.reserved, hw.inflow, hw.divisor, hw.small, hw.settled, hw.exact, hw.backed⟩
  cases code with
  | alreadySettled | insufficientBalance => exact hcount
  | _ => exact hcount.release (hnot rfl)

/-- **Step.**  Every step of a run of own matches without a debiting event keeps the
invariant. -/
theorem Inv.step [HexCrate] {w' : EscrowWorld} {i : Input} (hw : w.Inv trade)
    (hown : w.OwnMatches trade i) (hno : w.NoDebit i) (h : w.step trade i = some w') :
    w'.Inv trade := by
  cases i with
  | register args =>
      obtain ⟨r, hr, rfl⟩ := Option.map_eq_some_iff.mp h
      exact hw.register hown.1 hno hr
  | settle matchHash price =>
      obtain rfl := Option.some.inj h
      exact hw.settle matchHash price
  | confirmed order event =>
      obtain rfl := Option.some.inj h
      exact hw.confirm hno
  | failed matchHash code =>
      obtain rfl := Option.some.inj h
      exact hw.failed hown
  | skipped matchHash reason =>
      obtain rfl := Option.some.inj h
      have hrel := hw.release hown
      exact ⟨hrel.reserved, hrel.inflow, hrel.divisor, hrel.small, hrel.settled, hrel.exact,
        hrel.backed⟩
  | expire currentBatchId settlementMaxAge =>
      obtain rfl := Option.some.inj h
      exact hw.releaseAll hown

/-- **The tracker never over-estimates** in a run of own matches that starts from a seeded
tracker, as long as worst-case outflows fit into 64 bits and no settlement event debits:
the projected balance of every token is at most its on-chain balance. -/
theorem projected_le_chain [HexCrate] {w' : EscrowWorld} {is : List Input} (hseeded : w.Seeded)
    (hown : (system trade).Follows (OwnMatches trade) w is)
    (hno : (system trade).Follows NoDebit w is)
    (hrun : (system trade).run w is = some w') (token : String) :
    (w'.manager.tracker.projected token).toNat ≤ w'.chain token :=
  ((system trade).run_invariant (I := Inv trade)
    (fun _ _ _ hw hC hstep => hw.step hC.1 hC.2 hstep) hseeded.inv
    (hown.and _ hno) hrun).projected_le token

end

/-! ## One buy -/

section

attribute [local instance] sampleExternals

/-- The buy of NFT 2, registered by its node. -/
def boughtTerms : MatchTerms := sampleSwap.terms 2 sampleMatch

/-- NFT 2 has 100 `KAY` in escrow. -/
def buyerWorld : EscrowWorld where
  manager := .new (EscrowTracker.new.setConfirmed "KAY" 100) 2
  chain token := if token = "KAY" then 100 else 0
  settled := ∅

/-- The settlement event of the buy. -/
def boughtEvent : BatchTradeSettledEvent where
  batchId := 7
  poolId := 0
  tradeId := sampleMatch.hashHex
  buyerNftId := 2
  sellerNftId := 1
  symbol := emmKay
  buyerPrice := 10
  sellerPrice := 10
  clearingPrice := 10
  baseAmount := 5
  quoteAmount := 50
  buyerOrderHash := ""
  sellerOrderHash := ""
  gasPayer := ""
  timestamp := 0

theorem buyerWorld_seeded : buyerWorld.Seeded := by
  have hbal : ∀ token, buyerWorld.manager.tracker.balance token
      = if token = "KAY" then ⟨100, ∅, ∅, 0⟩ else .empty :=
    fun token => EscrowTracker.balance_update _ _ _ _
  refine ⟨rfl, rfl, fun token => ?_, fun token => ?_, fun token => ?_⟩
  all_goals rw [hbal token]
  · show _ = if token = "KAY" then 100 else 0
    split_ifs <;> rfl
  · split_ifs <;> rfl
  · split_ifs <;> rfl

/-- The node registers its buy, and the chain settles it at 10. -/
def boughtRun : List Input := [.register boughtTerms, .settle sampleMatch.hashHex 10]

/-- The system in which every match hash stands for the buy. -/
def boughtSystem : System EscrowWorld Input := system fun _ => boughtTerms

/-- The state after a list of inputs, the start if the run stops. -/
def after (is : List Input) : EscrowWorld := (boughtSystem.run buyerWorld is).getD buyerWorld

theorem boughtTerms_own : SameTrade boughtTerms boughtTerms ∧
    (boughtTerms.m.buyer.order.nftId = buyerWorld.manager.ownNftId ∨
      boughtTerms.m.seller.order.nftId = buyerWorld.manager.ownNftId) :=
  ⟨⟨rfl, rfl, rfl, rfl, rfl⟩, .inl rfl⟩

/-- Before the event the reservation of 50 covers the 50 that the chain took. -/
theorem settled_buy_covered :
    ((after boughtRun).manager.tracker.projected "KAY").toNat ≤ (after boughtRun).chain "KAY" := by
  have hown : boughtSystem.Follows (OwnMatches fun _ => boughtTerms) buyerWorld boughtRun :=
    ⟨boughtTerms_own, fun _ _ => ⟨trivial, fun _ _ => trivial⟩⟩
  have hno : boughtSystem.Follows NoDebit buyerWorld boughtRun :=
    ⟨fun _ => by decide +kernel, fun _ _ => ⟨trivial, fun _ _ => trivial⟩⟩
  have hrun : boughtSystem.run buyerWorld boughtRun = some (after boughtRun) :=
    System.run_eq_some_getD _ (by decide +kernel)
  exact projected_le_chain buyerWorld_seeded hown hno hrun "KAY"

/-- The event drops the reservation of 50 `KAY`: the tracker projects 100 where the chain
has 50. -/
theorem confirmed_buy_overestimated :
    ¬ ∀ (trade : String → MatchTerms) (w w' : EscrowWorld) (is : List Input) (token : String),
      w.Seeded → (system trade).Follows (OwnMatches trade) w is →
      (system trade).Follows EventsOfSettled w is → (system trade).run w is = some w' →
      (w'.manager.tracker.projected token).toNat ≤ w'.chain token := by
  intro h
  have hown : boughtSystem.Follows (OwnMatches fun _ => boughtTerms) buyerWorld
      (boughtRun ++ [.confirmed [] boughtEvent]) :=
    ⟨boughtTerms_own, fun _ _ => ⟨trivial, fun _ _ => ⟨trivial, fun _ _ => trivial⟩⟩⟩
  have hevents : boughtSystem.Follows EventsOfSettled buyerWorld
      (boughtRun ++ [.confirmed [] boughtEvent]) := by
    decide +kernel
  have hrun : boughtSystem.run buyerWorld (boughtRun ++ [.confirmed [] boughtEvent])
      = some (after (boughtRun ++ [.confirmed [] boughtEvent])) :=
    System.run_eq_some_getD _ (by decide +kernel)
  have hle := h _ _ _ _ "KAY" buyerWorld_seeded hown hevents hrun
  revert hle
  decide +kernel

end

end EscrowWorld
