/-
# The arguments of a settlement

A match is settled on chain by a call with 18 arguments, each encoded on its own.  The contract
rebuilds the two orders from them and checks the two signatures; the symbol is sent once and
stands in both orders.  Since the two orders of a match share its symbol, what is rebuilt is what
was signed (`settleArgs_of_runMatching`).
-/
import DeadmktNode.LiveNode
import DeadmktNode.MatchingConservation

/-! ## Building the arguments -/

/-- The seven arguments of a revealed order; its symbol is not among them. -/
def orderArgs [BcsCrate] (r : RevealedOrder) : Option (List Bytes) := do
  let nftId ← BcsCrate.toBytes Codec.u64 r.order.nftId
  let side ← BcsCrate.toBytes Codec.u8 r.order.side
  let price ← BcsCrate.toBytes Codec.u64 r.order.price
  let quantity ← BcsCrate.toBytes Codec.u64 r.order.quantity
  let batchId ← BcsCrate.toBytes Codec.u64 r.order.batchId
  let nonce ← BcsCrate.toBytes Codec.bytes r.order.nonce
  let signature ← BcsCrate.toBytes Codec.bytes r.signature
  return [nftId, side, price, quantity, batchId, nonce, signature]

/-- The arguments of `settle_match`, behind the submitter; `none` is a BCS error. -/
def buildSettleArgs [BcsCrate] (m : Match) : Option (List Bytes) := do
  -- 1-2: batch and pool
  let batchId ← BcsCrate.toBytes Codec.u64 m.batchId
  let poolId ← BcsCrate.toBytes Codec.u64 m.poolId
  -- 3-9 and 10-16: the two orders
  let buyer ← orderArgs m.buyer
  let seller ← orderArgs m.seller
  -- 17-18: the terms of the match
  let symbol ← BcsCrate.toBytes Codec.bytes m.symbol
  let fillQuantity ← BcsCrate.toBytes Codec.u64 m.fillQuantity
  return [batchId, poolId] ++ buyer ++ seller ++ [symbol, fillQuantity]

/-! ## Reading them by position -/

/-- What the arguments say: two signed orders, and where and how far they trade. -/
structure SettledTrade where
  batchId : UInt64
  poolId : UInt64
  buyer : Order
  buyerSignature : Bytes
  seller : Order
  sellerSignature : Bytes
  fillQuantity : UInt64
deriving DecidableEq

/-- The trade of a match. -/
def Match.settledTrade (m : Match) : SettledTrade where
  batchId := m.batchId
  poolId := m.poolId
  buyer := m.buyer.order
  buyerSignature := m.buyer.signature
  seller := m.seller.order
  sellerSignature := m.seller.signature
  fillQuantity := m.fillQuantity

/-- Rebuild a signed order from its seven arguments and the symbol. -/
def readOrder (symbol : Bytes) : List Bytes → Option (Order × Bytes)
  | [nftId, side, price, quantity, batchId, nonce, signature] => do
      let nftId ← Codec.u64.fromBytes nftId
      let side ← Codec.u8.fromBytes side
      let price ← Codec.u64.fromBytes price
      let quantity ← Codec.u64.fromBytes quantity
      let batchId ← Codec.u64.fromBytes batchId
      let nonce ← Codec.bytes.fromBytes nonce
      let signature ← Codec.bytes.fromBytes signature
      return (⟨nftId, symbol, side, price, quantity, batchId, nonce⟩, signature)
  | _ => none

/-- Read the trade off the arguments. -/
def readSettleArgs (args : List Bytes) : Option SettledTrade := do
  let batchId ← args[0]?.bind Codec.u64.fromBytes
  let poolId ← args[1]?.bind Codec.u64.fromBytes
  let symbol ← args[16]?.bind Codec.bytes.fromBytes
  let (buyer, buyerSignature) ← readOrder symbol ((args.drop 2).take 7)
  let (seller, sellerSignature) ← readOrder symbol ((args.drop 9).take 7)
  let fillQuantity ← args[17]?.bind Codec.u64.fromBytes
  return ⟨batchId, poolId, buyer, buyerSignature, seller, sellerSignature, fillQuantity⟩

/-! ## The two are inverse -/

/-- Only the byte strings of an order can fail to be encoded. -/
theorem orderArgs_eq_some_iff [BcsCrate] {r : RevealedOrder} {args : List Bytes} :
    orderArgs r = some args ↔
      ∃ nonce signature, Codec.bytes.toBytes r.order.nonce = some nonce ∧
        Codec.bytes.toBytes r.signature = some signature ∧
        args = [r.order.nftId.toLeBytes, [r.order.side], r.order.price.toLeBytes,
          r.order.quantity.toLeBytes, r.order.batchId.toLeBytes, nonce, signature] := by
  simp only [orderArgs, BcsCrate.toBytes_layout]
  show ((Codec.bytes.toBytes r.order.nonce).bind fun nonce =>
      (Codec.bytes.toBytes r.signature).bind fun signature => some _) = some args ↔ _
  simp only [Option.bind_eq_some_iff, Option.some.injEq]
  constructor
  · rintro ⟨nonce, hnonce, signature, hsignature, rfl⟩
    exact ⟨nonce, signature, hnonce, hsignature, rfl⟩
  · rintro ⟨nonce, signature, hnonce, hsignature, rfl⟩
    exact ⟨nonce, hnonce, signature, hsignature, rfl⟩

/-- The hash of a revealed order is not sent. -/
theorem orderArgs_congr [BcsCrate] {r r' : RevealedOrder} (horder : r.order = r'.order)
    (hsignature : r.signature = r'.signature) : orderArgs r = orderArgs r' := by
  unfold orderArgs
  rw [horder, hsignature]

/-- An order is rebuilt from its arguments and its symbol. -/
theorem readOrder_orderArgs [BcsCrate] {r : RevealedOrder} {args : List Bytes}
    (h : orderArgs r = some args) :
    readOrder r.order.symbol args = some (r.order, r.signature) := by
  obtain ⟨nonce, signature, hnonce, hsignature, rfl⟩ := orderArgs_eq_some_iff.mp h
  have hu64 : ∀ x : UInt64, Codec.u64.fromBytes x.toLeBytes = some x :=
    fun x => Codec.u64.fromBytes_toBytes (Codec.toBytes_u64 x)
  have hside : Codec.u8.fromBytes [r.order.side] = some r.order.side := rfl
  rw [readOrder, hu64, hu64, hu64, hu64, hside, Codec.bytes.fromBytes_toBytes hnonce,
    Codec.bytes.fromBytes_toBytes hsignature]
  rfl

/-- The arguments of a match are those of its two orders, behind batch and pool, and then the
symbol and the fill. -/
theorem buildSettleArgs_eq_some_iff [BcsCrate] {m : Match} {args : List Bytes} :
    buildSettleArgs m = some args ↔
      ∃ buyer seller symbol, orderArgs m.buyer = some buyer ∧ orderArgs m.seller = some seller ∧
        Codec.bytes.toBytes m.symbol = some symbol ∧
        args = [m.batchId.toLeBytes, m.poolId.toLeBytes] ++ buyer ++ seller
          ++ [symbol, m.fillQuantity.toLeBytes] := by
  simp only [buildSettleArgs, BcsCrate.toBytes_layout]
  show ((orderArgs m.buyer).bind fun buyer => (orderArgs m.seller).bind fun seller =>
      (Codec.bytes.toBytes m.symbol).bind fun symbol => some _) = some args ↔ _
  simp only [Option.bind_eq_some_iff, Option.some.injEq]
  constructor
  · rintro ⟨buyer, hbuyer, seller, hseller, symbol, hsymbol, rfl⟩
    exact ⟨buyer, seller, symbol, hbuyer, hseller, hsymbol, rfl⟩
  · rintro ⟨buyer, seller, symbol, hbuyer, hseller, hsymbol, rfl⟩
    exact ⟨buyer, hbuyer, seller, hseller, symbol, hsymbol, rfl⟩

/-- There are eighteen arguments. -/
theorem length_buildSettleArgs [BcsCrate] {m : Match} {args : List Bytes}
    (h : buildSettleArgs m = some args) : args.length = 18 := by
  obtain ⟨buyer, seller, symbol, hbuyer, hseller, -, rfl⟩ := buildSettleArgs_eq_some_iff.mp h
  obtain ⟨_, _, -, -, rfl⟩ := orderArgs_eq_some_iff.mp hbuyer
  obtain ⟨_, _, -, -, rfl⟩ := orderArgs_eq_some_iff.mp hseller
  rfl

section

variable [BcsCrate] {m m' : Match} (hbuyer : m.buyer.order.symbol = m.symbol)
  (hseller : m.seller.order.symbol = m.symbol)

include hbuyer hseller

/-- Orders that share the symbol of their match are read back as they were signed. -/
theorem readSettleArgs_buildSettleArgs {args : List Bytes} (h : buildSettleArgs m = some args) :
    readSettleArgs args = some m.settledTrade := by
  obtain ⟨buyer, seller, symbol, hb, hs, hsymbol, hargs⟩ := buildSettleArgs_eq_some_iff.mp h
  have hreadBuyer := readOrder_orderArgs hb
  have hreadSeller := readOrder_orderArgs hs
  rw [hbuyer] at hreadBuyer
  rw [hseller] at hreadSeller
  obtain ⟨_, _, -, -, rfl⟩ := orderArgs_eq_some_iff.mp hb
  obtain ⟨_, _, -, -, rfl⟩ := orderArgs_eq_some_iff.mp hs
  -- the argument list is now explicit: each position holds its own field
  have h0 : args[0]?.bind Codec.u64.fromBytes = some m.batchId := by
    rw [hargs]
    exact Codec.u64.fromBytes_toBytes (Codec.toBytes_u64 m.batchId)
  have h1 : args[1]?.bind Codec.u64.fromBytes = some m.poolId := by
    rw [hargs]
    exact Codec.u64.fromBytes_toBytes (Codec.toBytes_u64 m.poolId)
  have h16 : args[16]?.bind Codec.bytes.fromBytes = some m.symbol := by
    rw [hargs]
    exact Codec.bytes.fromBytes_toBytes hsymbol
  have h17 : args[17]?.bind Codec.u64.fromBytes = some m.fillQuantity := by
    rw [hargs]
    exact Codec.u64.fromBytes_toBytes (Codec.toBytes_u64 m.fillQuantity)
  have h2 : readOrder m.symbol ((args.drop 2).take 7)
      = some (m.buyer.order, m.buyer.signature) := by
    rw [hargs]
    exact hreadBuyer
  have h9 : readOrder m.symbol ((args.drop 9).take 7)
      = some (m.seller.order, m.seller.signature) := by
    rw [hargs]
    exact hreadSeller
  rw [readSettleArgs, h0, h1, h16]
  dsimp only [bind, Option.bind_some]
  rw [h2, h9, h17]
  rfl

/-- Two such matches have the same arguments exactly when they are the same trade. -/
theorem buildSettleArgs_eq_iff (hbuyer' : m'.buyer.order.symbol = m'.symbol)
    (hseller' : m'.seller.order.symbol = m'.symbol) {args : List Bytes}
    (h : buildSettleArgs m = some args) :
    buildSettleArgs m' = some args ↔ m'.settledTrade = m.settledTrade := by
  constructor
  · intro h'
    have hread := readSettleArgs_buildSettleArgs hbuyer' hseller' h'
    rw [readSettleArgs_buildSettleArgs hbuyer hseller h] at hread
    exact (Option.some.inj hread).symm
  · intro htrade
    have hb : m'.buyer.order = m.buyer.order := congrArg SettledTrade.buyer htrade
    have hbs : m'.buyer.signature = m.buyer.signature := congrArg SettledTrade.buyerSignature htrade
    have hs : m'.seller.order = m.seller.order := congrArg SettledTrade.seller htrade
    have hss : m'.seller.signature = m.seller.signature :=
      congrArg SettledTrade.sellerSignature htrade
    have hsymbol : m'.symbol = m.symbol := by rw [← hbuyer', ← hbuyer, hb]
    obtain ⟨buyer, seller, symbol, hbargs, hsargs, hsymbolArg, rfl⟩ :=
      buildSettleArgs_eq_some_iff.mp h
    refine buildSettleArgs_eq_some_iff.mpr ⟨buyer, seller, symbol, ?_, ?_, ?_, ?_⟩
    · rw [← hbargs]
      exact orderArgs_congr hb hbs
    · rw [← hsargs]
      exact orderArgs_congr hs hss
    · rw [hsymbol]
      exact hsymbolArg
    · rw [show m'.batchId = m.batchId from congrArg SettledTrade.batchId htrade,
        show m'.poolId = m.poolId from congrArg SettledTrade.poolId htrade,
        show m'.fillQuantity = m.fillQuantity from congrArg SettledTrade.fillQuantity htrade]

end

/-! ## The matches of a batch -/

section

variable [Externals]

/-- The hash of a reveal is that of its order, whose encoding the hash function expects. -/
def HashedReveal (r : RevealedOrder) : Prop :=
  (encodeOrder r.order).isSome = true ∧ r.orderHash = orderHash r.order

instance (r : RevealedOrder) : Decidable (HashedReveal r) := inferInstanceAs (Decidable (_ ∧ _))

/-- The byte strings of an order that has an encoding have one. -/
theorem toBytes_of_encodeOrder {o : Order} (h : (encodeOrder o).isSome = true) :
    (Codec.bytes.toBytes o.symbol).isSome = true ∧
      (Codec.bytes.toBytes o.nonce).isSome = true := by
  rw [Codec.isSome_toBytes_bytes, Codec.isSome_toBytes_bytes]
  exact isSome_encodeOrder_iff.mp h

/-- The arguments of an order that was hashed exist when its signature is not too long. -/
theorem HashedReveal.isSome_orderArgs {r : RevealedOrder} (h : HashedReveal r) :
    (orderArgs r).isSome = true ↔ r.signature.length ≤ Codec.maxSequenceLength := by
  rw [← Codec.isSome_toBytes_bytes]
  obtain ⟨nonce, hnonce⟩ := Option.isSome_iff_exists.mp (toBytes_of_encodeOrder h.1).2
  constructor
  · intro hargs
    obtain ⟨args, hargs⟩ := Option.isSome_iff_exists.mp hargs
    obtain ⟨_, signature, -, hsignature, -⟩ := orderArgs_eq_some_iff.mp hargs
    exact Option.isSome_iff_exists.mpr ⟨signature, hsignature⟩
  · intro hsignature
    obtain ⟨signature, hsignature⟩ := Option.isSome_iff_exists.mp hsignature
    exact Option.isSome_iff_exists.mpr
      ⟨_, orderArgs_eq_some_iff.mpr ⟨nonce, signature, hnonce, hsignature, rfl⟩⟩

/-- A match of hashed orders under its symbol has arguments, unless a signature is too long. -/
theorem isSome_buildSettleArgs {m : Match} (hbuyer : HashedReveal m.buyer)
    (hseller : HashedReveal m.seller)
    (hsymbol : m.buyer.order.symbol = m.symbol) :
    (buildSettleArgs m).isSome = true ↔
      m.buyer.signature.length ≤ Codec.maxSequenceLength ∧
        m.seller.signature.length ≤ Codec.maxSequenceLength := by
  rw [← hbuyer.isSome_orderArgs, ← hseller.isSome_orderArgs]
  have hencoded := (toBytes_of_encodeOrder hbuyer.1).1
  rw [hsymbol] at hencoded
  obtain ⟨symbol, hencoded⟩ := Option.isSome_iff_exists.mp hencoded
  constructor
  · intro h
    obtain ⟨args, h⟩ := Option.isSome_iff_exists.mp h
    obtain ⟨_, _, _, hb, hs, -, -⟩ := buildSettleArgs_eq_some_iff.mp h
    exact ⟨Option.isSome_iff_exists.mpr ⟨_, hb⟩, Option.isSome_iff_exists.mpr ⟨_, hs⟩⟩
  · rintro ⟨hb, hs⟩
    obtain ⟨buyer, hb⟩ := Option.isSome_iff_exists.mp hb
    obtain ⟨seller, hs⟩ := Option.isSome_iff_exists.mp hs
    exact Option.isSome_iff_exists.mpr
      ⟨_, buildSettleArgs_eq_some_iff.mpr ⟨buyer, seller, symbol, hb, hs, hencoded, rfl⟩⟩

/-- **Settlement arguments.**  The arguments of a match of a batch, whose reveals carry the hashes
of their orders, exist unless a signature is too long to be encoded.  Read by position, they give
both revealed orders, a buy and a sell, with their signatures, at a fill that neither order falls
short of; and no other trade of any batch has the same arguments. -/
theorem settleArgs_of_runMatching {input : MatchingInput}
    (hhashed : ∀ r ∈ input.reveals, HashedReveal r) {m : Match} (hm : m ∈ runMatching input) :
    ((buildSettleArgs m).isSome = true ↔
        m.buyer.signature.length ≤ Codec.maxSequenceLength ∧
          m.seller.signature.length ≤ Codec.maxSequenceLength) ∧
      ∀ args, buildSettleArgs m = some args →
        args.length = 18 ∧
        readSettleArgs args = some ⟨m.batchId, m.poolId, m.buyer.order, m.buyer.signature,
          m.seller.order, m.seller.signature, m.fillQuantity⟩ ∧
        (m.buyer ∈ input.reveals ∧ m.buyer.order.side = 1 ∧
          m.fillQuantity ≤ m.buyer.order.quantity) ∧
        (m.seller ∈ input.reveals ∧ m.seller.order.side = 0 ∧
          m.fillQuantity ≤ m.seller.order.quantity) ∧
        ∀ (input' : MatchingInput) (m' : Match), m' ∈ runMatching input' →
          (buildSettleArgs m' = some args ↔ m'.settledTrade = m.settledTrade) := by
  obtain ⟨⟨hbuyer, hbuyerSymbol, hbuy, hbuyQty⟩, hseller, hsellerSymbol, hsell, hsellQty⟩ :=
    terms_of_mem_runMatching hm
  refine ⟨isSome_buildSettleArgs (hhashed _ hbuyer) (hhashed _ hseller) hbuyerSymbol, ?_⟩
  intro args hargs
  refine ⟨length_buildSettleArgs hargs,
    readSettleArgs_buildSettleArgs hbuyerSymbol hsellerSymbol hargs,
    ⟨hbuyer, hbuy, hbuyQty⟩, ⟨hseller, hsell, hsellQty⟩, ?_⟩
  intro input' m' hm'
  obtain ⟨⟨-, hbuyerSymbol', -⟩, -, hsellerSymbol', -⟩ := terms_of_mem_runMatching hm'
  exact buildSettleArgs_eq_iff hbuyerSymbol hsellerSymbol hbuyerSymbol' hsellerSymbol' hargs

end

/-! ## The sample trade -/

section

attribute [local instance] sampleExternals

/-- The two sample orders, revealed in batch 7. -/
def tradedBatch : MatchingInput where
  batchId := 7
  poolId := 0
  reveals := [⟨sampleSell, sellSignature, orderHash sampleSell⟩,
    ⟨sampleBuy, buySignature, orderHash sampleBuy⟩]
  markets := [⟨emmKay, 1⟩]

/-- The match of the two. -/
def tradedMatch : Match where
  batchId := 7
  poolId := 0
  symbol := emmKay
  buyer := ⟨sampleBuy, buySignature, orderHash sampleBuy⟩
  seller := ⟨sampleSell, sellSignature, orderHash sampleSell⟩
  fillQuantity := 5
  settlementPrice := 10
  matchHash := computeMatchHash 7 (orderHash sampleBuy) (orderHash sampleSell) 5
  gasPayerNftId := determineGasPayer (orderHash sampleBuy) (orderHash sampleSell) 2 1

/-- It is settled with what was signed. -/
theorem sample_trade_is_settled :
    runMatching tradedBatch = [tradedMatch] ∧
      ∃ args, buildSettleArgs tradedMatch = some args ∧ args.length = 18 ∧
        readSettleArgs args
          = some ⟨7, 0, sampleBuy, buySignature, sampleSell, sellSignature, 5⟩ := by
  have hmatches : runMatching tradedBatch = [tradedMatch] := by decide +kernel
  have hm : tradedMatch ∈ runMatching tradedBatch := by
    rw [hmatches]
    exact List.mem_singleton_self _
  obtain ⟨hsome, hread⟩ := settleArgs_of_runMatching (by decide +kernel) hm
  obtain ⟨args, hargs⟩ := Option.isSome_iff_exists.mp (hsome.mpr (by decide +kernel))
  exact ⟨hmatches, args, hargs, (hread args hargs).1, (hread args hargs).2.1⟩

end
