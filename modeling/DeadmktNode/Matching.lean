/-
# The matching engine

Orders that were revealed in a batch are grouped by symbol, each symbol's buys and
sells are sorted by price and then by order hash, and a two-pointer loop over the two
books emits the matches.  This file is the engine as the code computes it, with the
inversion lemma of one loop iteration (`Book.step_cases`).
-/
import DeadmktNode.Crypto
import DeadmktNode.HashMap
import DeadmktNode.CanonicalSort
import DeadmktNode.WhileLoop

/-! ## Types -/

/-- A revealed order ready for matching, with its signature and its cached hash. -/
structure RevealedOrder where
  order : Order
  signature : Bytes
  orderHash : Hash32
deriving DecidableEq

/-- A computed match between two orders. -/
structure Match where
  batchId : UInt64
  poolId : UInt64
  symbol : Bytes
  buyer : RevealedOrder
  seller : RevealedOrder
  fillQuantity : UInt64
  settlementPrice : UInt64
  matchHash : Hash32
  gasPayerNftId : UInt64
deriving DecidableEq

/-- What matching needs to know of a market. -/
structure MarketConfig where
  symbol : Bytes
  minQuantity : UInt64
deriving DecidableEq

/-- All reveals of a batch and the market configs. -/
structure MatchingInput where
  batchId : UInt64
  poolId : UInt64
  reveals : List RevealedOrder
  markets : List MarketConfig

/-! ## Sorting -/

/-- Buys: highest price first, then lower hash first. -/
def compareBuys (a b : RevealedOrder) : Ordering :=
  (compare b.order.price a.order.price).then (compare a.orderHash b.orderHash)

/-- Sells: lowest price first, then lower hash first. -/
def compareSells (a b : RevealedOrder) : Ordering :=
  (compare a.order.price b.order.price).then (compare a.orderHash b.orderHash)

/-- Sort the two books of a symbol. -/
def sortOrders (buys sells : List RevealedOrder) : List RevealedOrder × List RevealedOrder :=
  (sortBy compareBuys buys, sortBy compareSells sells)

/-- The side with the lower order hash pays the gas. -/
def determineGasPayer (buyerHash sellerHash : Hash32) (buyerNftId sellerNftId : UInt64) :
    UInt64 :=
  if (compare buyerHash sellerHash).isLT then buyerNftId else sellerNftId

/-! ## The two-pointer loop -/

/-- The arguments of `generateMatches`: one symbol's books, sorted by the caller. -/
structure Book where
  batchId : UInt64
  poolId : UInt64
  symbol : Bytes
  buys : List RevealedOrder
  sells : List RevealedOrder
  minQuantity : UInt64

/-- The mutable variables of the loop. -/
structure BookCursor where
  buyIdx : ℕ
  sellIdx : ℕ
  buyRemaining : UInt64
  sellRemaining : UInt64
deriving DecidableEq

/-- The quantity of the order at position `i`, `0` past the end. -/
def quantityAt (orders : List RevealedOrder) (i : ℕ) : UInt64 :=
  ((orders[i]?).map (fun o => o.order.quantity)).getD 0

namespace Book

variable [Externals] (B : Book)

/-- Move on to the next buy. -/
def advanceBuy (c : BookCursor) : BookCursor :=
  { c with buyIdx := c.buyIdx + 1, buyRemaining := quantityAt B.buys (c.buyIdx + 1) }

/-- Move on to the next sell. -/
def advanceSell (c : BookCursor) : BookCursor :=
  { c with sellIdx := c.sellIdx + 1, sellRemaining := quantityAt B.sells (c.sellIdx + 1) }

/-- Take a fill off both remainders and move past the orders that it exhausts. -/
def consume (c : BookCursor) (fillQty : UInt64) : BookCursor :=
  let c := { c with
    buyRemaining := c.buyRemaining - fillQty
    sellRemaining := c.sellRemaining - fillQty }
  let c := if c.buyRemaining = 0 then B.advanceBuy c else c
  if c.sellRemaining = 0 then B.advanceSell c else c

/-- Does this buy have a crossing sell of another NFT from position `sellIdx` on? -/
def buyHasAlt (sellIdx : ℕ) (buy : RevealedOrder) : Bool :=
  (B.sells.drop sellIdx).any (fun s =>
    s.order.price ≤ buy.order.price && buy.order.nftId != s.order.nftId)

/-- Does this sell have a crossing buy of another NFT from position `buyIdx` on? -/
def sellHasAlt (buyIdx : ℕ) (sell : RevealedOrder) : Bool :=
  (B.buys.drop buyIdx).any (fun b =>
    sell.order.price ≤ b.order.price && b.order.nftId != sell.order.nftId)

/-- The match of a buy and a sell at a fill.  The price sum is a `u64` sum. -/
def makeMatch (buy sell : RevealedOrder) (fillQty : UInt64) : Match where
  batchId := B.batchId
  poolId := B.poolId
  symbol := B.symbol
  buyer := buy
  seller := sell
  fillQuantity := fillQty
  settlementPrice := (buy.order.price + sell.order.price) / 2
  matchHash := computeMatchHash B.batchId buy.orderHash sell.orderHash fillQty
  gasPayerNftId :=
    determineGasPayer buy.orderHash sell.orderHash buy.order.nftId sell.order.nftId

/-- One iteration of the loop: the next cursor and the match that is pushed, if any;
`none` leaves the loop. -/
def step (c : BookCursor) : Option (BookCursor × Option Match) :=
  match B.buys[c.buyIdx]?, B.sells[c.sellIdx]? with
  | some buy, some sell =>
      -- orders stop crossing
      if buy.order.price < sell.order.price then none
      -- self-trade: skip the doomed side
      else if buy.order.nftId = sell.order.nftId then
        if B.buyHasAlt c.sellIdx buy && !B.sellHasAlt c.buyIdx sell then
          some (B.advanceSell c, none)
        else
          some (B.advanceBuy c, none)
      else
        let fillQty := min c.buyRemaining c.sellRemaining
        -- dust: skip the smaller side
        if fillQty < B.minQuantity then
          if c.buyRemaining ≤ c.sellRemaining then
            some (B.advanceBuy c, none)
          else
            some (B.advanceSell c, none)
        else
          some (B.consume c fillQty, some (B.makeMatch buy sell fillQty))
  | _, _ => none

/-- The positions that lie ahead of a cursor. -/
def ahead (c : BookCursor) : ℕ :=
  (B.buys.length - c.buyIdx) + (B.sells.length - c.sellIdx)

/-- The cursor at the head of both books. -/
def start : BookCursor where
  buyIdx := 0
  sellIdx := 0
  buyRemaining := quantityAt B.buys 0
  sellRemaining := quantityAt B.sells 0

/-! ### What one iteration can do -/

/-- The iterations of the loop at cursor `c`, between the buy and the sell that the
cursor stands on, with the guards under which the code takes them. -/
inductive Step (c : BookCursor) (buy sell : RevealedOrder) :
    BookCursor → Option Match → Prop
  | skipSell (hnft : buy.order.nftId = sell.order.nftId)
      (hbuy : B.buyHasAlt c.sellIdx buy = true) (hsell : B.sellHasAlt c.buyIdx sell = false) :
      Step c buy sell (B.advanceSell c) none
  | skipBuy (hnft : buy.order.nftId = sell.order.nftId)
      (halt : B.buyHasAlt c.sellIdx buy = false ∨ B.sellHasAlt c.buyIdx sell = true) :
      Step c buy sell (B.advanceBuy c) none
  | dustBuy (hnft : buy.order.nftId ≠ sell.order.nftId)
      (hdust : min c.buyRemaining c.sellRemaining < B.minQuantity)
      (hle : c.buyRemaining ≤ c.sellRemaining) :
      Step c buy sell (B.advanceBuy c) none
  | dustSell (hnft : buy.order.nftId ≠ sell.order.nftId)
      (hdust : min c.buyRemaining c.sellRemaining < B.minQuantity)
      (hlt : c.sellRemaining < c.buyRemaining) :
      Step c buy sell (B.advanceSell c) none
  | fill (hnft : buy.order.nftId ≠ sell.order.nftId)
      (hmin : B.minQuantity ≤ min c.buyRemaining c.sellRemaining) :
      Step c buy sell (B.consume c (min c.buyRemaining c.sellRemaining))
        (some (B.makeMatch buy sell (min c.buyRemaining c.sellRemaining)))

/-- **Inversion of one iteration.**  An iteration stands on a crossing buy and sell
and takes one of the five branches. -/
theorem step_cases {c c' : BookCursor} {o : Option Match} (h : B.step c = some (c', o)) :
    ∃ buy sell, B.buys[c.buyIdx]? = some buy ∧ B.sells[c.sellIdx]? = some sell ∧
      sell.order.price ≤ buy.order.price ∧ B.Step c buy sell c' o := by
  unfold step at h
  split at h
  · rename_i buy sell hbuy hsell
    refine ⟨buy, sell, hbuy, hsell, ?_⟩
    dsimp only at h
    split_ifs at h with hprice hnft halt hdust hle
    all_goals
      obtain ⟨rfl, rfl⟩ := Prod.mk.inj (Option.some.inj h)
      refine ⟨UInt64.not_lt.mp hprice, ?_⟩
    · rw [Bool.and_eq_true, Bool.not_eq_true'] at halt
      exact .skipSell hnft halt.1 halt.2
    · rw [Bool.and_eq_true, Bool.not_eq_true', not_and_or, Bool.not_eq_true,
        Bool.not_eq_false] at halt
      exact .skipBuy hnft halt
    · exact .dustBuy hnft hdust hle
    · exact .dustSell hnft hdust (UInt64.not_le.mp hle)
    · exact .fill hnft (UInt64.not_lt.mp hdust)
  · simp at h

/-- The loop ends when a book is exhausted or the orders stop crossing. -/
theorem step_eq_none_iff {c : BookCursor} :
    B.step c = none ↔ ∀ buy sell, B.buys[c.buyIdx]? = some buy →
      B.sells[c.sellIdx]? = some sell → buy.order.price < sell.order.price := by
  constructor
  · intro h buy sell hbuy hsell
    by_contra hcross
    unfold step at h
    simp only [hbuy, hsell, if_neg hcross] at h
    split_ifs at h
  · intro h
    unfold step
    split
    · rename_i buy sell hbuy hsell
      rw [if_pos (h buy sell hbuy hsell)]
    · rfl

omit [Externals] in
/-- A fill of the smaller remainder exhausts one side. -/
theorem sub_min_eq_zero (r s : UInt64) : r - min r s = 0 ∨ s - min r s = 0 := by
  by_cases hle : r ≤ s
  · left
    rw [show min r s = r from if_pos hle, UInt64.sub_self]
  · right
    rw [show min r s = s from if_neg hle, UInt64.sub_self]

omit [Externals] in
/-- After a fill both cursors stand where they did or one further, and at least one
moves. -/
theorem consume_idx (c : BookCursor) :
    ((B.consume c (min c.buyRemaining c.sellRemaining)).buyIdx = c.buyIdx ∨
      (B.consume c (min c.buyRemaining c.sellRemaining)).buyIdx = c.buyIdx + 1) ∧
    ((B.consume c (min c.buyRemaining c.sellRemaining)).sellIdx = c.sellIdx ∨
      (B.consume c (min c.buyRemaining c.sellRemaining)).sellIdx = c.sellIdx + 1) ∧
    c.buyIdx + c.sellIdx <
      (B.consume c (min c.buyRemaining c.sellRemaining)).buyIdx +
        (B.consume c (min c.buyRemaining c.sellRemaining)).sellIdx := by
  have hmin := sub_min_eq_zero c.buyRemaining c.sellRemaining
  unfold consume advanceBuy advanceSell
  dsimp only
  split_ifs with hb hs hs
  · exact ⟨.inr rfl, .inr rfl, by dsimp only; omega⟩
  · exact ⟨.inr rfl, .inl rfl, by dsimp only; omega⟩
  · exact ⟨.inl rfl, .inr rfl, by dsimp only; omega⟩
  · rcases hmin with h | h
    · exact absurd h hb
    · exact absurd h hs

/-- Every iteration leaves fewer positions ahead. -/
theorem ahead_step_lt {c c' : BookCursor} {o : Option Match} (h : B.step c = some (c', o)) :
    B.ahead c' < B.ahead c := by
  obtain ⟨buy, sell, hbuy, hsell, -, hstep⟩ := B.step_cases h
  have hb : c.buyIdx < B.buys.length := (List.getElem?_eq_some_iff.mp hbuy).1
  have hs : c.sellIdx < B.sells.length := (List.getElem?_eq_some_iff.mp hsell).1
  have hidx := B.consume_idx c
  unfold ahead
  cases hstep with
  | skipSell | dustSell => dsimp only [advanceSell]; omega
  | skipBuy | dustBuy => dsimp only [advanceBuy]; omega
  | fill => omega

/-- The `while` loop of `generateMatches`. -/
def loop : WhileLoop BookCursor Match where
  step := B.step
  measure := B.ahead
  decreases := B.ahead_step_lt

end Book

/-- Greedy matching on the sorted books of one symbol. -/
def generateMatches [Externals] (batchId poolId : UInt64) (symbol : Bytes)
    (buys sells : List RevealedOrder) (minQuantity : UInt64) : List Match :=
  if buys.isEmpty || sells.isEmpty then []
  else
    let B : Book := ⟨batchId, poolId, symbol, buys, sells, minQuantity⟩
    B.loop.outputs B.start

/-! ## The entry point -/

/-- `symbol → min_quantity`; a later config for the same symbol replaces an earlier
one. -/
def marketMap (markets : List MarketConfig) : HashMap Bytes UInt64 :=
  markets.foldl (fun m c => m.insert c.symbol c.minQuantity) ∅

/-- The reveals of each symbol, in the order in which they came. -/
def bySymbol (reveals : List RevealedOrder) : HashMap Bytes (List RevealedOrder) :=
  reveals.foldl (fun m r => m.upsert r.order.symbol [] (fun rs => rs ++ [r])) ∅

/-- The matches of one symbol, given its reveals. -/
def matchSymbol [Externals] (batchId poolId : UInt64) (symbol : Bytes)
    (reveals : List RevealedOrder) (minQuantity : UInt64) : List Match :=
  let buys := reveals.filter (fun r => r.order.side = 1)
  let sells := reveals.filter (fun r => r.order.side = 0)
  let sorted := sortOrders buys sells
  generateMatches batchId poolId symbol sorted.1 sorted.2 minQuantity

/-- Match all reveals of a batch, symbol by symbol in the order of the symbols.
Reveals of a symbol without a market are dropped. -/
def runMatching [Externals] (input : MatchingInput) : List Match :=
  let markets := marketMap input.markets
  let groups := bySymbol input.reveals
  let symbols := sortBy compare groups.keys
  symbols.flatMap fun symbol =>
    match markets.lookup symbol with
    | none => []
    | some minQuantity =>
        matchSymbol input.batchId input.poolId symbol ((groups.lookup symbol).getD [])
          minQuantity
