/-
# Soundness of the matching loop

Every match of `generateMatches` is placed at a pair of book positions: `placedMatches`
records them beside the matches (`generateMatches_eq_map_placed`).  A placed match
pairs the orders at its positions, which belong to different NFTs and cross, at a fill
of at least `min_quantity`; and the fills placed at one position never exceed the
quantity of the order there (`generateMatches_sound`).

The bound is a potential argument: the quantity that the cursor can still spend at
position `i` (`capacity`) pays for every fill at `i`.
-/
import DeadmktNode.Matching

/-! ## Placed matches -/

/-- A match with the book positions that it was made at. -/
structure PlacedMatch where
  buyIdx : ℕ
  sellIdx : ℕ
  trade : Match
deriving DecidableEq

/-- The part of a placed match that is taken off the buy at position `i`. -/
def PlacedMatch.buyFill (i : ℕ) (p : PlacedMatch) : ℕ :=
  if p.buyIdx = i then p.trade.fillQuantity.toNat else 0

/-- The part of a placed match that is taken off the sell at position `i`. -/
def PlacedMatch.sellFill (i : ℕ) (p : PlacedMatch) : ℕ :=
  if p.sellIdx = i then p.trade.fillQuantity.toNat else 0

/-! ## The potential of a position -/

/-- What a cursor that stands at `idx` with `remaining` left can still take off the
order at position `i`. -/
def capacity (orders : List RevealedOrder) (idx : ℕ) (remaining : UInt64) (i : ℕ) : ℕ :=
  if i < idx then 0
  else if i = idx then remaining.toNat
  else (quantityAt orders i).toNat

/-- At the head of a book every position has its full quantity. -/
theorem capacity_zero (orders : List RevealedOrder) (i : ℕ) :
    capacity orders 0 (quantityAt orders 0) i = (quantityAt orders i).toNat := by
  unfold capacity
  split_ifs with h0 h1
  · omega
  · rw [h1]
  · rfl

/-- Moving on gives up what is left at the current position. -/
theorem capacity_advance_le (orders : List RevealedOrder) (idx : ℕ) (remaining : UInt64)
    (i : ℕ) :
    capacity orders (idx + 1) (quantityAt orders (idx + 1)) i
      ≤ capacity orders idx remaining i := by
  unfold capacity
  split_ifs with h0 h1 h2 h3 h4
  · omega
  · omega
  · omega
  · omega
  · omega
  · rw [h3]
  · omega
  · omega
  · exact le_refl _

/-- A fill is paid out of the position that the cursor stands on. -/
theorem capacity_sub (orders : List RevealedOrder) (idx : ℕ) {remaining fillQty : UInt64}
    (h : fillQty ≤ remaining) (i : ℕ) :
    (if idx = i then fillQty.toNat else 0) + capacity orders idx (remaining - fillQty) i
      = capacity orders idx remaining i := by
  have hsub := UInt64.toNat_sub_of_le remaining fillQty h
  have hle : fillQty.toNat ≤ remaining.toNat := UInt64.le_iff_toNat_le.mp h
  unfold capacity
  split_ifs with h0 h1 h2
  · omega
  · omega
  · omega
  · omega
  · omega
  · omega

namespace Book

variable [Externals] (B : Book)

/-- The match that an iteration at cursor `c` pushes, with its positions. -/
def place (c : BookCursor) (m : Match) : PlacedMatch := ⟨c.buyIdx, c.sellIdx, m⟩

/-- The loop of `generateMatches`, recording positions. -/
def placedLoop : WhileLoop BookCursor PlacedMatch where
  step c := (B.step c).map (fun p => (p.1, p.2.map (place c)))
  measure := B.ahead
  decreases := by
    intro c c' o h
    obtain ⟨⟨c₁, o₁⟩, hstep, heq⟩ := Option.map_eq_some_iff.mp h
    obtain ⟨rfl, -⟩ := Prod.mk.inj heq
    exact B.ahead_step_lt hstep

/-- An iteration of the recording loop is one of the loop. -/
theorem placedLoop_step {c c' : BookCursor} {o : Option PlacedMatch}
    (h : B.placedLoop.step c = some (c', o)) :
    ∃ m, B.step c = some (c', m) ∧ o = m.map (place c) := by
  obtain ⟨⟨c₁, m⟩, hstep, heq⟩ := Option.map_eq_some_iff.mp h
  obtain ⟨rfl, rfl⟩ := Prod.mk.inj heq
  exact ⟨m, hstep, rfl⟩

/-- Forgetting the positions gives the loop of the code. -/
theorem loop_outputs_eq (c : BookCursor) :
    B.loop.outputs c = (B.placedLoop.outputs c).map PlacedMatch.trade := by
  refine B.placedLoop.outputs_map B.loop PlacedMatch.trade ?_ c
  intro c
  show B.step c = ((B.step c).map _).map _
  rw [Option.map_map]
  cases B.step c with
  | none => rfl
  | some p =>
      obtain ⟨c', m⟩ := p
      cases m <;> rfl

/-! ## What a placed match is -/

/-- A match placed at its two orders: they belong to different NFTs, they cross, and
the fill reaches the market's minimum. -/
structure WellPlaced (p : PlacedMatch) : Prop where
  buyer : B.buys[p.buyIdx]? = some p.trade.buyer
  seller : B.sells[p.sellIdx]? = some p.trade.seller
  nft_ne : p.trade.buyer.order.nftId ≠ p.trade.seller.order.nftId
  cross : p.trade.seller.order.price ≤ p.trade.buyer.order.price
  fill_ge : B.minQuantity ≤ p.trade.fillQuantity
  made : p.trade = B.makeMatch p.trade.buyer p.trade.seller p.trade.fillQuantity

/-- Everything that the loop emits is well placed. -/
theorem placedLoop_wellPlaced (c : BookCursor) :
    ∀ p ∈ B.placedLoop.outputs c, B.WellPlaced p := by
  refine B.placedLoop.outputs_forall (I := fun _ => True) ?_ trivial
  intro c c' o _ h
  refine ⟨trivial, ?_⟩
  intro p hp
  obtain ⟨m, hstep, rfl⟩ := B.placedLoop_step h
  obtain ⟨buy, sell, hbuy, hsell, hcross, hstep⟩ := B.step_cases hstep
  cases hstep with
  | skipSell | skipBuy | dustBuy | dustSell => simp at hp
  | fill hnft hmin =>
      obtain rfl : place c (B.makeMatch buy sell _) = p := by simpa using hp
      exact ⟨hbuy, hsell, hnft, hcross, hmin, rfl⟩

/-! ## One iteration pays for its fill -/

omit [Externals] in
/-- After a fill the buy cursor spends from what it has left. -/
theorem capacity_consume_buy_le (c : BookCursor) (fillQty : UInt64) (i : ℕ) :
    capacity B.buys (B.consume c fillQty).buyIdx (B.consume c fillQty).buyRemaining i
      ≤ capacity B.buys c.buyIdx (c.buyRemaining - fillQty) i := by
  unfold consume advanceBuy advanceSell
  dsimp only
  split_ifs
  · exact capacity_advance_le B.buys c.buyIdx _ i
  · exact capacity_advance_le B.buys c.buyIdx _ i
  · exact le_refl _
  · exact le_refl _

omit [Externals] in
/-- After a fill the sell cursor spends from what it has left. -/
theorem capacity_consume_sell_le (c : BookCursor) (fillQty : UInt64) (i : ℕ) :
    capacity B.sells (B.consume c fillQty).sellIdx (B.consume c fillQty).sellRemaining i
      ≤ capacity B.sells c.sellIdx (c.sellRemaining - fillQty) i := by
  unfold consume advanceBuy advanceSell
  dsimp only
  split_ifs
  · exact capacity_advance_le B.sells c.sellIdx _ i
  · exact le_refl _
  · exact capacity_advance_le B.sells c.sellIdx _ i
  · exact le_refl _

/-- An iteration takes its fill out of the capacity of the buys. -/
theorem placedLoop_pays_buy {c c' : BookCursor} {o : Option PlacedMatch} (i : ℕ)
    (h : B.placedLoop.step c = some (c', o)) :
    (o.toList.map (PlacedMatch.buyFill i)).sum + capacity B.buys c'.buyIdx c'.buyRemaining i
      ≤ capacity B.buys c.buyIdx c.buyRemaining i := by
  obtain ⟨m, hstep, rfl⟩ := B.placedLoop_step h
  obtain ⟨buy, sell, -, -, -, hstep⟩ := B.step_cases hstep
  cases hstep with
  | skipSell | dustSell => simp [advanceSell]
  | skipBuy | dustBuy => simpa [advanceBuy] using capacity_advance_le B.buys c.buyIdx _ i
  | fill hnft hmin =>
      have hle : min c.buyRemaining c.sellRemaining ≤ c.buyRemaining := by
        show (if _ then _ else _) ≤ _
        split_ifs with hle
        · exact UInt64.le_refl _
        · exact UInt64.le_of_lt (UInt64.not_le.mp hle)
      have hconsume := B.capacity_consume_buy_le c (min c.buyRemaining c.sellRemaining) i
      have hpay := capacity_sub B.buys c.buyIdx hle i
      simp only [Option.map_some, Option.toList_some, List.map_cons, List.map_nil,
        List.sum_cons, List.sum_nil, PlacedMatch.buyFill, place, makeMatch]
      omega

/-- An iteration takes its fill out of the capacity of the sells. -/
theorem placedLoop_pays_sell {c c' : BookCursor} {o : Option PlacedMatch} (i : ℕ)
    (h : B.placedLoop.step c = some (c', o)) :
    (o.toList.map (PlacedMatch.sellFill i)).sum
        + capacity B.sells c'.sellIdx c'.sellRemaining i
      ≤ capacity B.sells c.sellIdx c.sellRemaining i := by
  obtain ⟨m, hstep, rfl⟩ := B.placedLoop_step h
  obtain ⟨buy, sell, -, -, -, hstep⟩ := B.step_cases hstep
  cases hstep with
  | skipBuy | dustBuy => simp [advanceBuy]
  | skipSell | dustSell =>
      simpa [advanceSell] using capacity_advance_le B.sells c.sellIdx _ i
  | fill hnft hmin =>
      have hle : min c.buyRemaining c.sellRemaining ≤ c.sellRemaining := by
        show (if _ then _ else _) ≤ _
        split_ifs with hle
        · exact hle
        · exact UInt64.le_refl _
      have hconsume := B.capacity_consume_sell_le c (min c.buyRemaining c.sellRemaining) i
      have hpay := capacity_sub B.sells c.sellIdx hle i
      simp only [Option.map_some, Option.toList_some, List.map_cons, List.map_nil,
        List.sum_cons, List.sum_nil, PlacedMatch.sellFill, place, makeMatch]
      omega

end Book

/-! ## Soundness of `generateMatches` -/

/-- The matches of `generateMatches` with their positions. -/
def placedMatches [Externals] (batchId poolId : UInt64) (symbol : Bytes)
    (buys sells : List RevealedOrder) (minQuantity : UInt64) : List PlacedMatch :=
  let B : Book := ⟨batchId, poolId, symbol, buys, sells, minQuantity⟩
  B.placedLoop.outputs B.start

section

variable [Externals] (batchId poolId : UInt64) (symbol : Bytes)
  (buys sells : List RevealedOrder) (minQuantity : UInt64)

/-- The check for empty books only saves the loop a first test. -/
theorem generateMatches_eq_loop :
    generateMatches batchId poolId symbol buys sells minQuantity
      = (Book.mk batchId poolId symbol buys sells minQuantity).loop.outputs
          (Book.mk batchId poolId symbol buys sells minQuantity).start := by
  unfold generateMatches
  split_ifs with hempty
  · refine (WhileLoop.outputs_of_none _ ?_).symm
    refine (Book.step_eq_none_iff _).mpr ?_
    intro buy sell hbuy hsell
    rw [Bool.or_eq_true, List.isEmpty_iff, List.isEmpty_iff] at hempty
    rcases hempty with h | h
    · simp [h] at hbuy
    · simp [h] at hsell
  · rfl

/-- The matches are the placed matches without their positions. -/
theorem generateMatches_eq_map_placed :
    generateMatches batchId poolId symbol buys sells minQuantity
      = (placedMatches batchId poolId symbol buys sells minQuantity).map PlacedMatch.trade := by
  rw [generateMatches_eq_loop, Book.loop_outputs_eq]
  rfl

/-- Every placed match pairs two crossing orders of different NFTs. -/
theorem placedMatches_wellPlaced :
    ∀ p ∈ placedMatches batchId poolId symbol buys sells minQuantity,
      (Book.mk batchId poolId symbol buys sells minQuantity).WellPlaced p :=
  Book.placedLoop_wellPlaced _ _

/-- The fills placed at a buy position never exceed its quantity. -/
theorem sum_buyFill_le (i : ℕ) :
    ((placedMatches batchId poolId symbol buys sells minQuantity).map
      (PlacedMatch.buyFill i)).sum ≤ (quantityAt buys i).toNat := by
  let B : Book := ⟨batchId, poolId, symbol, buys, sells, minQuantity⟩
  have h := B.placedLoop.sum_outputs_le (PlacedMatch.buyFill i)
    (fun c => capacity buys c.buyIdx c.buyRemaining i)
    (fun _ _ _ hstep => B.placedLoop_pays_buy i hstep) B.start
  rwa [show B.start.buyIdx = 0 from rfl,
    show B.start.buyRemaining = quantityAt buys 0 from rfl, capacity_zero] at h

/-- The fills placed at a sell position never exceed its quantity. -/
theorem sum_sellFill_le (i : ℕ) :
    ((placedMatches batchId poolId symbol buys sells minQuantity).map
      (PlacedMatch.sellFill i)).sum ≤ (quantityAt sells i).toNat := by
  let B : Book := ⟨batchId, poolId, symbol, buys, sells, minQuantity⟩
  have h := B.placedLoop.sum_outputs_le (PlacedMatch.sellFill i)
    (fun c => capacity sells c.sellIdx c.sellRemaining i)
    (fun _ _ _ hstep => B.placedLoop_pays_sell i hstep) B.start
  rwa [show B.start.sellIdx = 0 from rfl,
    show B.start.sellRemaining = quantityAt sells 0 from rfl, capacity_zero] at h

/-- **Soundness of `generateMatches`.**  The emitted matches can be placed at book
positions so that each one pairs the buy and the sell at its positions, which belong to
different NFTs and cross, with a fill of at least `min_quantity`; and at every
position the fills sum to at most the quantity of the order there.  No order of the
books and no bound on `min_quantity` is needed. -/
theorem generateMatches_sound :
    ∃ placed : List PlacedMatch,
      generateMatches batchId poolId symbol buys sells minQuantity
        = placed.map PlacedMatch.trade ∧
      (∀ p ∈ placed,
        buys[p.buyIdx]? = some p.trade.buyer ∧
        sells[p.sellIdx]? = some p.trade.seller ∧
        p.trade.buyer.order.nftId ≠ p.trade.seller.order.nftId ∧
        p.trade.seller.order.price ≤ p.trade.buyer.order.price ∧
        minQuantity ≤ p.trade.fillQuantity) ∧
      (∀ (i : ℕ) (buy : RevealedOrder), buys[i]? = some buy →
        (placed.map (PlacedMatch.buyFill i)).sum ≤ buy.order.quantity.toNat) ∧
      (∀ (i : ℕ) (sell : RevealedOrder), sells[i]? = some sell →
        (placed.map (PlacedMatch.sellFill i)).sum ≤ sell.order.quantity.toNat) := by
  refine ⟨placedMatches batchId poolId symbol buys sells minQuantity,
    generateMatches_eq_map_placed _ _ _ _ _ _, ?_, ?_, ?_⟩
  · intro p hp
    have h := placedMatches_wellPlaced _ _ _ _ _ _ p hp
    exact ⟨h.buyer, h.seller, h.nft_ne, h.cross, h.fill_ge⟩
  · intro i buy hbuy
    have h := sum_buyFill_le batchId poolId symbol buys sells minQuantity i
    rwa [show quantityAt buys i = buy.order.quantity by simp [quantityAt, hbuy]] at h
  · intro i sell hsell
    have h := sum_sellFill_le batchId poolId symbol buys sells minQuantity i
    rwa [show quantityAt sells i = sell.order.quantity by simp [quantityAt, hsell]] at h

end
